import GbfLibrary.TwoThree.Reserved
import GbfLibrary.TwoThree.Failures
import Mathlib.Order.Bounds.Defs

/-!
# The successor of a key

Where the search of `lbs_23tree_get_successor_and_swap` ends. The assertions of the code hold in every call:
one that does not is a fault of the model.
-/

set_option autoImplicit false

namespace GbfLibrary.TwoThree

open Memory Prog Trees Tree23 Maps

/-- The keys of a tree. -/
def keys (tree : LbsTree) : Set Word := {key | ∃ value, (key, value) ∈ tree.inorder}

section Successor

variable {s : TreeMachine} {sub : LbsTree} {parent : Addr} {root : Int} {height : Nat} {key : Word}

/-- A key of an inner node is a pivot: behind it there is another tree. -/
theorem Rep.exists_pivot (rep : Rep s sub parent root) (uniform : sub.Uniform (height + 2))
    (valid : key ≠ INVALID_KEY_VALUE) (here : (s.cell (addr sub)).lkey = key ∨ (s.cell (addr sub)).rkey = key) :
    ∃ (frame : LbsFrame) (child : LbsTree) (e : Entry), sub = frame.fill child ∧ frame.Pivot e ∧ e.1 = key ∧
      child.Uniform (height + 1) := by
  cases sub with
  | nil => cases uniform
  | two a e l r =>
      obtain ⟨_, _, cell, _⟩ := rep
      rw [addr_two, cell] at here
      rcases here with first | none
      · exact ⟨.twoRight a e l, r, e, rfl, rfl, first, uniform.two_children.2⟩
      · exact absurd none.symm valid
  | three a e f l m r =>
      obtain ⟨_, _, _, cell, _⟩ := rep
      obtain ⟨_, middle, right⟩ := uniform.three_children
      rw [addr_three, cell] at here
      rcases here with first | second
      · exact ⟨.threeMiddle a e f l r, m, e, rfl, rfl, first, middle⟩
      · exact ⟨.threeRight a e f l m, r, f, rfl, rfl, second, right⟩

/-- A node with a left child is not at the bottom. -/
theorem Rep.exists_height (rep : Rep s sub parent root) (uniform : sub.Uniform height) (nonempty : sub ≠ nil)
    (inner : (s.cell (addr sub)).lchild ≠ 0) : ∃ more, height = more + 2 := by
  cases uniform with
  | nil => exact absurd rfl nonempty
  | @two a e l r height left _ =>
      obtain ⟨_, _, cell, _⟩ := rep
      rw [addr_two, cell] at inner
      cases left with
      | nil => exact absurd rfl inner
      | two | three => exact ⟨_, rfl⟩
  | @three a e f l m r height left _ _ =>
      obtain ⟨_, _, _, cell, _⟩ := rep
      rw [addr_three, cell] at inner
      cases left with
      | nil => exact absurd rfl inner
      | two | three => exact ⟨_, rfl⟩

theorem Rep.leaf (rep : Rep s sub parent root) (even : sub.Uniform 1) :
    ∃ x rest, sub.inorder = x :: rest ∧ (s.cell (addr sub)).lkey = x.1 ∧ (s.cell (addr sub)).lchild = 0 := by
  cases even with
  | @two a x l r _ left right =>
      obtain rfl := left.eq_nil
      obtain rfl := right.eq_nil
      obtain ⟨_, _, cell, _⟩ := rep
      exact ⟨x, [], rfl, by rw [addr_two, cell], by rw [addr_two, cell]; rfl⟩
  | @three a x y l m r _ left middle right =>
      obtain rfl := left.eq_nil
      obtain rfl := middle.eq_nil
      obtain rfl := right.eq_nil
      obtain ⟨_, _, _, cell, _⟩ := rep
      exact ⟨x, [y], rfl, by rw [addr_three, cell], by rw [addr_three, cell]; rfl⟩

/-- The entry behind another one in search order has the next key. -/
theorem isLeast_next {tree : LbsTree} {e x : Entry} {front back : List Entry}
    (sorted : Increasing rank tree.inorder) (entries : tree.inorder = front ++ e :: x :: back) :
    IsLeast {key | key ∈ keys tree ∧ e.1 < key} x.1 := by
  rw [entries] at sorted
  have above : ∀ y ∈ x :: back, rank e < rank y := by
    intro y member
    exact Increasing.across (show Increasing rank ((front ++ [e]) ++ (x :: back)) by simpa using sorted) (by simp) member
  constructor
  · exact ⟨⟨x.2, by simp [entries]⟩, BitVec.lt_def.mpr (above x List.mem_cons_self)⟩
  · rintro key ⟨⟨value, member⟩, larger⟩
    rw [entries, List.mem_append, List.mem_cons, List.mem_cons] at member
    have after : rank e < key.toNat := BitVec.lt_def.mp larger
    rw [BitVec.le_def]
    rcases member with inFront | rfl | rfl | inBack
    · have smaller : rank (key, value) < rank e := sorted.across inFront List.mem_cons_self
      exact absurd smaller (Nat.lt_asymm after)
    · exact absurd after (Nat.lt_irrefl _)
    · exact Nat.le_refl _
    · have next : rank x < rank (key, value) :=
        Increasing.across (show Increasing rank ((front ++ [e, x]) ++ back) by simpa using sorted) (by simp) inBack
      exact Nat.le_of_lt next

end Successor

/-- The search for the next key, from this node, ends at another node, a leaf that begins with the successor. -/
structure FindsSuccessor (fuel : Nat) (s : TreeMachine) (tree : LbsTree) (node : Addr) (key : Word) (leaf : Addr) :
    Prop where
  search : ∃ result, searchNodeOrParent fuel node (key + 1) s = some ((leaf, result), s)
  member : leaf ∈ tree.labels
  bottom : (s.cell leaf).lchild = 0
  other : leaf ≠ node
  least : IsLeast {larger | larger ∈ keys tree ∧ key < larger} (s.cell leaf).lkey

section Calls

variable {malloc : Malloc} {s : TreeMachine} {tree : LbsTree} {levels fuel : Nat} {key : Word}

private theorem Holds.findsSuccessor {path : LbsPath} {frame : LbsFrame} {child : LbsTree} {e : Entry} {height : Nat}
    (holds : Holds s (path.plug (frame.fill child)) levels) (pivot : frame.Pivot e)
    (uniform : (frame.fill child).Uniform (height + 2)) (even : child.Uniform (height + 1))
    (enough : height + 1 < fuel) :
    ∃ leaf, FindsSuccessor fuel s (path.plug (frame.fill child)) frame.label e.1 leaf := by
  obtain ⟨filled, _⟩ := rep_plug.mp holds.rep
  obtain ⟨front, before, _⟩ := pivot.before
  have entries := Path23.inorder_plug path (frame.fill child)
  have sorted := holds.sorted
  have filledSorted : Increasing rank (frame.fill child).inorder := by
    rw [entries] at sorted
    exact sorted.sublist ((List.sublist_append_left _ _).trans (List.sublist_append_right _ _))
  obtain ⟨inner, leaf, result, rfl, leftmost, leafEven, runs⟩ :=
    searchNodeOrParent_successor holds.good filled pivot uniform even filledSorted enough
  have whole : Path23.plug (inner ++ frame :: path) leaf = path.plug (frame.fill (inner.plug leaf)) :=
    Path23.plug_append inner (frame :: path) leaf
  obtain ⟨leafRep, _⟩ := rep_plug.mp (whole ▸ holds.rep)
  obtain ⟨x, rest, leafEntries, lkey, bottom⟩ := leafRep.leaf leafEven
  have leafSome : leaf ≠ nil := by
    rintro rfl
    cases leafEntries
  have inLeaf : addr leaf ∈ leaf.labels := addr_mem_labels (leafRep.addr_ne holds.good leafSome)
  have labels := Path23.labels_plug (inner ++ frame :: path) leaf
  rw [whole] at labels
  refine ⟨addr leaf, ⟨result, runs⟩, labels.mem_iff.mpr (List.mem_append_left _ inLeaf), bottom, ?_, ?_⟩
  · intro same
    have distinct := labels.nodup_iff.mp holds.nodup
    have inPath : addr leaf ∈ Path23.labels (inner ++ frame :: path) := by
      rw [same]
      simp [Path23.labels_append, frame.label_mem_labels]
    exact (List.nodup_append'.mp distinct).2.2 inLeaf inPath
  · have order : (path.plug (frame.fill (inner.plug leaf))).inorder =
        (path.before ++ front) ++ e :: x :: (rest ++ (inner.after ++ (frame.after ++ path.after))) := by
      simp [Path23.inorder_plug, Frame23.inorder_fill, before, leftmost, leafEntries]
    rw [lkey]
    exact isLeast_next sorted order

theorem Holds.insert_returns (malloc : Malloc) (holds : Holds s tree levels) (enough : levels < fuel) (value : Word)
    (valid : key ≠ INVALID_KEY_VALUE) : ∃ status s', TwoThree.insert malloc fuel value key s = some (status, s') := by
  by_cases null : value = 0
  · exact ⟨.invParam, s, by simp [TwoThree.insert, null]⟩
  · obtain ⟨status, s', runs, _⟩ := insert_outcome malloc holds enough null valid
    exact ⟨status, s', runs⟩

private theorem Holds.delete_returns (holds : Holds s tree levels) (enough : levels < fuel)
    (valid : key ≠ INVALID_KEY_VALUE) : ∃ status s', TwoThree.delete fuel key s = some (status, s') := by
  obtain ⟨path, sub, ends, rfl, _, here⟩ := holds.split key
  by_cases empty : sub = nil
  · subst empty
    obtain ⟨status, runs, _⟩ := delete_absent holds ends valid enough
    exact ⟨status, s, runs⟩
  · obtain ⟨s', _, _, _, _, _, runs, _⟩ := delete_found holds ends here empty valid enough.le
    exact ⟨.ok, s', runs⟩

end Calls

/-- From an inner node the search for the key after one of its keys ends at the leaf with the successor, and no
assertion fails in an insertion or a deletion. -/
theorem reached_successor (fuel n : Nat) (enough : n < fuel) (s : TreeMachine) (reached : Reached fuel n s)
    (tree : LbsTree) (wellFormed : WellFormed s tree) :
    (∀ node ∈ tree.labels, (s.cell node).lchild ≠ 0 → ∀ key, key ≠ INVALID_KEY_VALUE →
      ((s.cell node).lkey = key ∨ (s.cell node).rkey = key) → ∃ leaf, FindsSuccessor fuel s tree node key leaf) ∧
    ∀ key, key ≠ INVALID_KEY_VALUE →
      (∀ malloc value, ∃ status s', TwoThree.insert malloc fuel value key s = some (status, s')) ∧
      ∃ status s', TwoThree.delete fuel key s = some (status, s') := by
  obtain ⟨tree₀, levels, holds, length⟩ := reached.holds
  obtain rfl : tree₀ = tree := holds.wellFormed.spells.unique wellFormed.spells
  have high := holds.uniform.le_length
  have short : levels < fuel := by omega
  constructor
  · intro node member inner key valid here
    obtain ⟨path, sub, rfl, rfl, nonempty⟩ : ∃ (path : LbsPath) (sub : LbsTree),
        tree₀ = path.plug sub ∧ node = addr sub ∧ sub ≠ nil := by
      obtain ⟨path, ⟨e, l, r, rfl⟩ | ⟨e, f, l, m, r, rfl⟩⟩ := Path23.exists_plug member
      · exact ⟨path, _, rfl, rfl, by simp⟩
      · exact ⟨path, _, rfl, rfl, by simp⟩
    obtain ⟨rep, _⟩ := rep_plug.mp holds.rep
    obtain ⟨height, uniform, around⟩ := Path23.Uniform.of_plug holds.uniform
    have depth := around.length_add
    obtain ⟨height, rfl⟩ := rep.exists_height uniform nonempty inner
    obtain ⟨frame, child, e, rfl, pivot, rfl, even⟩ := rep.exists_pivot uniform valid here
    rw [addr_fill]
    exact holds.findsSuccessor pivot uniform even (by omega)
  · intro key valid
    exact ⟨fun malloc value => holds.insert_returns malloc short value valid, holds.delete_returns short valid⟩

/-- The insertions of 20, 40 and 60. -/
def threeInserts : Option (List Reply × TreeMachine) :=
  runCalls .bump 6 [.insert 2 20, .insert 4 40, .insert 6 60] newborn

/-- The tree with 40 at the root. -/
@[irreducible] def threeKeys : TreeMachine := (threeInserts.get (by decide +kernel)).2

private theorem threeKeys_reached : Reached 6 3 threeKeys := by
  have created : Reached 6 0 newborn :=
    .created (by simp [emptyMemory]) (show newTree .bump emptyMemory = some (1, newborn) from rfl) (by decide)
  have returns : threeInserts.isSome = true := by decide +kernel
  have runs : threeInserts = some ((threeInserts.get returns).1, threeKeys) := by
    rw [threeKeys, Prod.mk.eta, Option.some_get]
  exact created.runs Malloc.bump_succeeds _ (by simp [Call.Valid, INVALID_KEY_VALUE]) (by decide) runs

private theorem threeKeys_spells : Spells threeKeys threeKeys.glob.root
    (.two 3 (40, 4) (.two 2 (20, 2) .nil .nil) (.two 4 (60, 6) .nil .nil)) := by
  have root : threeKeys.glob.root = 3 ∧ 3 ∈ threeKeys.live ∧
      threeKeys.cell 3 = ⟨1, 1, 2, 0, 0, 4, 40, 4, INVALID_KEY_VALUE, 0⟩ := by decide +kernel
  have left : 2 ∈ threeKeys.live ∧ threeKeys.cell 2 = ⟨0, 3, 0, 0, 0, 0, 20, 2, INVALID_KEY_VALUE, 0⟩ := by
    decide +kernel
  have right : 4 ∈ threeKeys.live ∧ threeKeys.cell 4 = ⟨0, 3, 0, 0, 0, 0, 60, 6, INVALID_KEY_VALUE, 0⟩ := by
    decide +kernel
  simp [Spells, root, left, right]

theorem reached_successor_threeKeys :
    ∃ leaf, FindsSuccessor 6 threeKeys (.two 3 (40, 4) (.two 2 (20, 2) .nil .nil) (.two 4 (60, 6) .nil .nil)) 3 40
      leaf := by
  obtain ⟨tree, levels, holds, _⟩ := threeKeys_reached.holds
  obtain rfl := threeKeys_spells.unique holds.wellFormed.spells
  exact (reached_successor 6 3 (by decide) threeKeys threeKeys_reached _ holds.wellFormed).1 3 (by decide)
    (by decide +kernel) 40 (by decide) (.inl (by decide +kernel))

end GbfLibrary.TwoThree
