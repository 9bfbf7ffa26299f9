import GbfLibrary.TwoThree.Repair
import GbfLibrary.TwoThree.Update

/-!
# Deletion

The key to delete is moved into a leaf first, where the search order is broken
for it alone. The leaf gives it up, and the way up is rebalanced.
-/

set_option autoImplicit false

namespace GbfLibrary.TwoThree

open Memory Prog Trees Tree23 Maps

/-- A tree whose leaf in the hole of `path` holds the key to delete. `entries`
are the others in search order. -/
structure Ready (s : TreeMachine) (path : LbsPath) (leaf : LbsTree) (key : Word)
    (entries : List Entry) (levels : Nat) : Prop where
  rep : Rep s (path.plug leaf) s.glob.slot 1
  root : s.glob.root = addr (path.plug leaf)
  good : 0 ∉ s.live
  nodup : (path.plug leaf).labels.Nodup
  uniform : (path.plug leaf).Uniform levels
  level : s.glob.level = levels
  sorted : Increasing rank entries
  count : s.glob.nodeCount = entries.length + 1
  place : (∃ n e, leaf = two n e nil nil ∧ e.1 = key ∧ entries = path.before ++ path.after) ∨
    (∃ n e f, leaf = three n e f nil nil nil ∧ e.1 = key ∧
      entries = path.before ++ f :: path.after) ∨
    ∃ n e f, leaf = three n e f nil nil nil ∧ e.1 ≠ key ∧ f.1 = key ∧
      entries = path.before ++ e :: path.after

section Delete

variable {s : TreeMachine} {path : LbsPath} {leaf : LbsTree} {entries : List Entry}
  {levels fuel : Nat} {key : Word}

private theorem removeKey_three {n : Addr} {e f g : Entry}
    (ready : Ready s path (three n e f nil nil nil) key entries levels)
    (place : e.1 = key ∧ g = f ∨ e.1 ≠ key ∧ f.1 = key ∧ g = e) :
    ∃ s', removeKey fuel n key s = some (.ok, s') ∧
      Rep s' (path.plug (two n g nil nil)) s.glob.slot 1 ∧ s'.glob = s.glob ∧ 0 ∉ s'.live ∧ s'.live = s.live := by
  obtain ⟨rep, root, good, nodup, uniform, level, sorted, count, _⟩ := ready
  obtain ⟨⟨live, eValid, fValid, cell, _⟩, above⟩ := rep_plug.mp rep
  have notNull : n ≠ 0 := fun null => good (null ▸ live)
  have outside : n ∉ path.labels := by
    have distinct := (Path23.labels_plug _ _).nodup_iff.mp nodup
    simpa using (List.nodup_cons.mp distinct).1
  rcases place with ⟨rfl, rfl⟩ | ⟨different, rfl, rfl⟩
  · refine Exists.intro ?first (And.intro ?firstRuns ?firstResult)
    case firstRuns =>
      simp [removeKey, setLkeyValue, clrRkeyValue, setRkeyValue, notNull, live, cell, eValid, fValid]
      rfl
    case firstResult =>
      refine ⟨rep_plug.mpr ⟨?_, ?_⟩, by simp, by simpa using good, by simp⟩
      · simp [Rep, live, cell, fValid]
      · simpa [outside] using above
  · refine Exists.intro ?second (And.intro ?secondRuns ?secondResult)
    case secondRuns =>
      simp [removeKey, clrRkeyValue, setRkeyValue, notNull, live, cell, eValid, fValid, different]
      rfl
    case secondResult =>
      refine ⟨rep_plug.mpr ⟨?_, ?_⟩, by simp, by simpa using good, by simp⟩
      · simp [Rep, live, cell, eValid]
      · simpa [outside] using above

private theorem Ready.shortened {n : Addr} {e f g : Entry}
    (ready : Ready s path (three n e f nil nil nil) key entries levels)
    (place : e.1 = key ∧ g = f ∨ e.1 ≠ key ∧ f.1 = key ∧ g = e)
    (rest : entries = path.before ++ g :: path.after) :
    ∃ s' tree' levels', removeKey fuel n key s = some (.ok, s') ∧
      Holds (s'.withGlob { s'.glob with nodeCount := s'.glob.nodeCount - 1 }) tree' levels' ∧
      tree'.inorder = entries ∧
      s'.beside tree'.labels = s.beside (path.plug (three n e f nil nil nil)).labels := by
  obtain ⟨s', (runs : removeKey fuel n key s = _), rep, glob, good, live⟩ := removeKey_three ready place
  have inorder : (path.plug (two n g nil nil)).inorder = entries := by
    simp [Path23.inorder_plug, rest]
  have labels : (path.plug (two n g nil nil)).labels.Perm
      (path.plug (three n e f nil nil nil)).labels :=
    (Path23.labels_plug path (two n g nil nil)).trans
      (Path23.labels_plug path (three n e f nil nil nil)).symm
  obtain ⟨height, leafEven, around⟩ := Path23.Uniform.of_plug ready.uniform
  have uniform : (path.plug (two n g nil nil)).Uniform levels := by
    cases leafEven with
    | three left middle right => exact around.plug (.two left right)
  refine ⟨s', _, levels, runs, ⟨?_, ?_, by simpa using good, labels.nodup_iff.mpr ready.nodup,
    uniform, ?_, inorder ▸ ready.sorted, ?_⟩, inorder, Machine.beside_perm live labels⟩
  · simpa [glob] using rep
  · simpa [glob, addr_plug] using ready.root
  · simpa [glob] using ready.level
  · simp [glob, ready.count, inorder]

private theorem removeKey_two {n : Addr} {e : Entry} (ready : Ready s path (two n e nil nil) key entries levels)
    (same : e.1 = key) :
    ∃ s', removeKey fuel n key s = fixNullNode fuel n s' ∧ s'.glob = s.glob ∧ s'.live = s.live ∧
      Deficit s' path n nil 0 levels := by
  obtain ⟨rep, root, good, nodup, uniform, level, sorted, count, _⟩ := ready
  obtain ⟨⟨live, eValid, cell, _⟩, above⟩ := rep_plug.mp rep
  obtain ⟨height, leafEven, around⟩ := Path23.Uniform.of_plug uniform
  have notNull : n ≠ 0 := fun null => good (null ▸ live)
  have distinct := (Path23.labels_plug _ _).nodup_iff.mp nodup
  have outside : n ∉ path.labels := by simpa using (List.nodup_cons.mp distinct).1
  obtain rfl : height = 1 := by
    cases leafEven with
    | two left _ => rw [left.eq_zero]
  refine Exists.intro ?state (And.intro ?runs ?result)
  case runs =>
    simp [removeKey, clrLkeyValue, clrRkeyValue, setLkeyValue, setRkeyValue, notNull, live, cell,
      same]
    rfl
  case result =>
    refine ⟨by simp, by simp, by simpa using live, by simp [cell], trivial, ?_, by simpa using good,
      by simpa using distinct, .nil, around⟩
    simpa [outside] using above

/-- What is left of the tree after the key is gone from its leaf. -/
theorem removeKey_ready (ready : Ready s path leaf key entries levels) (enough : levels ≤ fuel) :
    ∃ s' tree' levels', removeKey fuel (addr leaf) key s = some (.ok, s') ∧
      Holds (s'.withGlob { s'.glob with nodeCount := s'.glob.nodeCount - 1 }) tree' levels' ∧
      tree'.inorder = entries ∧ s'.beside tree'.labels = s.beside (path.plug leaf).labels := by
  rcases ready.place with ⟨n, e, rfl, rfl, rest⟩ | ⟨n, e, f, rfl, same, rest⟩ |
    ⟨n, e, f, rfl, different, same, rest⟩
  · obtain ⟨s₁, (steps : removeKey fuel n e.1 s = _), glob₁, live₁, deficit⟩ := removeKey_two ready rfl
    obtain ⟨tree', lower, shrinks⟩ :=
      Shrinks.exists_of_uniform path n nil deficit.around .nil
    have depth := deficit.around.length_add
    have top : s₁.glob.root = topOf path n := by
      rw [glob₁, ready.root, addr_plug, addr_two]
    obtain ⟨s', runs, rebuilt, kept⟩ :=
      fixNullNode_shrinks shrinks deficit (fun _ => rfl) top (show path.length < fuel by omega)
    have inorder : tree'.inorder = entries := by rw [shrinks.inorder, rest, inorder_nil, List.nil_append]
    have little := shrinks.lower_le
    refine ⟨s', tree', levels - lower, steps.trans runs, ⟨?_, ?_, ?_, shrinks.nodup deficit.nodup,
      shrinks.uniform deficit.around .nil, ?_, inorder ▸ ready.sorted, ?_⟩, inorder, ?_⟩
    · simpa [rebuilt.glob] using rebuilt.rep
    · simp [rebuilt.glob]
    · simpa using rebuilt.good
    · simp [rebuilt.glob, glob₁, ready.level]
      omega
    · simp [rebuilt.glob, glob₁, ready.count, inorder]
    · rw [kept]
      exact Machine.beside_perm live₁ (Path23.labels_plug path (two n e nil nil)).symm
  · exact ready.shortened (.inl ⟨same, rfl⟩) rest
  · exact ready.shortened (.inr ⟨different, same, rfl⟩) rest

end Delete

/-!
## The successor
-/

section Successor

variable {s : TreeMachine} {frame : LbsFrame} {tree : LbsTree} {e x : Entry} {parent hole n : Addr}
  {root : Int} {height fuel : Nat}

/-- The key after the pivot is not past any entry of the hole. -/
theorem successor_key (rep : Rep s tree parent root) (uniform : tree.Uniform (height + 1))
    (above : ∀ y ∈ tree.inorder, rank e < rank y) :
    e.1 + 1 ≠ INVALID_KEY_VALUE ∧ (e.1 + 1).toNat = rank e + 1 := by
  obtain ⟨y, member⟩ := exists_mem_inorder uniform
  have valid := rep.valid y member
  have larger := above y member
  have bound : y.1.toNat < 2 ^ 32 := y.1.isLt
  have notMax : y.1.toNat ≠ 2 ^ 32 - 1 := fun same => valid (BitVec.eq_of_toNat_eq same)
  have next : (e.1 + 1).toNat = rank e + 1 := by
    have one : (1 : Word).toNat = 1 := rfl
    rw [BitVec.toNat_add, one]
    simp only [rank] at larger ⊢
    omega
  refine ⟨fun same => ?_, next⟩
  rw [same] at next
  have : (INVALID_KEY_VALUE).toNat = 2 ^ 32 - 1 := rfl
  simp only [rank] at larger next
  omega

/-- Looking for the key after the pivot, the search goes on in the hole. -/
theorem searchNodeOrParent_pivot (good : 0 ∉ s.live) (rep : Rep s (frame.fill tree) parent root)
    (pivot : frame.Pivot e) (uniform : (frame.fill tree).Uniform (height + 2))
    (sorted : Increasing rank (frame.fill tree).inorder) :
    e.1 + 1 ≠ INVALID_KEY_VALUE ∧ (∀ y ∈ tree.inorder, (e.1 + 1).toNat ≤ rank y) ∧
      searchNodeOrParent (fuel + 1) frame.label (e.1 + 1) s =
        searchNodeOrParent fuel (addr tree) (e.1 + 1) s := by
  cases frame with
  | twoLeft | threeLeft => exact absurd pivot id
  | twoRight a d l =>
      obtain rfl := pivot
      simp only [Frame23.fill] at rep uniform sorted
      obtain ⟨leftEven, even⟩ := uniform.two_children
      have apart : Increasing rank ((l.inorder ++ [d]) ++ tree.inorder) := by simpa using sorted
      have above : ∀ y ∈ tree.inorder, rank d < rank y := fun y member =>
        apart.across (by simp) member
      obtain ⟨valid, next⟩ := successor_key rep.2.2.2.2 even above
      have past : direction (d.1 + 1) d = .gt := compare_gt_iff_gt.mpr (by omega)
      refine ⟨valid, fun y member => by have := above y member; omega, ?_⟩
      rw [Frame23.label, searchNodeOrParent_two good rep valid, past]
      simp [rep.2.2.2.1.addr_ne_of_uniform good leftEven]
  | threeMiddle a d f l r =>
      obtain rfl := pivot
      simp only [Frame23.fill] at rep uniform sorted
      obtain ⟨leftEven, even, _⟩ := uniform.three_children
      obtain ⟨order, _⟩ := three_sorted sorted
      have apart : Increasing rank ((l.inorder ++ [d]) ++ (tree.inorder ++ f :: r.inorder)) := by
        simpa using sorted
      have beyond : Increasing rank ((l.inorder ++ d :: tree.inorder) ++ f :: r.inorder) := by
        simpa using sorted
      have above : ∀ y ∈ tree.inorder, rank d < rank y := fun y member =>
        apart.across (by simp) (by simp [member])
      obtain ⟨valid, next⟩ := successor_key rep.2.2.2.2.2.1 even above
      obtain ⟨y, inTree⟩ := exists_mem_inorder even
      have larger : rank y < rank f := beyond.across (by simp [inTree]) (by simp)
      have past : direction (d.1 + 1) d = .gt := compare_gt_iff_gt.mpr (by omega)
      have before : direction (d.1 + 1) f = .lt := by
        have := above y inTree
        exact compare_lt_iff_lt.mpr (by omega)
      refine ⟨valid, fun y member => by have := above y member; omega, ?_⟩
      rw [Frame23.label, searchNodeOrParent_three good rep order, past, before]
      simp [rep.2.2.2.2.1.addr_ne_of_uniform good leftEven]
  | threeRight a d f l m =>
      obtain rfl := pivot
      simp only [Frame23.fill] at rep uniform sorted
      obtain ⟨leftEven, _, even⟩ := uniform.three_children
      obtain ⟨order, _⟩ := three_sorted sorted
      have apart : Increasing rank ((l.inorder ++ d :: (m.inorder ++ [f])) ++ tree.inorder) := by
        simpa using sorted
      have above : ∀ y ∈ tree.inorder, rank f < rank y := fun y member =>
        apart.across (by simp) member
      obtain ⟨valid, next⟩ := successor_key rep.2.2.2.2.2.2 even above
      have past : direction (f.1 + 1) d = .gt := compare_gt_iff_gt.mpr (by omega)
      have pastSecond : direction (f.1 + 1) f = .gt := compare_gt_iff_gt.mpr (by omega)
      refine ⟨valid, fun y member => by have := above y member; omega, ?_⟩
      rw [Frame23.label, searchNodeOrParent_three good rep order, past, pastSecond]
      simp [rep.2.2.2.2.1.addr_ne_of_uniform good leftEven]

/-- The search for the key after the pivot ends at the leftmost leaf of the hole. -/
theorem searchNodeOrParent_successor (good : 0 ∉ s.live) (rep : Rep s (frame.fill tree) parent root)
    (pivot : frame.Pivot e) (uniform : (frame.fill tree).Uniform (height + 2)) (even : tree.Uniform (height + 1))
    (sorted : Increasing rank (frame.fill tree).inorder) (enough : height + 1 < fuel) :
    ∃ inner leaf result, tree = Path23.plug inner leaf ∧ inner.before = [] ∧ leaf.Uniform 1 ∧
      searchNodeOrParent fuel frame.label (e.1 + 1) s = some ((addr leaf, result), s) := by
  obtain ⟨fuel, rfl⟩ : ∃ more, fuel = more + 1 := ⟨fuel - 1, by omega⟩
  obtain ⟨valid, below, (steps : searchNodeOrParent (fuel + 1) _ _ _ = searchNodeOrParent fuel _ _ _)⟩ :=
    searchNodeOrParent_pivot good rep pivot uniform sorted
  have inside : Increasing rank tree.inorder := by
    rw [Frame23.inorder_fill] at sorted
    exact sorted.sublist ((List.sublist_append_left _ _).trans (List.sublist_append_right _ _))
  obtain ⟨inner, leaf, result, whole, leftmost, leafEven, runs⟩ :=
    searchNodeOrParent_leftmost good (rep_fill.mp rep).1 even inside valid (show height < fuel by omega) below
  exact ⟨inner, leaf, result, whole, leftmost, leafEven, steps.trans runs⟩

/-- The exchange at the end of `lbs_23tree_get_successor_and_swap`. -/
def swapSuccessor (successor node : Addr) (key : Word) : TreeProg Unit := do
  let n ← load node
  if n.rkey = key then swapPair successor .l node .r else swapPair successor .l node .l

/-- The pivot and the first entry of a leaf change places. -/
theorem swapSuccessor_apply (here : FrameRep s frame hole parent root) (pivot : frame.Pivot e)
    (different : ∀ y ∈ frame.after, y.1 ≠ e.1) (nLive : n ∈ s.live)
    (xKey : (s.cell n).lkey = x.1) (xValue : (s.cell n).lvalue = x.2) (xValid : x.1 ≠ INVALID_KEY_VALUE)
    (outside : n ∉ frame.labels) (nodup : frame.labels.Nodup) :
    ∃ s', swapSuccessor n frame.label e.1 s = some ((), s') ∧
      FrameRep s' (frame.repivot x) hole parent root ∧
      s'.cell n = { s.cell n with lkey := e.1, lvalue := e.2 } ∧ s'.glob = s.glob ∧
      Within [n, frame.label] s s' := by
  cases frame with
  | twoLeft | threeLeft => exact absurd pivot id
  | twoRight a d l =>
      obtain rfl := pivot
      obtain ⟨live, valid, cell, left⟩ := here
      simp only [Frame23.labels, List.mem_cons, not_or, List.nodup_cons] at outside nodup
      refine Exists.intro ?two (And.intro ?twoRuns ?twoResult)
      case twoRuns =>
        simp [swapSuccessor, Frame23.label, live, cell, nLive, valid.symm, outside]
        rfl
      case twoResult =>
        refine ⟨?_, by simp [outside], by simp, ?_⟩
        · simp [Frame23.repivot, FrameRep, live, cell, outside, nodup, xKey, xValue, xValid, left]
        · apply_rules [Within.modify, Within.refl]
          all_goals simp [Frame23.label]
  | threeMiddle a d f l r =>
      obtain rfl := pivot
      obtain ⟨live, valid, fValid, cell, left, right⟩ := here
      have notKey : f.1 ≠ d.1 := different f (by simp [Frame23.after])
      simp only [Frame23.labels, List.mem_cons, List.mem_append, not_or, List.nodup_cons] at outside nodup
      refine Exists.intro ?middle (And.intro ?middleRuns ?middleResult)
      case middleRuns =>
        simp [swapSuccessor, Frame23.label, live, cell, nLive, notKey, outside]
        rfl
      case middleResult =>
        refine ⟨?_, by simp [outside], by simp, ?_⟩
        · simp [Frame23.repivot, FrameRep, live, cell, outside, nodup, xKey, xValue, xValid, fValid,
            left, right]
        · apply_rules [Within.modify, Within.refl]
          all_goals simp [Frame23.label]
  | threeRight a d f l m =>
      obtain rfl := pivot
      obtain ⟨live, dValid, valid, cell, left, middle⟩ := here
      simp only [Frame23.labels, List.mem_cons, List.mem_append, not_or, List.nodup_cons] at outside nodup
      refine Exists.intro ?right (And.intro ?rightRuns ?rightResult)
      case rightRuns =>
        simp [swapSuccessor, Frame23.label, live, cell, nLive, outside]
        rfl
      case rightResult =>
        refine ⟨?_, by simp [outside], by simp, ?_⟩
        · simp [Frame23.repivot, FrameRep, live, cell, outside, nodup, xKey, xValue, xValid, dValid,
            left, middle]
        · apply_rules [Within.modify, Within.refl]
          all_goals simp [Frame23.label]

/-- The leaf with the successor of the pivot, and the frame of the pivot, after
the exchange. -/
theorem swapSuccessor_path {inner path : LbsPath} {slot : Addr}
    (above : PathRep s slot (inner ++ frame :: path) n) (pivot : frame.Pivot e)
    (different : ∀ y ∈ frame.after, y.1 ≠ e.1) (nLive : n ∈ s.live)
    (xKey : (s.cell n).lkey = x.1) (xValue : (s.cell n).lvalue = x.2) (xValid : x.1 ≠ INVALID_KEY_VALUE)
    (nodup : (n :: Path23.labels (inner ++ frame :: path)).Nodup) :
    ∃ s', swapSuccessor n frame.label e.1 s = some ((), s') ∧
      PathRep s' slot (inner ++ frame.repivot x :: path) n ∧
      s'.cell n = { s.cell n with lkey := e.1, lvalue := e.2 } ∧ s'.glob = s.glob ∧
      s'.live = s.live := by
  obtain ⟨here, outer⟩ := above.middle
  simp only [Path23.labels_append, Path23.labels_cons, List.nodup_cons, List.nodup_append',
    List.mem_append, not_or, List.disjoint_append_right] at nodup
  obtain ⟨⟨notInner, notFrame, notPath⟩, _, ⟨frameNodup, _, framePath⟩, innerFrame, _⟩ := nodup
  obtain ⟨s', runs, here', cell, glob, within⟩ :=
    swapSuccessor_apply here pivot different nLive xKey xValue xValid notFrame frameNodup
  refine ⟨s', runs, ?_, cell, glob, within.live⟩
  have label := frame.label_mem_labels
  refine above.replace (by simp) here' ?_ (within.agreeOn ?_)
  · refine (PathRep.readsLabels slot path frame.label).within within ?_ |>.mpr outer
    intro a inPath changed
    simp only [List.mem_cons, List.not_mem_nil, or_false] at changed
    rcases changed with rfl | rfl
    · exact notPath inPath
    · exact framePath label inPath
  · intro a inInner changed
    simp only [List.mem_cons, List.not_mem_nil, or_false] at changed
    rcases changed with rfl | rfl
    · exact notInner inInner
    · exact innerFrame inInner label

/-- What a leaf is before and after another entry takes the place of its first. -/
theorem Rep.swapLeaf {leaf : LbsTree} (rep : Rep s leaf parent root) (even : leaf.Uniform 1) :
    ∃ x rest, leaf.inorder = x :: rest ∧ leaf.labels = [addr leaf] ∧ addr leaf ∈ s.live ∧
      (s.cell (addr leaf)).lkey = x.1 ∧ (s.cell (addr leaf)).lvalue = x.2 ∧
      x.1 ≠ INVALID_KEY_VALUE ∧
      ∀ (e : Entry) (s' : TreeMachine), e.1 ≠ INVALID_KEY_VALUE → s'.live = s.live →
        s'.cell (addr leaf) = { s.cell (addr leaf) with lkey := e.1, lvalue := e.2 } →
        ∃ leaf', Rep s' leaf' parent root ∧ addr leaf' = addr leaf ∧ leaf'.labels = [addr leaf] ∧
          leaf'.Uniform 1 ∧
          (leaf' = two (addr leaf) e nil nil ∧ rest = [] ∨
            ∃ y, leaf' = three (addr leaf) e y nil nil nil ∧ rest = [y]) := by
  cases even with
  | @two a x l r _ leftEven rightEven =>
      obtain rfl := leftEven.eq_nil
      obtain rfl := rightEven.eq_nil
      obtain ⟨live, valid, cell, _⟩ := rep
      refine ⟨x, [], rfl, rfl, live, by simp [cell], by simp [cell], valid, ?_⟩
      intro e s' eValid sameLive changed
      refine ⟨two a e nil nil, ?_, rfl, rfl, .two .nil .nil, .inl ⟨rfl, rfl⟩⟩
      simp only [addr_two] at changed
      simp [Rep, sameLive, live, eValid, changed, cell]
  | @three a x y l m r _ leftEven middleEven rightEven =>
      obtain rfl := leftEven.eq_nil
      obtain rfl := middleEven.eq_nil
      obtain rfl := rightEven.eq_nil
      obtain ⟨live, valid, yValid, cell, _⟩ := rep
      refine ⟨x, [y], rfl, rfl, live, by simp [cell], by simp [cell], valid, ?_⟩
      intro e s' eValid sameLive changed
      refine ⟨three a e y nil nil nil, ?_, rfl, rfl, .three .nil .nil .nil, .inr ⟨y, rfl, rfl⟩⟩
      simp only [addr_three] at changed
      simp [Rep, sameLive, live, eValid, yValid, changed, cell]

private theorem Rep.lchild_ne (good : 0 ∉ s.live) (rep : Rep s tree parent root)
    (uniform : tree.Uniform (height + 2)) : (s.cell (addr tree)).lchild ≠ 0 := by
  cases uniform with
  | two leftEven _ =>
      obtain ⟨_, _, cell, left, _⟩ := rep
      simpa [cell] using left.addr_ne_of_uniform good leftEven
  | three leftEven _ _ =>
      obtain ⟨_, _, _, cell, left, _⟩ := rep
      simpa [cell] using left.addr_ne_of_uniform good leftEven

private theorem getSuccessorAndSwap_apply {successor node : Addr} {key : Word} {result : SearchResult}
    {s' : TreeMachine} (good : 0 ∉ s.live) (live : node ∈ s.live) (valid : key ≠ INVALID_KEY_VALUE)
    (inner : (s.cell node).lchild ≠ 0) (successorSome : successor ≠ 0)
    (searches : searchNodeOrParent fuel node (key + 1#32) s = some ((successor, result), s))
    (swaps : swapSuccessor successor node key s = some ((), s')) :
    getSuccessorAndSwap fuel node key s = some (successor, s') := by
  have nodeSome : node ≠ 0 := fun null => good (null ▸ live)
  simp only [swapSuccessor, bind_apply, load_apply live, andThen_some] at swaps
  by_cases second : (s.cell node).rkey = key
  · simp only [second, if_pos] at swaps
    simp [getSuccessorAndSwap, nodeSome, valid, live, inner, searches, successorSome, second, swaps]
  · simp only [second, if_neg, not_false_eq_true] at swaps
    simp [getSuccessorAndSwap, nodeSome, valid, live, inner, searches, successorSome, second, swaps]

/-- The key goes to the leaf with its successor, which takes its place. -/
theorem getSuccessorAndSwap_inner {path : LbsPath} {levels : Nat}
    (holds : Holds s (path.plug (frame.fill tree)) levels) (pivot : frame.Pivot e)
    (uniform : (frame.fill tree).Uniform (height + 2)) (even : tree.Uniform (height + 1))
    (enough : height + 1 < fuel) :
    ∃ s' whole leaf first last, getSuccessorAndSwap fuel frame.label e.1 s = some (addr leaf, s') ∧
      (path.plug (frame.fill tree)).inorder = first ++ e :: last ∧
      Ready s' whole leaf e.1 (first ++ last) levels ∧ s'.live = s.live ∧
      (whole.plug leaf).labels.Perm (path.plug (frame.fill tree)).labels := by
  obtain ⟨rep, root, good, nodup, total, level, sorted, count⟩ := holds
  obtain ⟨filled, outer⟩ := rep_plug.mp rep
  obtain ⟨treeRep, frameRep⟩ := rep_fill.mp filled
  obtain ⟨front, before, repivoted⟩ := pivot.before
  have entries := Path23.inorder_plug path (frame.fill tree)
  have filledSorted : Increasing rank (frame.fill tree).inorder := by
    rw [entries] at sorted
    exact sorted.sublist ((List.sublist_append_left _ _).trans (List.sublist_append_right _ _))
  obtain ⟨inner, leaf, result, rfl, leftmost, leafEven, runs⟩ :=
    searchNodeOrParent_successor good filled pivot uniform even filledSorted enough
  simp only [Frame23.inorder_fill, before] at entries filledSorted
  rw [entries] at sorted count ⊢
  have whole : Path23.plug (inner ++ frame :: path) leaf = path.plug (frame.fill (inner.plug leaf)) :=
    Path23.plug_append inner (frame :: path) leaf
  rw [← whole] at rep root nodup total
  obtain ⟨leafRep, above⟩ := rep_plug.mp rep
  obtain ⟨x, rest, leafEntries, leafLabels, leafLive, xKey, xValue, xValid, relabel⟩ :=
    leafRep.swapLeaf leafEven
  rw [rootOf_middle] at relabel leafRep
  have distinct := (Path23.labels_plug _ _).nodup_iff.mp nodup
  have frameDifferent : ∀ y ∈ frame.after, y.1 ≠ e.1 := by
    intro y member same
    have apart : rank e < rank y := filledSorted.across (by simp) (by simp [member])
    simp [rank, same] at apart
  have eValid : e.1 ≠ INVALID_KEY_VALUE :=
    filled.valid e (by simp [Frame23.inorder_fill, before])
  rw [leafLabels] at distinct
  obtain ⟨s', swaps, above', cell, glob, live⟩ :=
    swapSuccessor_path above pivot frameDifferent leafLive xKey xValue xValid distinct
  obtain ⟨leaf', leafRep', addr', labels', even', place⟩ := relabel e s' eValid live cell
  have frameLive : frame.label ∈ s.live := by
    refine rep.live _ ((Path23.labels_plug _ _).mem_iff.mpr ?_)
    simp [Path23.labels_append, frame.label_mem_labels]
  have leafSome : addr leaf ≠ 0 := fun null => good (null ▸ leafLive)
  refine ⟨s', inner ++ frame.repivot x :: path, leaf', path.before ++ front,
    x :: (rest ++ (inner.after ++ (frame.after ++ path.after))), ?_, ?_, ?_, live, ?_⟩
  · rw [addr']
    have notLeaf := filled.lchild_ne good uniform
    rw [addr_fill] at notLeaf
    exact getSuccessorAndSwap_apply good frameLive eValid notLeaf leafSome runs swaps
  · simp [Path23.inorder_plug, leftmost, leafEntries]
  · have label : (frame.repivot x).label = frame.label := by simp
    obtain ⟨_, leafEven', around⟩ := Path23.Uniform.of_plug total
    obtain rfl := leafEven.unique leafEven'
    have around' := around.replace fun h => frame.repivot_uniform x h
    simp only [Path23.inorder_plug, leftmost, leafEntries, List.nil_append] at sorted count
    refine ⟨rep_plug.mpr ⟨?_, ?_⟩, ?_, by rwa [live], ?_, around'.plug even', by rwa [glob], ?_, ?_, ?_⟩
    · rwa [glob, parentOf_middle _ _ _ label, rootOf_middle]
    · rwa [glob, addr']
    · rw [glob, root, addr_plug, addr_plug, addr', topOf_middle _ _ _ label]
    · refine (Path23.labels_plug _ _).nodup_iff.mpr ?_
      rw [labels']
      simpa [Path23.labels_append] using distinct
    · exact sorted.sublist (by simp)
    · rw [glob, count]
      simp
      omega
    · have before' : Path23.before (inner ++ frame.repivot x :: path) = path.before ++ (front ++ [x]) := by
        simp [Path23.before_append, Path23.before, leftmost, repivoted]
      have after' : Path23.after (inner ++ frame.repivot x :: path) =
          inner.after ++ (frame.after ++ path.after) := by
        simp [Path23.after_append, Path23.after]
      rw [before', after']
      rcases place with ⟨rfl, rfl⟩ | ⟨y, rfl, rfl⟩
      · exact .inl ⟨_, e, rfl, rfl, by simp⟩
      · exact .inr (.inl ⟨_, e, y, rfl, rfl, by simp⟩)
  · rw [← whole]
    refine (Path23.labels_plug _ _).trans (List.Perm.trans ?_ (Path23.labels_plug _ _).symm)
    rw [labels', leafLabels]
    simp [Path23.labels_append]

end Successor

section Delete

variable {s : TreeMachine} {path : LbsPath} {tree : LbsTree} {levels fuel : Nat} {key : Word}

private theorem getSuccessorAndSwap_leaf {leaf : LbsTree} (good : 0 ∉ s.live) (live : addr leaf ∈ s.live)
    (valid : key ≠ INVALID_KEY_VALUE) (bottom : (s.cell (addr leaf)).lchild = 0) :
    getSuccessorAndSwap fuel (addr leaf) key s = some (addr leaf, s) := by
  have notNull : addr leaf ≠ 0 := fun null => good (null ▸ live)
  simp [getSuccessorAndSwap, notNull, valid, live, bottom]

/-- In a leaf, the key is ready for removal where it is. -/
theorem Holds.ready {front back : List Entry} {e : Entry} (holds : Holds s (path.plug tree) levels)
    (entries : tree.inorder = front ++ e :: back)
    (place : (∃ n, tree = two n e nil nil ∧ e.1 = key ∧ front = [] ∧ back = []) ∨
      (∃ n f, tree = three n e f nil nil nil ∧ e.1 = key ∧ front = [] ∧ back = [f]) ∨
      ∃ n d, tree = three n d e nil nil nil ∧ d.1 ≠ key ∧ e.1 = key ∧ front = [d] ∧ back = []) :
    (path.plug tree).inorder = (path.before ++ front) ++ e :: (back ++ path.after) ∧
      Ready s path tree key ((path.before ++ front) ++ (back ++ path.after)) levels := by
  have whole := Path23.inorder_plug path tree
  rw [entries] at whole
  have sorted := holds.sorted
  have count := holds.count
  rw [whole] at sorted count
  refine ⟨by simp [whole], holds.rep, holds.root, holds.good, holds.nodup, holds.uniform, holds.level,
    sorted.sublist (by simp), ?_, ?_⟩
  · simp [count]
    omega
  · rcases place with ⟨n, rfl, same, rfl, rfl⟩ | ⟨n, f, rfl, same, rfl, rfl⟩ |
      ⟨n, d, rfl, different, same, rfl, rfl⟩
    · exact .inl ⟨n, e, rfl, same, by simp⟩
    · exact .inr (.inl ⟨n, e, f, rfl, same, by simp⟩)
    · exact .inr (.inr ⟨n, d, e, rfl, different, same, by simp⟩)

/-- The node that the search found makes its key ready for removal. -/
theorem getSuccessorAndSwap_ready (holds : Holds s (path.plug tree) levels)
    (here : tree.Matches (direction key)) (nonempty : tree ≠ nil) (valid : key ≠ INVALID_KEY_VALUE)
    (enough : levels ≤ fuel) :
    ∃ s' whole leaf first e last, getSuccessorAndSwap fuel (addr tree) key s = some (addr leaf, s') ∧
      (path.plug tree).inorder = first ++ e :: last ∧ e.1 = key ∧
      Ready s' whole leaf key (first ++ last) levels ∧ s'.live = s.live ∧
      (whole.plug leaf).labels.Perm (path.plug tree).labels := by
  obtain ⟨treeRep, above⟩ := rep_plug.mp holds.rep
  obtain ⟨height, even, around⟩ := Path23.Uniform.of_plug holds.uniform
  have depth := around.length_add
  have good := holds.good
  have live := treeRep.addr_live (treeRep.addr_ne good nonempty)
  cases tree with
  | nil => exact absurd rfl nonempty
  | two a e l r =>
      obtain rfl := direction_eq.mp here
      cases even with
      | @two _ _ _ _ height leftEven rightEven =>
        cases height with
        | zero =>
            obtain rfl := leftEven.eq_nil
            obtain rfl := rightEven.eq_nil
            obtain ⟨entries, ready⟩ := holds.ready rfl (.inl ⟨a, rfl, rfl, rfl, rfl⟩)
            refine ⟨s, path, two a e nil nil, _, e, _, ?_, entries, rfl, ready, rfl, List.Perm.refl _⟩
            exact getSuccessorAndSwap_leaf good live valid (by simp [treeRep.2.2.1])
        | succ height =>
            obtain ⟨s', whole, leaf, first, last, runs, entries, ready⟩ :=
              @getSuccessorAndSwap_inner s (.twoRight a e l) r e height fuel path levels holds rfl
                (.two leftEven rightEven) rightEven (by omega)
            exact ⟨s', whole, leaf, first, e, last, runs, entries, rfl, ready⟩
  | three a e f l m r =>
      cases even with
      | @three _ _ _ _ _ _ height leftEven middleEven rightEven =>
        cases height with
        | zero =>
            obtain rfl := leftEven.eq_nil
            obtain rfl := middleEven.eq_nil
            obtain rfl := rightEven.eq_nil
            have stays : getSuccessorAndSwap fuel a key s = some (a, s) :=
              getSuccessorAndSwap_leaf good live valid (by simp [treeRep.2.2.2.1])
            by_cases first : e.1 = key
            · obtain ⟨entries, ready⟩ :=
                holds.ready rfl (.inr (.inl ⟨a, f, rfl, first, rfl, rfl⟩))
              exact ⟨s, path, three a e f nil nil nil, _, e, _, stays, entries, first, ready, rfl, List.Perm.refl _⟩
            · have second : f.1 = key :=
                direction_eq.mp (here.resolve_left fun same => first (direction_eq.mp same))
              have order : (three a e f nil nil nil : LbsTree).inorder = [e] ++ f :: [] := rfl
              obtain ⟨entries, ready⟩ :=
                holds.ready order (.inr (.inr ⟨a, e, rfl, first, second, rfl, rfl⟩))
              exact ⟨s, path, three a e f nil nil nil, _, f, _, stays, entries, second, ready, rfl, List.Perm.refl _⟩
        | succ height =>
            rcases here with first | second
            · obtain rfl := direction_eq.mp first
              obtain ⟨s', whole, leaf, first, last, runs, entries, ready⟩ :=
                @getSuccessorAndSwap_inner s (.threeMiddle a e f l r) m e height fuel path levels holds
                  rfl (.three leftEven middleEven rightEven) middleEven (by omega)
              exact ⟨s', whole, leaf, first, e, last, runs, entries, rfl, ready⟩
            · obtain rfl := direction_eq.mp second
              obtain ⟨s', whole, leaf, first, last, runs, entries, ready⟩ :=
                @getSuccessorAndSwap_inner s (.threeRight a e f l m) r f height fuel path levels holds
                  rfl (.three leftEven middleEven rightEven) rightEven (by omega)
              exact ⟨s', whole, leaf, first, f, last, runs, entries, rfl, ready⟩

theorem delete_found (holds : Holds s (path.plug tree) levels)
    (ends : descend (direction key) [] (path.plug tree) = (path, tree))
    (here : tree.Matches (direction key)) (nonempty : tree ≠ nil) (valid : key ≠ INVALID_KEY_VALUE)
    (enough : levels ≤ fuel) :
    ∃ s' tree' levels' first e last, TwoThree.delete fuel key s = some (.ok, s') ∧
      Holds s' tree' levels' ∧ (path.plug tree).inorder = first ++ e :: last ∧ e.1 = key ∧
      tree'.inorder = first ++ last ∧ s'.beside tree'.labels = s.beside (path.plug tree).labels := by
  obtain ⟨s₁, whole, leaf, first, e, last, swaps, entries, same, ready, live, moved⟩ :=
    getSuccessorAndSwap_ready holds here nonempty valid enough
  obtain ⟨s₂, tree', levels', removes, holds', rest, kept⟩ := removeKey_ready ready enough
  refine ⟨_, tree', levels', first, e, last, ?_, holds', entries, same, rest, ?_⟩
  case refine_2 =>
    rw [Machine.beside_withGlob, kept]
    exact Machine.beside_perm live moved
  obtain ⟨treeRep, _⟩ := rep_plug.mp holds.rep
  have treeSome := treeRep.addr_ne holds.good nonempty
  have leafSome : addr leaf ≠ 0 := by
    obtain ⟨leafRep, _⟩ := rep_plug.mp ready.rep
    refine leafRep.addr_ne ready.good ?_
    rcases ready.place with ⟨_, _, rfl, _⟩ | ⟨_, _, _, rfl, _⟩ | ⟨_, _, _, rfl, _⟩ <;> simp
  have wholeSome : path.plug tree ≠ nil := by
    intro empty
    simp [empty] at entries
  have searches := holds.search wholeSome valid enough
  obtain ⟨result, found, isFound⟩ := outcome_found key path nonempty
  rw [ends, found] at searches
  have notParent : result ≠ .parent := by
    rintro rfl
    cases isFound
  have notError : result ≠ .error := by
    rintro rfl
    cases isFound
  simp [TwoThree.delete, valid, searches, treeSome, notParent, notError, swaps, leafSome, removes]

theorem delete_absent (holds : Holds s (path.plug nil) levels)
    (ends : descend (direction key) [] (path.plug nil) = (path, nil))
    (valid : key ≠ INVALID_KEY_VALUE) (enough : levels < fuel) :
    ∃ status, TwoThree.delete fuel key s = some (status, s) ∧ status ≠ .ok ∧ status ≠ .alreadyExist := by
  cases path with
  | nil =>
      obtain ⟨fuel, rfl⟩ : ∃ more, fuel = more + 1 := ⟨fuel - 1, by omega⟩
      have empty : s.glob.root = 0 := holds.root
      exact ⟨.internalErr, by simp [TwoThree.delete, valid, empty, searchNodeOrParent], by simp, by simp⟩
  | cons frame path =>
      have searches := holds.search (Path23.plug_cons_ne_nil frame path nil) valid enough.le
      have frameSome : frame.label ≠ 0 := fun null =>
        holds.good (null ▸ holds.rep.live _ (Path23.label_mem_plug frame path nil))
      rw [ends] at searches
      exact ⟨.notFound, by simp [TwoThree.delete, valid, searches, outcome, frameSome], by simp, by simp⟩

end Delete

end GbfLibrary.TwoThree
