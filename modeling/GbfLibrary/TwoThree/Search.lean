import GbfLibrary.Trees.Reshape
import GbfLibrary.TwoThree.Represent

/-!
# Searches

`lbs_23tree_search_node_or_parent` walks as the abstract descent does. Looking
for the successor of a key, it walks down the left edge of a subtree.
-/

set_option autoImplicit false

namespace GbfLibrary.TwoThree

open Memory Prog Trees Tree23 Maps

/-- The order of the keys, which are unsigned. -/
def rank (e : Entry) : Nat := e.1.toNat

theorem key_lt {e f : Entry} (smaller : rank e < rank f) :
    e.1 < f.1 ∧ ¬ f.1 < e.1 ∧ e.1 ≠ f.1 := by
  simp only [rank] at smaller
  refine ⟨BitVec.lt_def.mpr smaller, fun larger => ?_, fun same => ?_⟩
  · exact Nat.lt_asymm smaller (BitVec.lt_def.mp larger)
  · exact Nat.lt_irrefl _ (same ▸ smaller)

/-- The comparison that the search makes. -/
def direction (key : Word) (e : Entry) : Ordering := compare key.toNat (rank e)

theorem direction_eq {key : Word} {e : Entry} : direction key e = .eq ↔ e.1 = key := by
  rw [direction, compare_eq_iff_eq, rank, eq_comm]
  exact BitVec.toNat_inj

theorem direction_lt {key : Word} {e : Entry} (before : direction key e = .lt) :
    key < e.1 ∧ ¬ e.1 < key ∧ e.1 ≠ key := by
  obtain ⟨smaller, notLarger, different⟩ := @key_lt (key, 0) e (compare_lt_iff_lt.mp before)
  exact ⟨smaller, notLarger, different.symm⟩

theorem direction_gt {key : Word} {e : Entry} (after : direction key e = .gt) :
    e.1 < key ∧ ¬ key < e.1 ∧ e.1 ≠ key :=
  @key_lt e (key, 0) (compare_gt_iff_gt.mp after)

/-- What the search returns where the descent ends. -/
def outcome (key : Word) : LbsPath × LbsTree → Addr × SearchResult
  | (path, .nil) => (parentOf 0 path, .parent)
  | (_, .two a _ _ _) => (a, .lvalue)
  | (_, .three a e _ _ _ _) => (a, if e.1 = key then .lvalue else .rvalue)

theorem key_ne_of_surrounds {key : Word} {path : LbsPath} {e : Entry}
    (surrounds : path.Surrounds (direction key)) (member : e ∈ path.before ++ path.after) :
    e.1 ≠ key := by
  rcases List.mem_append.mp member with before | after
  · exact (direction_gt (surrounds.before e before)).2.2
  · exact (direction_lt (surrounds.after e after)).2.2

theorem exists_of_matches {key : Word} {tree : LbsTree} (here : tree.Matches (direction key))
    (nonempty : tree ≠ nil) : ∃ value, (key, value) ∈ tree.inorder := by
  cases tree with
  | nil => exact absurd rfl nonempty
  | two a e l r =>
      obtain rfl := direction_eq.mp here
      exact ⟨e.2, by simp⟩
  | three a e f l m r =>
      rcases here with first | second
      · obtain rfl := direction_eq.mp first
        exact ⟨e.2, by simp⟩
      · obtain rfl := direction_eq.mp second
        exact ⟨f.2, by simp⟩

theorem outcome_found {tree : LbsTree} (key : Word) (path : LbsPath) (nonempty : tree ≠ nil) :
    ∃ result, outcome key (path, tree) = (addr tree, result) ∧ result.found = true := by
  cases tree with
  | nil => exact absurd rfl nonempty
  | two a e l r => exact ⟨.lvalue, rfl, rfl⟩
  | three a e f l m r =>
      refine ⟨if e.1 = key then .lvalue else .rvalue, rfl, ?_⟩
      split <;> rfl

theorem three_sorted {a : Addr} {e f : Entry} {l m r : LbsTree}
    (sorted : Increasing rank (three a e f l m r).inorder) :
    rank e < rank f ∧ Increasing rank l.inorder ∧ Increasing rank m.inorder ∧
      Increasing rank r.inorder := by
  have apart : Increasing rank ((l.inorder ++ e :: m.inorder) ++ f :: r.inorder) := by
    simpa using sorted
  have front : Increasing rank (l.inorder ++ e :: m.inorder) := apart.sublist (by simp)
  refine ⟨apart.across (by simp) (by simp), sorted.sublist (by simp), ?_, ?_⟩
  · exact front.sublist ((List.sublist_cons_self _ _).trans (List.sublist_append_right _ _))
  · exact apart.sublist ((List.sublist_cons_self _ _).trans (List.sublist_append_right _ _))

section Search

variable {s : TreeMachine} {tree : LbsTree} {path : LbsPath} {parent : Addr} {root : Int}
  {key : Word} {height fuel : Nat}

@[simp] theorem cmpKeyValue_mk (root : Int) (p l m m2 r : Addr) (lk lv rk rv : Word) :
    (Node.mk root p l m m2 r lk lv rk rv).cmpKeyValue key =
      if lk = key then .lvalue else if rk = key then .rvalue else .parent := rfl

theorem searchNodeOrParent_two {a : Addr} {e : Entry} {l r : LbsTree} (good : 0 ∉ s.live)
    (rep : Rep s (two a e l r) parent root) (valid : key ≠ INVALID_KEY_VALUE) :
    searchNodeOrParent (fuel + 1) a key s =
      match direction key e with
      | .eq => some ((a, .lvalue), s)
      | .lt => if addr l = 0 then some ((a, .parent), s) else searchNodeOrParent fuel (addr l) key s
      | .gt =>
          if addr l = 0 then some ((a, .parent), s) else searchNodeOrParent fuel (addr r) key s := by
  obtain ⟨live, eValid, cell, _⟩ := rep
  have notNull : a ≠ 0 := fun null => good (null ▸ live)
  cases relation : direction key e with
  | eq =>
      have same := direction_eq.mp relation
      simp [searchNodeOrParent, live, cell, notNull, same, valid, SearchResult.found]
  | lt =>
      obtain ⟨smaller, _, different⟩ := direction_lt relation
      simp [searchNodeOrParent, live, cell, notNull, eValid, different, valid.symm, smaller,
        SearchResult.found, Node.posibleSubtree]
  | gt =>
      obtain ⟨_, notSmaller, different⟩ := direction_gt relation
      simp [searchNodeOrParent, live, cell, notNull, eValid, different, valid.symm, notSmaller,
        SearchResult.found, Node.posibleSubtree]

theorem searchNodeOrParent_three {a : Addr} {e f : Entry} {l m r : LbsTree} (good : 0 ∉ s.live)
    (rep : Rep s (three a e f l m r) parent root) (sorted : rank e < rank f) :
    searchNodeOrParent (fuel + 1) a key s =
      match direction key e with
      | .eq => some ((a, .lvalue), s)
      | .lt => if addr l = 0 then some ((a, .parent), s) else searchNodeOrParent fuel (addr l) key s
      | .gt =>
          match direction key f with
          | .eq => some ((a, .rvalue), s)
          | .lt =>
              if addr l = 0 then some ((a, .parent), s) else searchNodeOrParent fuel (addr m) key s
          | .gt =>
              if addr l = 0 then some ((a, .parent), s)
              else searchNodeOrParent fuel (addr r) key s := by
  obtain ⟨live, eValid, fValid, cell, _⟩ := rep
  have notNull : a ≠ 0 := fun null => good (null ▸ live)
  cases relation : direction key e with
  | eq =>
      have same := direction_eq.mp relation
      simp [searchNodeOrParent, live, cell, notNull, same, same ▸ eValid, SearchResult.found]
  | lt =>
      obtain ⟨smaller, _, different⟩ := direction_lt relation
      have beyond : f.1 ≠ key := by
        rintro rfl
        exact (key_lt sorted).2.1 smaller
      simp [searchNodeOrParent, live, cell, notNull, eValid, different, beyond, smaller,
        SearchResult.found, Node.posibleSubtree]
  | gt =>
      obtain ⟨_, notSmaller, different⟩ := direction_gt relation
      cases second : direction key f with
      | eq =>
          have same := direction_eq.mp second
          simp [searchNodeOrParent, live, cell, notNull, eValid, different, same,
            SearchResult.found]
      | lt =>
          obtain ⟨_, notLarger, differs⟩ := direction_lt second
          simp [searchNodeOrParent, live, cell, notNull, eValid, fValid, different, differs,
            notSmaller, notLarger, SearchResult.found, Node.posibleSubtree]
      | gt =>
          obtain ⟨larger, _, differs⟩ := direction_gt second
          simp [searchNodeOrParent, live, cell, notNull, eValid, fValid, different, differs,
            notSmaller, larger, SearchResult.found, Node.posibleSubtree]

/-- One call of the search, given what it finds below. -/
theorem searchNodeOrParent_step (good : 0 ∉ s.live) (rep : Rep s tree parent root)
    (uniform : tree.Uniform (height + 1)) (sorted : Increasing rank tree.inorder)
    (valid : key ≠ INVALID_KEY_VALUE)
    (next : ∀ (frame : LbsFrame) (l c : LbsTree), frame.label = addr tree → l.Uniform height →
      c.Uniform height → Rep s l (addr tree) 0 → Rep s c (addr tree) 0 →
      Increasing rank c.inorder →
      (if addr l = 0 then some ((addr tree, .parent), s) else searchNodeOrParent fuel (addr c) key s) =
        some (outcome key (descend (direction key) (frame :: path) c), s)) :
    searchNodeOrParent (fuel + 1) (addr tree) key s =
      some (outcome key (descend (direction key) path tree), s) := by
  cases tree with
  | nil => cases uniform
  | two a e l r =>
      obtain ⟨leftEven, rightEven⟩ := uniform.two_children
      rw [addr_two, searchNodeOrParent_two good rep valid, descend]
      obtain ⟨_, _, _, left, right⟩ := rep
      cases relation : direction key e with
      | eq => rfl
      | lt => exact next _ l l rfl leftEven leftEven left left (sorted.sublist (by simp))
      | gt => exact next _ l r rfl leftEven rightEven left right (sorted.sublist (by simp))
  | three a e f l m r =>
      obtain ⟨leftEven, middleEven, rightEven⟩ := uniform.three_children
      obtain ⟨order, leftSorted, middleSorted, rightSorted⟩ := three_sorted sorted
      rw [addr_three, searchNodeOrParent_three good rep order, descend]
      obtain ⟨_, _, _, _, left, middle, right⟩ := rep
      cases relation : direction key e with
      | eq => simp [outcome, direction_eq.mp relation]
      | lt => exact next _ l l rfl leftEven leftEven left left leftSorted
      | gt =>
          obtain ⟨_, _, different⟩ := direction_gt relation
          cases second : direction key f with
          | eq => simp [outcome, different]
          | lt => exact next _ l m rfl leftEven middleEven left middle middleSorted
          | gt => exact next _ l r rfl leftEven rightEven left right rightSorted

theorem searchNodeOrParent_apply (good : 0 ∉ s.live) (rep : Rep s tree parent root)
    (uniform : tree.Uniform (height + 1)) (sorted : Increasing rank tree.inorder)
    (valid : key ≠ INVALID_KEY_VALUE) (enough : height < fuel) :
    searchNodeOrParent fuel (addr tree) key s =
      some (outcome key (descend (direction key) path tree), s) := by
  induction height generalizing tree path parent root fuel with
  | zero =>
      obtain ⟨fuel, rfl⟩ : ∃ more, fuel = more + 1 := ⟨fuel - 1, by omega⟩
      refine searchNodeOrParent_step good rep uniform sorted valid ?_
      intro frame l c label leftEven even _ _ _
      obtain rfl := leftEven.eq_nil
      obtain rfl := even.eq_nil
      simp [descend, outcome, label]
  | succ height ih =>
      obtain ⟨fuel, rfl⟩ : ∃ more, fuel = more + 1 := ⟨fuel - 1, by omega⟩
      refine searchNodeOrParent_step good rep uniform sorted valid ?_
      intro frame l c label leftEven even left child childSorted
      rw [if_neg (left.addr_ne_of_uniform good leftEven)]
      exact ih child even childSorted (by omega)

private theorem direction_of_le {e : Entry} (below : key.toNat ≤ rank e) :
    direction key e = .eq ∨ direction key e = .lt := by
  cases relation : direction key e with
  | eq => exact .inl rfl
  | lt => exact .inr rfl
  | gt => exact absurd (compare_gt_iff_gt.mp relation) (Nat.not_lt.mpr below)

private theorem direction_of_lt {e : Entry} (below : key.toNat < rank e) : direction key e = .lt :=
  compare_lt_iff_lt.mpr below

theorem exists_mem_inorder (uniform : tree.Uniform (height + 1)) : ∃ e, e ∈ tree.inorder := by
  have long := uniform.le_length
  exact List.exists_mem_of_length_pos (by omega)

/-- Where the search for a key below all keys of a tree ends: at the leftmost
leaf. -/
theorem searchNodeOrParent_leftmost (good : 0 ∉ s.live) (rep : Rep s tree parent root)
    (uniform : tree.Uniform (height + 1)) (sorted : Increasing rank tree.inorder)
    (valid : key ≠ INVALID_KEY_VALUE) (enough : height < fuel)
    (below : ∀ e ∈ tree.inorder, key.toNat ≤ rank e) :
    ∃ inner leaf result, tree = Path23.plug inner leaf ∧ inner.before = [] ∧ leaf.Uniform 1 ∧
      searchNodeOrParent fuel (addr tree) key s = some ((addr leaf, result), s) := by
  induction height generalizing tree parent root fuel with
  | zero =>
      obtain ⟨fuel, rfl⟩ : ∃ more, fuel = more + 1 := ⟨fuel - 1, by omega⟩
      obtain ⟨result, runs⟩ : ∃ result,
          searchNodeOrParent (fuel + 1) (addr tree) key s = some ((addr tree, result), s) := by
        cases tree with
        | nil => cases uniform
        | two a e l r =>
            obtain rfl := uniform.two_children.1.eq_nil
            rw [addr_two, searchNodeOrParent_two good rep valid]
            rcases direction_of_le (below e (by simp)) with here | before
            · exact ⟨_, by rw [here]⟩
            · exact ⟨.parent, by simp [before]⟩
        | three a e f l m r =>
            obtain rfl := uniform.three_children.1.eq_nil
            obtain rfl := uniform.three_children.2.1.eq_nil
            rw [addr_three, searchNodeOrParent_three good rep (three_sorted sorted).1]
            rcases direction_of_le (below e (by simp)) with here | before
            · exact ⟨_, by rw [here]⟩
            · exact ⟨.parent, by simp [before]⟩
      exact ⟨[], tree, result, rfl, rfl, uniform, runs⟩
  | succ height ih =>
      obtain ⟨fuel, rfl⟩ : ∃ more, fuel = more + 1 := ⟨fuel - 1, by omega⟩
      cases tree with
      | nil => cases uniform
      | two a e l r =>
          obtain ⟨leftEven, _⟩ := uniform.two_children
          obtain ⟨x, inLeft⟩ := exists_mem_inorder leftEven
          have before : direction key e = .lt := direction_of_lt
            (Nat.lt_of_le_of_lt (below x (by simp [inLeft])) (sorted.across inLeft (by simp)))
          have left := rep.2.2.2.1
          obtain ⟨inner, leaf, result, rfl, first, leafEven, runs⟩ := ih left leftEven
            (sorted.sublist (by simp)) (show height < fuel by omega)
            fun y member => below y (by simp [member])
          refine ⟨inner ++ [.twoLeft a e r], leaf, result, ?_, ?_, leafEven, ?_⟩
          · simp [Path23.plug_append, Frame23.fill]
          · simp [Path23.before_append, first, Path23.before, Frame23.before]
          · rw [addr_two, searchNodeOrParent_two good rep valid, before]
            simpa [left.addr_ne_of_uniform good leftEven] using runs
      | three a e f l m r =>
          obtain ⟨leftEven, _⟩ := uniform.three_children
          obtain ⟨x, inLeft⟩ := exists_mem_inorder leftEven
          have before : direction key e = .lt := direction_of_lt
            (Nat.lt_of_le_of_lt (below x (by simp [inLeft])) (sorted.across inLeft (by simp)))
          obtain ⟨order, leftSorted, _⟩ := three_sorted sorted
          have left := rep.2.2.2.2.1
          obtain ⟨inner, leaf, result, rfl, first, leafEven, runs⟩ := ih left leftEven leftSorted
            (show height < fuel by omega) fun y member => below y (by simp [member])
          refine ⟨inner ++ [.threeLeft a e f m r], leaf, result, ?_, ?_, leafEven, ?_⟩
          · simp [Path23.plug_append, Frame23.fill]
          · simp [Path23.before_append, first, Path23.before, Frame23.before]
          · rw [addr_three, searchNodeOrParent_three good rep order, before]
            simpa [left.addr_ne_of_uniform good leftEven] using runs

end Search

end GbfLibrary.TwoThree
