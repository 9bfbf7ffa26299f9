import GbfLibrary.Rbtree.Represent
import GbfLibrary.Trees.Search

/-!
# Searches

`rbt_search`, the descent of `rbt_insert`, `rbt_first` and the integrity check
on represented trees.
-/

set_option autoImplicit false

namespace GbfLibrary.Rbtree

open Memory Prog Trees ColoredTree Maps

/-- The comparison that every descent makes. -/
def direction (key : Word) (e : Entry) : Ordering :=
  if e.1 = key then .eq else if key.toInt < e.1.toInt then .lt else .gt

theorem direction_eq {key : Word} {e : Entry} : direction key e = .eq ↔ e.1 = key := by
  unfold direction
  split
  · simp [*]
  · split <;> simp [*]

theorem direction_lt {key : Word} {e : Entry} :
    direction key e = .lt ↔ key.toInt < e.1.toInt := by
  unfold direction
  split
  · next same => simp [same]
  · split <;> simp [*]

theorem direction_gt {key : Word} {e : Entry} :
    direction key e = .gt ↔ e.1.toInt < key.toInt := by
  unfold direction
  split
  · next same => simp [same]
  · next different =>
      have apart : e.1.toInt ≠ key.toInt := fun same => different (BitVec.eq_of_toInt_eq same)
      split <;> simp <;> omega

theorem Sorted.searchable {entries : List Entry} (sorted : Sorted entries) (key : Word) :
    Searchable (direction key) entries := by
  refine (List.pairwise_map.mp sorted).imp fun {x y} smaller => ?_
  simp only [keyOf] at smaller
  rw [direction_gt, direction_lt]
  omega

section Descents

variable {s : RbMachine} {tree : RbTree} {path : RbPath} {self parent : Addr} {root : Bool}
  {key : Word} {fuel : Nat}

theorem addr_eq_zero (good : 0 ∉ s.live) (rep : Rep s tree parent root) :
    addr tree = 0 ↔ tree = .nil := by
  cases tree with
  | nil => simp
  | node => simpa using fun null : _ = 0 => good (null ▸ rep.1)

private theorem searchLoop_apply (good : 0 ∉ s.live) (rep : Rep s tree parent root)
    (nonempty : tree ≠ .nil) (enough : tree.height ≤ fuel) :
    searchLoop fuel (addr tree) key s =
      some (addr (seek (direction key) path tree).2, s) := by
  induction tree generalizing fuel path parent root with
  | nil => exact absurd rfl nonempty
  | node a red e l r leftIH rightIH =>
      obtain ⟨live, here, left, right⟩ := rep
      simp only [height] at enough
      obtain ⟨fuel, rfl⟩ : ∃ more, fuel = more + 1 := ⟨fuel - 1, by omega⟩
      cases relation : direction key e with
      | eq => simp [searchLoop, live, here, direction_eq.mp relation, seek, relation]
      | lt =>
          have smaller := direction_lt.mp relation
          have different : e.1 ≠ key := fun same => by simp [same] at smaller
          by_cases empty : l = .nil
          · simp [searchLoop, live, here, smaller, different, empty, seek, relation]
          · simp only [addr_node, searchLoop, bind_apply, load_apply, live, here, andThen_some, different,
              if_false, smaller, if_true, ne_eq, addr_eq_zero good left, empty, not_false_eq_true,
              seek, relation, Prog.ite_apply]
            exact leftIH left empty (by omega)
      | gt =>
          have larger := direction_gt.mp relation
          have different : e.1 ≠ key := fun same => by simp [same] at larger
          have notSmaller : ¬ key.toInt < e.1.toInt := by omega
          by_cases empty : r = .nil
          · simp [searchLoop, live, here, notSmaller, different, empty, seek, relation]
          · simp only [addr_node, searchLoop, bind_apply, load_apply, live, here, andThen_some, different,
              if_false, notSmaller, ne_eq, addr_eq_zero good right, empty, not_false_eq_true,
              if_true, seek, relation, Prog.ite_apply]
            exact rightIH right empty (by omega)

theorem rbtSearch_apply (good : 0 ∉ s.live) (rep : Rep s tree parent root)
    (top : s.glob.root = addr tree) (enough : tree.height ≤ fuel) :
    rbtSearch fuel key s = some (addr (seek (direction key) [] tree).2, s) := by
  by_cases empty : tree = .nil
  · simp [rbtSearch, top, empty, seek]
  · have notNull := mt (addr_eq_zero good rep).mp empty
    simpa [rbtSearch, top, notNull] using searchLoop_apply good rep empty enough

/-- Where the descent of `rbt_insert` stops, as the search says. -/
def stop : RbPath × RbTree → Location
  | (path, .nil) => .below (parentOf 0 path)
  | (_, .node a _ _ _ _) => .existing a

theorem locate_apply (good : 0 ∉ s.live) (rep : Rep s tree parent root)
    (nonempty : tree ≠ .nil) (enough : tree.height ≤ fuel) :
    locate fuel (addr tree) key s = some (stop (seek (direction key) path tree), s) := by
  induction tree generalizing fuel path parent root with
  | nil => exact absurd rfl nonempty
  | node a red e l r leftIH rightIH =>
      obtain ⟨live, here, left, right⟩ := rep
      simp only [height] at enough
      obtain ⟨fuel, rfl⟩ : ∃ more, fuel = more + 1 := ⟨fuel - 1, by omega⟩
      cases relation : direction key e with
      | eq => simp [locate, live, here, direction_eq.mp relation, seek, relation, stop]
      | lt =>
          have smaller := direction_lt.mp relation
          have different : e.1 ≠ key := fun same => by simp [same] at smaller
          by_cases empty : l = .nil
          · simp [locate, live, here, smaller, different, empty, seek, relation, stop]
          · simp only [addr_node, locate, bind_apply, load_apply, live, here, andThen_some, different,
              if_false, smaller, if_true, ne_eq, addr_eq_zero good left, empty, not_false_eq_true,
              seek, relation, Prog.ite_apply]
            exact leftIH left empty (by omega)
      | gt =>
          have larger := direction_gt.mp relation
          have different : e.1 ≠ key := fun same => by simp [same] at larger
          have notSmaller : ¬ key.toInt < e.1.toInt := by omega
          by_cases empty : r = .nil
          · simp [locate, live, here, notSmaller, different, empty, seek, relation, stop]
          · simp only [addr_node, locate, bind_apply, load_apply, live, here, andThen_some, different,
              if_false, notSmaller, ne_eq, addr_eq_zero good right, empty, not_false_eq_true,
              if_true, seek, relation, Prog.ite_apply]
            exact rightIH right empty (by omega)

/-- `rbt_first` ends at the node with the first entry. -/
theorem firstLoop_apply (good : 0 ∉ s.live) (rep : Rep s tree parent root)
    (nonempty : tree ≠ .nil) (enough : tree.height ≤ fuel) :
    ∃ inner a red e r, tree = Path.plug inner (node a red e .nil r) ∧ inner.before = [] ∧
      firstLoop fuel (addr tree) s = some (a, s) := by
  induction tree generalizing fuel parent root with
  | nil => exact absurd rfl nonempty
  | node a red e l r leftIH rightIH =>
      obtain ⟨live, here, left, right⟩ := rep
      simp only [height] at enough
      obtain ⟨fuel, rfl⟩ : ∃ more, fuel = more + 1 := ⟨fuel - 1, by omega⟩
      by_cases empty : l = .nil
      · exact ⟨[], a, red, e, r, by simp [empty], rfl, by simp [firstLoop, live, here, empty]⟩
      · obtain ⟨inner, b, bRed, be, br, rfl, before, runs⟩ :=
          leftIH left empty (show l.height ≤ fuel by omega)
        refine ⟨inner ++ [⟨.left, a, red, e, r⟩], b, bRed, be, br, ?_, ?_, ?_⟩
        · simp [Path.plug_append]
        · simp [Path.before_append, before, Path.before]
        · have notNull := mt (addr_eq_zero good left).mp empty
          simp only [addr_node, firstLoop, bind_apply, load_apply, live, here, andThen_some, notNull, if_false,
            Prog.ite_apply]
          exact runs

/-- One call of the check, whose recursive calls found nothing. -/
theorem checkIntegrity_node {a : Addr} {red : Bool} {e : Entry} {l r : RbTree}
    (good : 0 ∉ s.live) (rep : Rep s (node a red e l r) parent root)
    (sorted : Sorted (node a red e l r).inorder) (noTwoRed : red = true → l.isRed = false)
    (leaning : r ≠ .nil → l ≠ .nil)
    (leftGood : checkIntegrity fuel (addr l) s = some (false, s))
    (rightGood : checkIntegrity fuel (addr r) s = some (false, s)) :
    checkIntegrity (fuel + 1) a s = some (false, s) := by
  obtain ⟨live, here, left, right⟩ := rep
  obtain ⟨_, _, below, above⟩ := sorted.subtrees
  have notNull : a ≠ 0 := fun null => good (null ▸ live)
  cases l with
  | nil =>
      obtain rfl : r = .nil := by_contra fun nonempty => leaning nonempty rfl
      simp [checkIntegrity, live, here, notNull]
  | node b bRed be bl br =>
      have leftNotNull : b ≠ 0 := fun null => good (null ▸ left.1)
      have smaller : ¬ e.1.toInt ≤ be.1.toInt := by simpa using below be (by simp)
      have notRed : ¬ (red = true ∧ bRed = true) := by
        rintro ⟨rfl, rfl⟩
        simpa using noTwoRed rfl
      rw [addr_node] at leftGood
      cases r with
      | nil =>
          simp [checkIntegrity, live, here, notNull, leftNotNull, left.1, left.2.1, smaller, notRed,
            leftGood]
      | node c cRed ce cl cr =>
          have rightNotNull : c ≠ 0 := fun null => good (null ▸ right.1)
          have larger : ¬ ce.1.toInt ≤ e.1.toInt := by simpa using above ce (by simp)
          rw [addr_node] at rightGood
          simp [checkIntegrity, live, here, notNull, leftNotNull, rightNotNull, left.1, left.2.1,
            right.1, right.2.1, smaller, larger, notRed, leftGood, rightGood]

/-- The integrity check finds nothing wrong with a balanced search tree. -/
theorem checkIntegrity_apply {levels : Nat} (good : 0 ∉ s.live) (rep : Rep s tree parent root)
    (balanced : tree.Balanced levels) (sorted : Sorted tree.inorder) (enough : tree.height < fuel) :
    checkIntegrity fuel (addr tree) s = some (false, s) := by
  induction balanced generalizing fuel parent root with
  | nil =>
      obtain ⟨fuel, rfl⟩ : ∃ more, fuel = more + 1 := ⟨fuel - 1, by omega⟩
      simp [checkIntegrity]
  | @black a e l r h left right rightBlack leftIH rightIH =>
      obtain ⟨leftSorted, rightSorted, _⟩ := sorted.subtrees
      simp only [height] at enough
      obtain ⟨fuel, rfl⟩ : ∃ more, fuel = more + 1 := ⟨fuel - 1, by omega⟩
      exact checkIntegrity_node good rep sorted (by simp) (left.nonempty right rightBlack)
        (leftIH rep.2.2.1 leftSorted (by omega)) (rightIH rep.2.2.2 rightSorted (by omega))
  | @red a e l r h left right leftBlack rightBlack leftIH rightIH =>
      obtain ⟨leftSorted, rightSorted, _⟩ := sorted.subtrees
      simp only [height] at enough
      obtain ⟨fuel, rfl⟩ : ∃ more, fuel = more + 1 := ⟨fuel - 1, by omega⟩
      exact checkIntegrity_node good rep sorted (fun _ => leftBlack) (left.nonempty right rightBlack)
        (leftIH rep.2.2.1 leftSorted (by omega)) (rightIH rep.2.2.2 rightSorted (by omega))

end Descents

end GbfLibrary.Rbtree
