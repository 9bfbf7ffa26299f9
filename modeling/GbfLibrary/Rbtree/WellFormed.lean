import GbfLibrary.Rbtree.Invariant

/-!
# Well-formed trees

The rules of `rbtree.h` on the memory itself: every clause reads the nodes and
the header as the C code does.
-/

set_option autoImplicit false

namespace GbfLibrary.Rbtree

open Memory Prog Trees ColoredTree

/-- What the child pointers, colours and entries below `root` spell out. -/
def Spells (s : RbMachine) : Addr → RbTree → Prop
  | root, .nil => root = 0
  | root, .node a red e l r =>
      root = a ∧ a ≠ 0 ∧ a ∈ s.live ∧ red = (s.cell a).isRed ∧
      e = ((s.cell a).key, (s.cell a).data) ∧
      Spells s (s.cell a).lnode l ∧ Spells s (s.cell a).rnode r

/-- The rules that a node and its children obey. -/
structure NodeRules (s : RbMachine) (a : Addr) : Prop where
  redLink : (s.cell a).hasRedLink = true ↔
    (s.cell a).lnode ≠ 0 ∧ (s.cell (s.cell a).lnode).isRed = true
  leaning : (s.cell a).rnode ≠ 0 → (s.cell (s.cell a).rnode).isRed = false
  noTwoRed : (s.cell a).isRed = true →
    ∀ child ∈ [(s.cell a).lnode, (s.cell a).rnode], child ≠ 0 → (s.cell child).isRed = false
  parents : ∀ child ∈ [(s.cell a).lnode, (s.cell a).rnode], child ≠ 0 → (s.cell child).parent = a

structure WellFormed (s : RbMachine) (tree : RbTree) : Prop where
  spells : Spells s s.glob.root tree
  distinct : tree.labels.Nodup
  ordered : tree.Ordered keyOf
  rootBlack : s.glob.root ≠ 0 → (s.cell s.glob.root).isRed = false
  rootBit : ∀ a ∈ tree.labels, (s.cell a).isRoot = true ↔ a = s.glob.root
  rootParent : s.glob.root ≠ 0 → (s.cell s.glob.root).parent = s.glob.self
  rules : ∀ a ∈ tree.labels, NodeRules s a
  blackHeight : ∀ count ∈ tree.blackCounts, s.glob.depth = count
  count : s.glob.count = tree.labels.length

section Facts

variable {s : RbMachine} {tree : RbTree} {nodes : List Addr} {levels : Nat} {parent : Addr}
  {root : Bool}

theorem Rep.spells (good : 0 ∉ s.live) (rep : Rep s tree parent root) :
    Spells s (addr tree) tree := by
  induction tree generalizing parent root with
  | nil => rfl
  | node a red e l r leftIH rightIH =>
      obtain ⟨live, cell, left, right⟩ := rep
      refine ⟨rfl, fun null => good (null ▸ live), live, ?_, ?_, ?_, ?_⟩
      · simp [cell]
      · simp [cell]
      · simpa [cell] using leftIH left
      · simpa [cell] using rightIH right

theorem Rep.atRoot (rep : Rep s tree parent root) (notNull : addr tree ≠ 0) :
    (s.cell (addr tree)).isRed = tree.isRed ∧ (s.cell (addr tree)).parent = parent ∧
      (s.cell (addr tree)).isRoot = root := by
  cases tree with
  | nil => simp at notNull
  | node a red e l r => simp [rep.2.1]

/-- Only the root of the whole tree has the root bit. -/
theorem Rep.isRoot (nodup : tree.labels.Nodup) (rep : Rep s tree parent root) :
    ∀ a ∈ tree.labels, (s.cell a).isRoot = true ↔ root = true ∧ a = addr tree := by
  induction tree generalizing parent root with
  | nil => simp
  | node a red e l r leftIH rightIH =>
      obtain ⟨live, cell, left, right⟩ := rep
      simp only [labels_node, List.nodup_cons, List.mem_append, not_or,
        List.nodup_append'] at nodup
      intro b member
      simp only [labels_node, List.mem_cons, List.mem_append] at member
      rcases member with rfl | inLeft | inRight
      · simp [cell]
      · have different : b ≠ a := fun same => nodup.1.1 (same ▸ inLeft)
        simp [leftIH nodup.2.1 left b inLeft, different]
      · have different : b ≠ a := fun same => nodup.1.2 (same ▸ inRight)
        simp [rightIH nodup.2.2.1 right b inRight, different]

/-- A fact about every node holds if it holds of the root of every subtree. -/
theorem Rep.forall_nodes {P : Addr → Prop}
    (step : ∀ {a red e l r parent root height}, Rep s (node a red e l r) parent root →
      (node a red e l r).Balanced height → P a)
    {height : Nat} (rep : Rep s tree parent root) (balanced : tree.Balanced height) :
    ∀ a ∈ tree.labels, P a := by
  induction balanced generalizing parent root with
  | nil => simp
  | black left right rightBlack leftIH rightIH =>
      intro b member
      simp only [labels_node, List.mem_cons, List.mem_append] at member
      rcases member with rfl | inLeft | inRight
      · exact step rep (.black left right rightBlack)
      · exact leftIH rep.2.2.1 b inLeft
      · exact rightIH rep.2.2.2 b inRight
  | red left right leftBlack rightBlack leftIH rightIH =>
      intro b member
      simp only [labels_node, List.mem_cons, List.mem_append] at member
      rcases member with rfl | inLeft | inRight
      · exact step rep (.red left right leftBlack rightBlack)
      · exact leftIH rep.2.2.1 b inLeft
      · exact rightIH rep.2.2.2 b inRight

theorem Rep.nodeRules {a : Addr} {red : Bool} {e : Entry} {l r : RbTree} {height : Nat}
    (good : 0 ∉ s.live) (rep : Rep s (node a red e l r) parent root)
    (balanced : (node a red e l r).Balanced height) : NodeRules s a := by
  obtain ⟨_, cell, left, right⟩ := rep
  obtain ⟨_, _, _, rightBlack, _⟩ := balanced.subtrees
  have leftBlack : red = true → l.isRed = false := by
    rintro rfl
    cases balanced with
    | red _ _ leftBlack _ => exact leftBlack
  refine ⟨?_, ?_, ?_, ?_⟩
  · by_cases null : addr l = 0
    · simp [cell, (addr_eq_zero good left).mp null]
    · simp [cell, null, (left.atRoot null).1]
  · intro notNull
    simp only [cell] at notNull ⊢
    rw [(right.atRoot notNull).1, rightBlack]
  · simp only [cell, isRed_mk, List.mem_cons, List.not_mem_nil, or_false]
    rintro parentRed child (rfl | rfl) notNull
    · rw [(left.atRoot notNull).1, leftBlack parentRed]
    · rw [(right.atRoot notNull).1, rightBlack]
  · simp only [cell, List.mem_cons, List.not_mem_nil, or_false]
    rintro child (rfl | rfl) notNull
    · exact (left.atRoot notNull).2.1
    · exact (right.atRoot notNull).2.1

/-- The invariant says everything that the rules demand. -/
theorem Holds.wellFormed (holds : Holds s tree nodes levels) : WellFormed s tree := by
  obtain ⟨rep, top, stocked, balanced, black, depth, sorted, count⟩ := holds
  have good := stocked.good
  have nodup := (List.nodup_append'.mp stocked.nodup).1
  refine ⟨by rw [top]; exact rep.spells good, nodup, (ordered_iff_sorted keyOf tree).mpr sorted, ?_,
    ?_, ?_, rep.forall_nodes (Rep.nodeRules good) balanced, ?_, count⟩
  · intro notNull
    rw [top] at notNull ⊢
    rw [(rep.atRoot notNull).1, black]
  · intro a member
    rw [top]
    simpa using rep.isRoot nodup a member
  · intro notNull
    rw [top] at notNull ⊢
    exact (rep.atRoot notNull).2.1
  · intro n member
    rw [depth, balanced.blackCounts_eq n member]

end Facts

end GbfLibrary.Rbtree
