import GbfLibrary.Rbtree.WellFormed

/-!
# What the integrity check sees

`check_integrity` compares a node with its children. It reads neither the colour of a right
child nor a node further down, and it counts no black nodes.
-/

set_option autoImplicit false

namespace GbfLibrary.Rbtree

open Memory Prog Trees ColoredTree

/-- A fault of a node that the check reports. -/
inductive Fault (s : RbMachine) (a : Addr) : Prop where
  | leftOrder : (s.cell a).lnode ≠ 0 →
      (s.cell a).key.toInt ≤ (s.cell (s.cell a).lnode).key.toInt → Fault s a
  | twoRed : (s.cell a).lnode ≠ 0 → (s.cell a).isRed = true →
      (s.cell (s.cell a).lnode).isRed = true → Fault s a
  | blackLink : (s.cell a).lnode ≠ 0 → (s.cell a).hasRedLink = true →
      (s.cell (s.cell a).lnode).isRed = false → Fault s a
  | noLink : (s.cell a).lnode = 0 → (s.cell a).hasRedLink = true → Fault s a
  | noLeft : (s.cell a).lnode = 0 → (s.cell a).rnode ≠ 0 → Fault s a
  | rightOrder : (s.cell a).rnode ≠ 0 →
      (s.cell (s.cell a).rnode).key.toInt ≤ (s.cell a).key.toInt → Fault s a

/-- The rules of `rbtree.h` on the nodes of a tree. -/
structure Lawful (s : RbMachine) (tree : RbTree) : Prop where
  ordered : tree.Ordered keyOf
  leaning : ∀ a ∈ tree.labels, (s.cell a).rnode ≠ 0 → (s.cell (s.cell a).rnode).isRed = false
  redLink : ∀ a ∈ tree.labels, (s.cell a).hasRedLink = true ↔
    (s.cell a).lnode ≠ 0 ∧ (s.cell (s.cell a).lnode).isRed = true
  noTwoRed : ∀ a ∈ tree.labels, (s.cell a).isRed = true →
    ∀ child ∈ [(s.cell a).lnode, (s.cell a).rnode], child ≠ 0 → (s.cell child).isRed = false
  blackHeight : ∃ height, ∀ count ∈ tree.blackCounts, count = height

/-- The part of the rules that the check does not look at. -/
structure Unchecked (s : RbMachine) (tree : RbTree) : Prop where
  inner : tree.InnerOrdered keyOf
  leaning : ∀ a ∈ tree.labels, (s.cell a).rnode ≠ 0 → (s.cell (s.cell a).rnode).isRed = false
  linked : ∀ a ∈ tree.labels, (s.cell a).lnode ≠ 0 → (s.cell (s.cell a).lnode).isRed = true →
    (s.cell a).hasRedLink = true
  blackHeight : ∃ height, ∀ count ∈ tree.blackCounts, count = height

section Facts

variable {s : RbMachine} {tree : RbTree} {root : Addr}

private theorem Spells.root_eq_zero (spells : Spells s root tree) : root = 0 ↔ tree = .nil := by
  cases tree with
  | nil => exact ⟨fun _ => rfl, fun _ => spells⟩
  | node =>
      obtain ⟨rfl, notNull, _⟩ := spells
      simpa using notNull

theorem Spells.live (spells : Spells s root tree) (notNull : root ≠ 0) : root ∈ s.live := by
  cases tree with
  | nil => exact absurd spells notNull
  | node =>
      obtain ⟨rfl, _, live, _⟩ := spells
      exact live

/-- The check reports exactly the faults of the nodes. -/
theorem checkIntegrity_reports {fuel : Nat} (spells : Spells s root tree) (enough : tree.height < fuel) :
    ∃ bad, checkIntegrity fuel root s = some (bad, s) ∧ (bad = true ↔ ∃ a ∈ tree.labels, Fault s a) := by
  induction tree generalizing root fuel with
  | nil =>
      obtain ⟨fuel, rfl⟩ : ∃ more, fuel = more + 1 := ⟨fuel - 1, by omega⟩
      obtain rfl : root = 0 := spells
      exact ⟨false, by simp [checkIntegrity], by simp⟩
  | node a red e l r leftIH rightIH =>
      obtain ⟨rfl, notNull, live, -, -, left, right⟩ := spells
      simp only [height] at enough
      obtain ⟨fuel, rfl⟩ : ∃ more, fuel = more + 1 := ⟨fuel - 1, by omega⟩
      obtain ⟨leftBad, leftRuns, leftFaults⟩ := leftIH left (show l.height < fuel by omega)
      obtain ⟨rightBad, rightRuns, rightFaults⟩ := rightIH right (show r.height < fuel by omega)
      have faults : (∃ b ∈ (node root red e l r).labels, Fault s b) ↔
          Fault s root ∨ leftBad = true ∨ rightBad = true := by
        simp only [leftFaults, rightFaults, labels_node, List.mem_cons, List.mem_append, or_and_right,
          exists_or, exists_eq_left]
      rw [faults]
      by_cases noLeft : (s.cell root).lnode = 0
      · obtain rfl := left.root_eq_zero.mp noLeft
        have leftGood : leftBad = false := by simpa using leftFaults
        cases link : (s.cell root).hasRedLink with
        | true =>
            refine ⟨true, ?_, by simp [Fault.noLink noLeft link]⟩
            simp [checkIntegrity, notNull, live, noLeft, link]
        | false =>
            by_cases noRight : (s.cell root).rnode = 0
            · obtain rfl := right.root_eq_zero.mp noRight
              have rightGood : rightBad = false := by simpa using rightFaults
              have noFault : ¬ Fault s root := by
                intro fault
                cases fault <;> simp_all
              refine ⟨false, ?_, by simp [leftGood, rightGood, noFault]⟩
              simp [checkIntegrity, notNull, live, noLeft, link, noRight]
            · refine ⟨true, ?_, by simp [Fault.noLeft noLeft noRight]⟩
              simp [checkIntegrity, notNull, live, noLeft, link, noRight]
      · have leftLive := left.live noLeft
        by_cases leftOrder : (s.cell root).key.toInt ≤ (s.cell (s.cell root).lnode).key.toInt
        · refine ⟨true, ?_, by simp [Fault.leftOrder noLeft leftOrder]⟩
          simp [checkIntegrity, notNull, live, noLeft, leftLive, leftOrder]
        by_cases twoRed : (s.cell root).isRed = true ∧ (s.cell (s.cell root).lnode).isRed = true
        · refine ⟨true, ?_, by simp [Fault.twoRed noLeft twoRed.1 twoRed.2]⟩
          simp [checkIntegrity, notNull, live, noLeft, leftLive, leftOrder, twoRed]
        by_cases blackLink : (s.cell root).hasRedLink = true ∧ (s.cell (s.cell root).lnode).isRed = false
        · refine ⟨true, ?_, by simp [Fault.blackLink noLeft blackLink.1 blackLink.2]⟩
          simp [checkIntegrity, notNull, live, noLeft, leftLive, leftOrder, Node.isBlack, blackLink]
        cases leftBad with
        | true =>
            refine ⟨true, ?_, by simp⟩
            simp [checkIntegrity, notNull, live, noLeft, leftLive, leftOrder, twoRed, blackLink,
              Node.isBlack, leftRuns]
        | false =>
            by_cases noRight : (s.cell root).rnode = 0
            · obtain rfl := right.root_eq_zero.mp noRight
              have rightGood : rightBad = false := by simpa using rightFaults
              have noFault : ¬ Fault s root := by
                intro fault
                cases fault <;> simp_all
              refine ⟨false, ?_, by simp [rightGood, noFault]⟩
              simp [checkIntegrity, notNull, live, noLeft, leftLive, leftOrder, twoRed, blackLink,
                Node.isBlack, leftRuns, noRight]
            · have rightLive := right.live noRight
              by_cases rightOrder : (s.cell (s.cell root).rnode).key.toInt ≤ (s.cell root).key.toInt
              · refine ⟨true, ?_, by simp [Fault.rightOrder noRight rightOrder]⟩
                simp [checkIntegrity, notNull, live, noLeft, leftLive, leftOrder, twoRed, blackLink,
                  Node.isBlack, leftRuns, noRight, rightLive, rightOrder]
              have noFault : ¬ Fault s root := by
                intro fault
                cases fault <;> simp_all
              refine ⟨rightBad, ?_, by simp [noFault]⟩
              simp [checkIntegrity, notNull, live, noLeft, leftLive, leftOrder, twoRed, blackLink,
                Node.isBlack, leftRuns, noRight, rightLive, rightOrder, rightRuns]

theorem Spells.entry (spells : Spells s root tree) :
    ∀ e ∈ tree.atRoot, root ≠ 0 ∧ keyOf e = (s.cell root).key.toInt := by
  cases tree with
  | nil => simp [atRoot]
  | node a red e l r =>
      obtain ⟨rfl, notNull, _, _, rfl, _⟩ := spells
      simp [atRoot, keyOf, notNull]

private theorem childOrdered_of_clean (spells : Spells s root tree) (clean : ∀ a ∈ tree.labels, ¬ Fault s a) :
    tree.ChildOrdered keyOf := by
  induction tree generalizing root with
  | nil => trivial
  | node a red e l r leftIH rightIH =>
      obtain ⟨rfl, _, _, _, rfl, left, right⟩ := spells
      simp only [labels_node, List.mem_cons, List.mem_append] at clean
      have here := clean root (.inl rfl)
      refine ⟨fun other member => ?_, fun other member => ?_,
        leftIH left fun a inLeft => clean a (.inr (.inl inLeft)),
        rightIH right fun a inRight => clean a (.inr (.inr inRight))⟩
      · obtain ⟨notNull, key⟩ := left.entry other member
        rw [key]
        exact lt_of_not_ge fun large => here (.leftOrder notNull large)
      · obtain ⟨notNull, key⟩ := right.entry other member
        rw [key]
        exact lt_of_not_ge fun small => here (.rightOrder notNull small)

/-- Where no node has a fault, the unchecked part of the rules decides. -/
theorem lawful_iff_unchecked (spells : Spells s root tree) (clean : ∀ a ∈ tree.labels, ¬ Fault s a) :
    Lawful s tree ↔ Unchecked s tree := by
  constructor
  · rintro ⟨ordered, leaning, redLink, _, blackHeight⟩
    exact ⟨((ordered_iff_inner keyOf tree).mp ordered).2, leaning,
      fun a member notNull red => (redLink a member).mpr ⟨notNull, red⟩, blackHeight⟩
  · rintro ⟨inner, leaning, linked, blackHeight⟩
    have ordered := (ordered_iff_inner keyOf tree).mpr ⟨childOrdered_of_clean spells clean, inner⟩
    refine ⟨ordered, leaning, fun a member => ⟨fun link => ?_, fun red => linked a member red.1 red.2⟩,
      fun a member red child isChild notNull => ?_, blackHeight⟩
    · have notNull : (s.cell a).lnode ≠ 0 := fun null => clean a member (.noLink null link)
      refine ⟨notNull, ?_⟩
      by_contra black
      exact clean a member (.blackLink notNull link (Bool.eq_false_iff.mpr black))
    · simp only [List.mem_cons, List.not_mem_nil, or_false] at isChild
      rcases isChild with rfl | rfl
      · by_contra childRed
        exact clean a member (.twoRed notNull red (Bool.not_eq_false _ ▸ childRed))
      · exact leaning a member notNull

end Facts

/-- A check that reports nothing is right where the unchecked part of the rules holds. -/
theorem checkIntegrity_sound_iff (s : RbMachine) (root : Addr) (tree : RbTree) (fuel : Nat)
    (spells : Spells s root tree) (enough : tree.height < fuel) :
    ∃ bad, checkIntegrity fuel root s = some (bad, s) ∧
      ((bad = false → Lawful s tree) ↔ ((∃ a ∈ tree.labels, Fault s a) ∨ Unchecked s tree)) := by
  obtain ⟨bad, runs, reports⟩ := checkIntegrity_reports spells enough
  refine ⟨bad, runs, ?_⟩
  cases bad with
  | true => simp [reports.mp rfl]
  | false =>
      have faultless : ¬ ∃ a ∈ tree.labels, Fault s a := fun found => by cases reports.mpr found
      have clean : ∀ a ∈ tree.labels, ¬ Fault s a := fun a member fault => faultless ⟨a, member, fault⟩
      simp only [forall_const, faultless, false_or]
      exact lawful_iff_unchecked spells clean

/-- A black node with two red children and no link bit. -/
def redRight : RbMachine where
  live := {1, 2, 3}
  others := ∅
  cell := fun a =>
    if a = 1 then ⟨0, 20, 0, 0, 2, 3⟩ else if a = 2 then ⟨1, 10, 0, 1, 0, 0⟩ else ⟨1, 30, 0, 1, 0, 0⟩
  glob := Header.zero
  callocs := 0

def redRightTree : RbTree :=
  .node 1 false (20, 0) (.node 2 true (10, 0) .nil .nil) (.node 3 true (30, 0) .nil .nil)

private theorem redRight_spells : Spells redRight 1 redRightTree := by
  simp [Spells, redRight, redRightTree, Node.isRed]

theorem checkIntegrity_sound_iff_redRight :
    ∃ bad, checkIntegrity 3 1 redRight = some (bad, redRight) ∧ ((bad = false → Lawful redRight redRightTree) ↔
      ((∃ a ∈ redRightTree.labels, Fault redRight a) ∨ Unchecked redRight redRightTree)) :=
  checkIntegrity_sound_iff redRight 1 redRightTree 3 redRight_spells (by decide)

/-- The check reports nothing about a red right child. -/
theorem checkIntegrity_unsound : ¬ ∀ (s : RbMachine) (root : Addr) (tree : RbTree) (fuel : Nat),
    Spells s root tree → tree.labels.Nodup → tree.isRed = false → tree.height < fuel →
    checkIntegrity fuel root s = some (false, s) → Lawful s tree := by
  intro claimed
  have lawful := claimed redRight 1 redRightTree 3 redRight_spells (by decide) rfl (by decide) rfl
  have black := lawful.leaning 1 (by decide) (by decide)
  cases black

end GbfLibrary.Rbtree
