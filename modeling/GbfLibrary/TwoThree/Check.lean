import GbfLibrary.TwoThree.Failures

/-!
# The check of a tree

`lbs_23tree_delete` has an assertion on the result of `lbs_23tree_check_subtree` that is commented out. The check
finds no fault in a tree that calls have made, where no failed allocation has spoilt it, but an empty tree does not pass.
-/

set_option autoImplicit false

namespace GbfLibrary.TwoThree

open Memory Prog Trees Tree23 Maps

/-- The null pointer for a good tree, or a node at fault. There is no node at the address 1, the result for an
empty tree. -/
def checkSubtree : Nat → Addr → TreeProg Addr
  | 0, _ => fault
  | fuel + 1, node => do
    if node = 0 then return 1
    else (do
      let n ← load node
      if n.lkey = INVALID_KEY_VALUE ∨ (n.lkey = INVALID_KEY_VALUE ∧ n.rkey = INVALID_KEY_VALUE) then return node
      else if n.rkey ≤ n.lkey then return node
      else if n.isLeaf then
        if n.mchild ≠ 0 ∨ n.rchild ≠ 0 ∨ n.mchild2 ≠ 0 then return node else return 0
      else if n.lchild = 0 ∨ n.rchild = 0 then return node
      else (do
        let left ← checkSubtree fuel n.lchild
        if left ≠ 0 then return left
        else if n.isTri then
          if n.mchild = 0 then return node
          else (do
            let middle ← checkSubtree fuel n.mchild
            if middle ≠ 0 then return middle
            else (do
              let right ← checkSubtree fuel n.rchild
              if right ≠ 0 then return right else return 0))
        else (do
          let right ← checkSubtree fuel n.rchild
          if right ≠ 0 then return right else return 0)))

section Check

variable {s : TreeMachine} {tree : LbsTree} {parent : Addr} {root : Int} {height fuel : Nat}

/-- An unused key field counts as larger than every key. -/
theorem not_invalid_le {key : Word} (valid : key ≠ INVALID_KEY_VALUE) : ¬ INVALID_KEY_VALUE ≤ key := by
  intro le
  refine valid (BitVec.eq_of_toNat_eq (Nat.le_antisymm ?_ (BitVec.le_def.mp le)))
  have bound := key.isLt
  have top : INVALID_KEY_VALUE.toNat = 2 ^ 32 - 1 := rfl
  omega

theorem checkSubtree_apply (good : 0 ∉ s.live) (rep : Rep s tree parent root) (uniform : tree.Uniform (height + 1))
    (ordered : tree.Ordered rank) (enough : height < fuel) : checkSubtree fuel (addr tree) s = some (0, s) := by
  have notNull := rep.addr_ne_of_uniform good uniform
  obtain ⟨fuel, rfl⟩ : ∃ more, fuel = more + 1 := ⟨fuel - 1, by omega⟩
  induction height generalizing tree parent root fuel with
  | zero =>
      cases uniform with
      | two leftEven rightEven =>
          obtain rfl := leftEven.eq_nil
          obtain rfl := rightEven.eq_nil
          obtain ⟨live, valid, cell, _⟩ := rep
          rw [addr_two] at notNull
          simp [checkSubtree, notNull, live, cell, valid, not_invalid_le valid]
      | three leftEven middleEven rightEven =>
          obtain rfl := leftEven.eq_nil
          obtain rfl := middleEven.eq_nil
          obtain rfl := rightEven.eq_nil
          obtain ⟨live, valid, _, cell, _⟩ := rep
          obtain ⟨smaller, _⟩ := key_lt ordered.1
          rw [addr_three] at notNull
          simp [checkSubtree, notNull, live, cell, valid, BitVec.not_le.mpr smaller]
  | succ height ih =>
      obtain ⟨fuel, rfl⟩ : ∃ more, fuel = more + 1 := ⟨fuel - 1, by omega⟩
      have child : ∀ {sub : LbsTree} {a : Addr}, Rep s sub a 0 → sub.Uniform (height + 1) → sub.Ordered rank →
          addr sub ≠ 0 ∧ checkSubtree (fuel + 1) (addr sub) s = some (0, s) := fun subRep even subOrdered =>
        have subNotNull := subRep.addr_ne_of_uniform good even
        ⟨subNotNull, ih subRep even subOrdered subNotNull fuel (by omega)⟩
      cases uniform with
      | two leftEven rightEven =>
          obtain ⟨live, valid, cell, leftRep, rightRep⟩ := rep
          obtain ⟨_, _, leftOrdered, rightOrdered⟩ := ordered
          obtain ⟨leftSome, checksLeft⟩ := child leftRep leftEven leftOrdered
          obtain ⟨rightSome, checksRight⟩ := child rightRep rightEven rightOrdered
          rw [addr_two] at notNull ⊢
          rw [checkSubtree]
          simp [notNull, live, cell, valid, not_invalid_le valid, leftSome, checksLeft, rightSome, checksRight]
      | three leftEven middleEven rightEven =>
          obtain ⟨live, valid, rValid, cell, leftRep, middleRep, rightRep⟩ := rep
          obtain ⟨order, _, _, _, leftOrdered, middleOrdered, rightOrdered⟩ := ordered
          obtain ⟨smaller, _⟩ := key_lt order
          obtain ⟨leftSome, checksLeft⟩ := child leftRep leftEven leftOrdered
          obtain ⟨middleSome, checksMiddle⟩ := child middleRep middleEven middleOrdered
          obtain ⟨rightSome, checksRight⟩ := child rightRep rightEven rightOrdered
          rw [addr_three] at notNull ⊢
          rw [checkSubtree]
          simp [notNull, live, cell, valid, rValid, BitVec.not_le.mpr smaller, leftSome, checksLeft, middleSome,
            checksMiddle, rightSome, checksRight]

private theorem Holds.checkSubtree {levels : Nat} (holds : Holds s tree levels) (enough : levels < fuel) :
    TwoThree.checkSubtree fuel s.glob.root s = some (if s.glob.nodeCount = 0 then 1 else 0, s) := by
  rw [holds.root, holds.count]
  cases levels with
  | zero =>
      obtain rfl := holds.uniform.eq_nil
      obtain ⟨fuel, rfl⟩ : ∃ more, fuel = more + 1 := ⟨fuel - 1, by omega⟩
      simp [TwoThree.checkSubtree]
  | succ height =>
      obtain ⟨e, member⟩ := exists_mem_inorder holds.uniform
      have nonempty : tree.inorder.length ≠ 0 := (List.length_pos_of_mem member).ne'
      rw [checkSubtree_apply holds.good holds.rep holds.uniform (ordered_of_sorted rank tree holds.sorted) (by omega)]
      simp [nonempty]

end Check

/-- In every state that calls reach which have each left a 2-3 tree behind, the check passes, if there is an entry left. -/
theorem reached_checked (fuel n : Nat) (enough : n < fuel) (s : TreeMachine) (reached : Reached fuel n s) :
    checkSubtree fuel s.glob.root s = some (if s.glob.nodeCount = 0 then 1 else 0, s) := by
  obtain ⟨tree, levels, holds, length⟩ := reached.holds
  have high := holds.uniform.le_length
  exact holds.checkSubtree (by omega)

theorem reached_checked_fullLeaf :
    checkSubtree 5 fullLeaf.glob.root fullLeaf = some (if fullLeaf.glob.nodeCount = 0 then 1 else 0, fullLeaf) :=
  reached_checked 5 2 (by decide) fullLeaf fullLeaf_reached

end GbfLibrary.TwoThree
