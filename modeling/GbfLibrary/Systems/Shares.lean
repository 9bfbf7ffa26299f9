import Mathlib.Algebra.BigOperators.Group.Finset.Basic
import Mathlib.Algebra.Order.BigOperators.Group.Finset
import Mathlib.Data.Fintype.Basic
import Mathlib.Logic.Function.Basic

/-!
# Shares

What the members of a group hold of something together, where one member at a
time changes what it holds.
-/

set_option autoImplicit false

namespace GbfLibrary.Systems

variable {I A : Type} [Fintype I] {share : A → Nat} {members : I → A} {i : I} {a : A}

/-- The sum of the shares of all members. -/
def total (share : A → Nat) (members : I → A) : Nat := ∑ i, share (members i)

theorem total_update [DecidableEq I] :
    total share (Function.update members i a) + share (members i) = total share members + share a := by
  have others : ∑ j ∈ Finset.univ.erase i, share (Function.update members i a j) =
      ∑ j ∈ Finset.univ.erase i, share (members j) := by
    apply Finset.sum_congr rfl
    intro j other
    rw [Function.update_of_ne (Finset.ne_of_mem_erase other)]
  have after := Finset.add_sum_erase Finset.univ
    (fun j => share (Function.update members i a j)) (Finset.mem_univ i)
  have before := Finset.add_sum_erase Finset.univ (fun j => share (members j)) (Finset.mem_univ i)
  rw [Function.update_self] at after
  simp only [total]
  omega

/-- A member that keeps its share does not change the sum. -/
theorem total_update_same [DecidableEq I] (same : share a = share (members i)) :
    total share (Function.update members i a) = total share members := by
  have moved : total share (Function.update members i a) + share (members i) =
      total share members + share a := total_update
  omega

theorem share_le_total (i : I) : share (members i) ≤ total share members :=
  Finset.single_le_sum (f := fun j => share (members j)) (fun _ _ => Nat.zero_le _) (Finset.mem_univ i)

theorem total_eq_zero : total share members = 0 ↔ ∀ i, share (members i) = 0 := by
  simp [total, Finset.sum_eq_zero_iff]

theorem total_eq_single (i : I) (others : ∀ j, j ≠ i → share (members j) = 0) :
    total share members = share (members i) :=
  Finset.sum_eq_single i (fun j _ other => others j other) fun absent => absurd (Finset.mem_univ i) absent

end GbfLibrary.Systems
