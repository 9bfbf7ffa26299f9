import Mathlib.Algebra.Ring.Parity
import Mathlib.Data.List.Nodup
import Mathlib.Data.List.Perm.Subperm
import Mathlib.Data.Nat.ModEq
import Mathlib.Data.Nat.Prime.Basic

/-!
# Mixing words

The rounds of hash functions on machine words that lose nothing, and values that such a function keeps apart.
-/

set_option autoImplicit false

namespace GbfLibrary.Memory.Mixing

variable {w shift m : Nat} {α β : Type}

theorem mul_injective (odd : Odd m) : Function.Injective fun x : BitVec w => x * BitVec.ofNat w m := by
  intro x y same
  have same := congrArg BitVec.toNat same
  simp only [BitVec.toNat_mul, BitVec.toNat_ofNat, Nat.mul_mod_mod] at same
  have products : x.toNat * m ≡ y.toNat * m [MOD 2 ^ w] := same
  have coprime : (2 ^ w).gcd m = 1 := Nat.Coprime.pow_left w (Nat.coprime_two_left.mpr odd)
  have factors := Nat.ModEq.cancel_right_of_coprime coprime products
  exact BitVec.eq_of_toNat_eq (Nat.ModEq.eq_of_lt_of_lt factors x.isLt y.isLt)

/-- A word that is its own right shift is zero. -/
theorem eq_zero_of_ushiftRight {x : BitVec w} (shifts : 0 < shift) (same : x >>> shift = x) : x = 0 := by
  have halves : x.toNat / 2 ^ shift = x.toNat := by
    rw [← Nat.shiftRight_eq_div_pow, ← BitVec.toNat_ushiftRight, same]
  apply BitVec.eq_of_toNat_eq
  by_contra some
  have less := Nat.div_lt_self (Nat.pos_of_ne_zero some) (Nat.one_lt_two_pow (Nat.ne_of_gt shifts))
  rw [halves] at less
  exact Nat.lt_irrefl _ less

theorem xor_ushiftRight_injective (shifts : 0 < shift) :
    Function.Injective fun x : BitVec w => x ^^^ (x >>> shift) := by
  intro x y same
  have together : (x ^^^ y) >>> shift = x ^^^ y := by
    rw [BitVec.ushiftRight_xor_distrib]
    have same : x ^^^ (x >>> shift) = y ^^^ (y >>> shift) := same
    calc x >>> shift ^^^ y >>> shift = x ^^^ (x ^^^ (x >>> shift)) ^^^ y >>> shift := by
          rw [← BitVec.xor_assoc, BitVec.xor_self, BitVec.zero_xor]
      _ = x ^^^ (y ^^^ y >>> shift) ^^^ y >>> shift := by rw [same]
      _ = x ^^^ y := by rw [BitVec.xor_assoc, BitVec.xor_assoc, BitVec.xor_self, BitVec.xor_zero]
  exact BitVec.xor_eq_zero_iff.mp (eq_zero_of_ushiftRight shifts together)

theorem shiftLeft_eq_mul (x : BitVec w) (shift : Nat) : x <<< shift = x * BitVec.ofNat w (2 ^ shift) := by
  apply BitVec.eq_of_toNat_eq
  rw [BitVec.toNat_shiftLeft, BitVec.toNat_mul, BitVec.toNat_ofNat, Nat.mul_mod_mod, Nat.shiftLeft_eq]

theorem add_shiftLeft_injective (shifts : 0 < shift) :
    Function.Injective fun x : BitVec w => x + (x <<< shift) := by
  have odd : Odd (2 ^ shift + 1) := (Nat.even_pow.mpr ⟨even_two, Nat.ne_of_gt shifts⟩).add_one
  have product : (fun x : BitVec w => x + (x <<< shift)) = fun x => x * BitVec.ofNat w (2 ^ shift + 1) := by
    funext x
    rw [shiftLeft_eq_mul, BitVec.ofNat_add, BitVec.mul_add, BitVec.mul_one, BitVec.add_comm]
  rw [product]
  exact mul_injective odd

theorem not_add_shiftLeft_injective (shifts : 0 < shift) :
    Function.Injective fun x : BitVec w => ~~~x + (x <<< shift) := by
  have even : Even (2 ^ shift) := Nat.even_pow.mpr ⟨even_two, Nat.ne_of_gt shifts⟩
  have odd : Odd (2 ^ shift - 1) := Nat.Even.sub_odd Nat.one_le_two_pow even odd_one
  have product : ∀ x : BitVec w, ~~~x + (x <<< shift) + 1#w = x * BitVec.ofNat w (2 ^ shift - 1) := by
    intro x
    have whole : BitVec.ofNat w (2 ^ shift) = BitVec.ofNat w (2 ^ shift - 1) + 1#w := by
      rw [← BitVec.ofNat_add, Nat.sub_add_cancel Nat.one_le_two_pow]
    calc ~~~x + (x <<< shift) + 1#w = (~~~x + 1#w) + x * BitVec.ofNat w (2 ^ shift) := by
          rw [shiftLeft_eq_mul, BitVec.add_assoc, BitVec.add_assoc, BitVec.add_comm (x * _)]
      _ = -x + (x * BitVec.ofNat w (2 ^ shift - 1) + x) := by
          rw [← BitVec.neg_eq_not_add, whole, BitVec.mul_add, BitVec.mul_one]
      _ = x * BitVec.ofNat w (2 ^ shift - 1) := by
          rw [BitVec.add_comm (x * _), ← BitVec.add_assoc, BitVec.add_comm (-x), BitVec.add_right_neg, BitVec.zero_add]
  intro x y same
  have same : ~~~x + (x <<< shift) = ~~~y + (y <<< shift) := same
  apply mul_injective odd
  calc x * BitVec.ofNat w (2 ^ shift - 1) = ~~~x + (x <<< shift) + 1#w := (product x).symm
    _ = ~~~y + (y <<< shift) + 1#w := by rw [same]
    _ = y * BitVec.ofNat w (2 ^ shift - 1) := product y

/-- Among more values than are taken there is one with a free image. -/
theorem exists_image_notMem {f : α → β} {values : List α} {taken : List β} (injective : Function.Injective f)
    (nodup : values.Nodup) (more : taken.length < values.length) : ∃ x ∈ values, f x ∉ taken := by
  by_contra all
  have inside : values.map f ⊆ taken := by
    intro y member
    obtain ⟨x, isValue, rfl⟩ := List.mem_map.mp member
    by_contra free
    exact all ⟨x, isValue, free⟩
  have few := ((nodup.map injective).subperm inside).length_le
  rw [List.length_map] at few
  exact Nat.not_lt.mpr few more

end GbfLibrary.Memory.Mixing
