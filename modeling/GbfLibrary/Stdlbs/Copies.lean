import Mathlib.Algebra.Order.Group.Nat
import GbfLibrary.Memory.Block

/-!
# Copying bytes

`lbs_memcpy` of `stdlbs.c`, which copies from the last byte down, and `lbs_strlen`. A pointer is an offset into a block; reading or
writing outside of it is a fault.
-/

set_option autoImplicit false

namespace GbfLibrary.Stdlbs

open Memory

/-- The loop of `lbs_memcpy` between two places of one block. -/
def lbsMemcpyWithinLoop (dst src : Nat) : Nat → Bytes → Option Bytes
  | 0, block => some block
  | len + 1, block =>
      match block[src + len]? with
      | none => none
      | some c =>
          if dst + len < block.length then lbsMemcpyWithinLoop dst src len (block.set (dst + len) c) else none

/-- `lbs_memcpy` where `dst` and `src` lead into the same block. A negative `len` counts down past every block. -/
def lbsMemcpyWithin (block : Bytes) (dst src : Nat) : Int → Option Bytes
  | .ofNat len => lbsMemcpyWithinLoop dst src len block
  | .negSucc _ => none

/-- The loop of `lbs_memcpy` from one block into another. -/
def lbsMemcpyLoop (offset : Nat) (src : Bytes) (start : Nat) : Nat → Bytes → Option Bytes
  | 0, dst => some dst
  | len + 1, dst =>
      match src[start + len]? with
      | none => none
      | some c => if offset + len < dst.length then lbsMemcpyLoop offset src start len (dst.set (offset + len) c) else none

/-- `lbs_memcpy` from one block into another. -/
def lbsMemcpy (dst : Bytes) (offset : Nat) (src : Bytes) (start : Nat) : Int → Option Bytes
  | .ofNat len => lbsMemcpyLoop offset src start len dst
  | .negSucc _ => none

/-- `lbs_strlen` of the string in a block. Its result is an `unsigned`. -/
def lbsStrlen : Bytes → Option (BitVec 32)
  | [] => none
  | c :: rest => if c = 0 then some 0 else (lbsStrlen rest).map (· + 1)

/-- Which byte of the source the byte `k` of the destination is in the end. Where the destination lies before the
source, bytes that the loop has written already are copied again. -/
def origin (dst src len k : Nat) : Nat :=
  if dst < src then k + (src - dst) * ((len - 1 - k) / (src - dst)) else k

section Within

variable {block : Bytes} {dst src len : Nat}

private theorem origin_lt {k : Nat} (inside : k < len) : origin dst src len k < len := by
  rw [origin]
  split
  · have bound := Nat.mul_div_le (len - 1 - k) (src - dst)
    omega
  · exact inside

/-- A byte more at the end: the byte `k` comes from there when the distance divides the rest. -/
theorem origin_succ {k : Nat} (inside : k < len) :
    origin dst src (len + 1) k =
      if src + origin dst src len k = dst + len then len else origin dst src len k := by
  rw [origin, origin]
  by_cases before : dst < src
  · rw [if_pos before, if_pos before]
    have rest : len + 1 - 1 - k = (len - 1 - k) + 1 := by omega
    have below := Nat.mul_div_le (len - 1 - k) (src - dst)
    rw [rest, Nat.succ_div]
    by_cases divides : src - dst ∣ len - 1 - k + 1
    · have product : (src - dst) * ((len - 1 - k) / (src - dst) + 1) = len - 1 - k + 1 := by
        have exact' := Nat.mul_div_cancel' divides
        rwa [Nat.succ_div, if_pos divides] at exact'
      rw [if_pos divides, product]
      rw [Nat.mul_succ] at product
      rw [if_pos (by omega)]
      omega
    · rw [if_neg divides, Nat.add_zero, if_neg]
      intro same
      refine divides ⟨(len - 1 - k) / (src - dst) + 1, ?_⟩
      rw [Nat.mul_succ]
      omega
  · rw [if_neg before, if_neg before, if_neg (by omega)]

/-- Every byte of the block after the copy. -/
theorem lbsMemcpyWithinLoop_spec (source : src + len ≤ block.length) (room : dst + len ≤ block.length) :
    ∃ after, lbsMemcpyWithinLoop dst src len block = some after ∧ after.length = block.length ∧
      ∀ i, after[i]? =
        if dst ≤ i ∧ i < dst + len then block[src + origin dst src len (i - dst)]? else block[i]? := by
  induction len generalizing block with
  | zero => exact ⟨block, rfl, rfl, fun i => by rw [if_neg (by omega)]⟩
  | succ len ih =>
      have inside : src + len < block.length := by omega
      have last : block[src + len]? = some block[src + len] := List.getElem?_eq_getElem _
      have source' : src + len ≤ (block.set (dst + len) block[src + len]).length := by
        rw [List.length_set]
        omega
      obtain ⟨after, copies, length, bytes⟩ := ih source' (by rw [List.length_set]; omega)
      refine ⟨after, ?_, by rw [length, List.length_set], fun i => ?_⟩
      · rw [lbsMemcpyWithinLoop, last]
        exact (if_pos (by omega)).trans copies
      rw [bytes, List.getElem?_set, List.getElem?_set]
      by_cases inner : dst ≤ i ∧ i < dst + len
      · have more : dst ≤ i ∧ i < dst + (len + 1) := by omega
        rw [if_pos inner, if_pos more, origin_succ (by omega)]
        by_cases taken : src + origin dst src len (i - dst) = dst + len
        · rw [if_pos taken.symm, if_pos taken, if_pos (by omega), last]
        · rw [if_neg (Ne.symm taken), if_neg taken]
      · rw [if_neg inner]
        by_cases here : dst + len = i
        · have same : origin dst src (len + 1) (i - dst) = len := by
            subst here
            rw [Nat.add_sub_cancel_left, origin]
            split
            · rw [Nat.add_sub_cancel, Nat.sub_self, Nat.zero_div, Nat.mul_zero, Nat.add_zero]
            · rfl
          rw [if_pos here, if_pos (by omega), if_pos (by omega), same, last]
        · rw [if_neg here, if_neg (by omega)]

/-- A distance at which bytes repeat themselves can be taken any number of times. -/
theorem getElem?_repeats {distance : Nat}
    (repeats : ∀ k, k + distance < len → block[src + k]? = block[src + (k + distance)]?) (times k : Nat)
    (inside : k + distance * times < len) : block[src + (k + distance * times)]? = block[src + k]? := by
  induction times with
  | zero => rfl
  | succ times ih =>
      rw [Nat.mul_succ, ← Nat.add_assoc k] at inside ⊢
      rw [← repeats _ inside, ih (by omega)]

/-- Inside one block the copy is the block with the source's bytes in the destination exactly when the destination
does not start before the source, or the bytes that are copied again repeat themselves. -/
theorem lbsMemcpyWithin_eq_overwrite_iff (source : src + len ≤ block.length) (room : dst + len ≤ block.length) :
    lbsMemcpyWithin block dst src len = some (overwrite block dst ((block.drop src).take len)) ↔
      (dst < src → ∀ k, k + (src - dst) < len → block[src + k]? = block[src + (k + (src - dst))]?) := by
  obtain ⟨after, copies, length, bytes⟩ := lbsMemcpyWithinLoop_spec source room
  have taken : ((block.drop src).take len).length = len := by
    rw [List.length_take, List.length_drop]
    omega
  have wanted (i : Nat) : (overwrite block dst ((block.drop src).take len))[i]? =
      if dst ≤ i ∧ i < dst + len then block[src + (i - dst)]? else block[i]? := by
    rw [getElem?_overwrite (by rwa [taken]), taken]
    split
    · rw [List.getElem?_take_of_lt (by omega), List.getElem?_drop]
    · rfl
  have outcome : lbsMemcpyWithin block dst src len = some after := copies
  rw [outcome, Option.some_inj]
  constructor
  · intro same before k inside
    have here (k : Nat) (inside : k < len) : block[src + origin dst src len k]? = block[src + k]? := by
      have both := bytes (dst + k)
      rw [same, wanted, if_pos (by omega), if_pos (by omega), Nat.add_sub_cancel_left] at both
      exact both.symm
    have shift : origin dst src len k = origin dst src len (k + (src - dst)) := by
      have later : len - 1 - k = len - 1 - (k + (src - dst)) + (src - dst) := by omega
      rw [origin, origin, if_pos before, if_pos before, later, Nat.add_div_right _ (by omega), Nat.mul_succ]
      omega
    rw [← here k (by omega), ← here _ inside, shift]
  · intro repeats
    refine List.ext_getElem? fun i => ?_
    rw [bytes, wanted]
    split
    · next inside =>
      by_cases before : dst < src
      · have below : origin dst src len (i - dst) < len := origin_lt (by omega)
        rw [origin, if_pos before] at below ⊢
        exact getElem?_repeats (repeats before) _ _ below
      · rw [origin, if_neg before]
    · rfl

/-- A copy inside one block never faults and writes nothing but the destination, whose bytes are exactly these. It is
the copy that `memmove` makes when the destination does not start before the source, and else only of bytes that
repeat themselves at the distance. -/
theorem lbsMemcpyWithin_exact (source : src + len ≤ block.length) (room : dst + len ≤ block.length) :
    ∃ after, lbsMemcpyWithin block dst src len = some after ∧ after.length = block.length ∧
      (∀ i, after[i]? =
        if dst ≤ i ∧ i < dst + len then block[src + origin dst src len (i - dst)]? else block[i]?) ∧
      (after = overwrite block dst ((block.drop src).take len) ↔
        (dst < src → ∀ k, k + (src - dst) < len → block[src + k]? = block[src + (k + (src - dst))]?)) := by
  obtain ⟨after, copies, length, bytes⟩ := lbsMemcpyWithinLoop_spec source room
  have outcome : lbsMemcpyWithin block dst src len = some after := copies
  have moved := lbsMemcpyWithin_eq_overwrite_iff source room
  rw [outcome, Option.some_inj] at moved
  exact ⟨after, outcome, length, bytes, moved⟩

/-- A copy by two places to the front leaves the last two bytes again and again. -/
theorem lbsMemcpyWithin_overlapping :
    lbsMemcpyWithin [1, 2, 3, 4, 5, 6] 0 2 4 = some [5, 6, 5, 6, 5, 6] ∧
      ∃ after, lbsMemcpyWithin [1, 2, 3, 4, 5, 6] 0 2 (4 : Nat) = some after ∧ after.length = 6 ∧
        (∀ i, after[i]? =
          if 0 ≤ i ∧ i < 0 + 4 then [1, 2, 3, 4, 5, 6][2 + origin 0 2 4 (i - 0)]? else [1, 2, 3, 4, 5, 6][i]?) ∧
        (after = overwrite [1, 2, 3, 4, 5, 6] 0 (([1, 2, 3, 4, 5, 6].drop 2).take 4) ↔
          (0 < 2 → ∀ k, k + (2 - 0) < 4 →
            ([1, 2, 3, 4, 5, 6] : Bytes)[2 + k]? = ([1, 2, 3, 4, 5, 6] : Bytes)[2 + (k + (2 - 0))]?)) :=
  ⟨by decide, lbsMemcpyWithin_exact (by decide) (by decide)⟩

end Within

section Apart

variable {dst src : Bytes} {offset start len : Nat}

/-- Two blocks are one block in which the places are apart. -/
theorem lbsMemcpyWithinLoop_append (room : offset + len ≤ dst.length) :
    lbsMemcpyWithinLoop offset (dst.length + start) len (dst ++ src) =
      (lbsMemcpyLoop offset src start len dst).map (· ++ src) := by
  induction len generalizing dst with
  | zero => rfl
  | succ len ih =>
      rw [lbsMemcpyWithinLoop, lbsMemcpyLoop, Nat.add_assoc, List.getElem?_append_right (Nat.le_add_right _ _),
        Nat.add_sub_cancel_left]
      cases src[start + len]? with
      | none => rfl
      | some c =>
          dsimp only
          rw [if_pos (by rw [List.length_append]; omega), if_pos (by omega), List.set_append_left _ _ (by omega)]
          have room' : offset + len ≤ (dst.set (offset + len) c).length := by
            rw [List.length_set]
            omega
          have next := ih room'
          rwa [List.length_set] at next

theorem lbsMemcpy_eq (source : start + len ≤ src.length) (room : offset + len ≤ dst.length) :
    lbsMemcpy dst offset src start len = some (overwrite dst offset ((src.drop start).take len)) := by
  have taken : ((src.drop start).take len).length = len := by
    rw [List.length_take, List.length_drop]
    omega
  have source' : dst.length + start + len ≤ (dst ++ src).length := by
    rw [List.length_append]
    omega
  have room' : offset + len ≤ (dst ++ src).length := by
    rw [List.length_append]
    omega
  have both := (lbsMemcpyWithin_eq_overwrite_iff source' room').mpr fun _ k inside => by omega
  rw [← List.drop_drop, List.drop_left, overwrite_append (by rwa [taken])] at both
  obtain ⟨after, copies, same⟩ := Option.map_eq_some_iff.mp ((lbsMemcpyWithinLoop_append room).symm.trans both)
  rw [← List.append_cancel_right same]
  exact copies

theorem lbsMemcpy_of_neg {len : Int} (negative : len < 0) : lbsMemcpy dst offset src start len = none := by
  cases len with
  | ofNat len => exact absurd negative (by simp)
  | negSucc len => rfl

end Apart

theorem lbsStrlen_eq {text : Bytes} (plain : 0 ∉ text) (rest : Bytes) :
    lbsStrlen (text ++ 0 :: rest) = some (BitVec.ofNat 32 text.length) := by
  induction text with
  | nil => rfl
  | cons c text ih =>
      rw [List.mem_cons, not_or] at plain
      rw [List.cons_append, lbsStrlen, if_neg (Ne.symm plain.1), ih plain.2, List.length_cons, BitVec.ofNat_add]
      rfl

end GbfLibrary.Stdlbs
