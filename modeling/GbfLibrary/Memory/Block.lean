import Mathlib.Data.List.Basic
import Mathlib.Data.List.TakeDrop

/-!
# Blocks of bytes

Copies out of a block and into one, and the words that bytes make up. Everything outside a
block is a fault.
-/

set_option autoImplicit false

namespace GbfLibrary.Memory

abbrev Byte := BitVec 8
abbrev Bytes := List Byte

/-- An integer as an `unsigned` of 32 bits. -/
def unsigned (x : Int) : Nat := (x % 4294967296).toNat

/-- An integer as an `int` of 32 bits. -/
def signed (x : Int) : Int := (x + 2147483648) % 4294967296 - 2147483648

theorem unsigned_of_lt {x : Int} (low : 0 ≤ x) (high : x < 4294967296) : unsigned x = x.toNat := by
  rw [unsigned, Int.emod_eq_of_lt low high]

theorem unsigned_eq {x : Int} {n : Nat} (same : x = n) (small : n < 4294967296) : unsigned x = n := by
  rw [unsigned_of_lt (by omega) (by omega), same, Int.toNat_natCast]

theorem natCast_unsigned (x : Int) : (unsigned x : Int) = x % 4294967296 := by
  rw [unsigned, Int.toNat_of_nonneg (Int.emod_nonneg _ (by decide))]

/-- Only the difference of two unsigned numbers matters. -/
theorem unsigned_sub_unsigned (x y : Int) : unsigned ((unsigned x : Int) - unsigned y) = unsigned (x - y) := by
  rw [natCast_unsigned, natCast_unsigned, unsigned, ← Int.sub_emod, unsigned]

theorem signed_of_lt {x : Int} (low : -2147483648 ≤ x) (high : x < 2147483648) : signed x = x := by
  rw [signed, Int.emod_eq_of_lt (by omega) (by omega)]
  omega

theorem signed_eq {x y : Int} (same : x = y) (low : -2147483648 ≤ y) (high : y < 2147483648) : signed x = y := by
  rw [same, signed_of_lt low high]

/-- The word of four bytes, the lowest first. -/
def wordAt (bytes : Bytes) (offset : Nat) : BitVec 32 :=
  bytes.getD (offset + 3) 0 ++ bytes.getD (offset + 2) 0 ++ bytes.getD (offset + 1) 0 ++
    bytes.getD offset 0

def ofWord (word : BitVec 32) : Bytes :=
  [word.extractLsb' 0 8, word.extractLsb' 8 8, word.extractLsb' 16 8, word.extractLsb' 24 8]

/-- `memcpy` out of a block. -/
def read (block : Bytes) (offset : Int) (count : Nat) : Option Bytes :=
  if 0 ≤ offset ∧ offset + count ≤ block.length then some ((block.drop offset.toNat).take count)
  else none

/-- `memcpy` into a block of this capacity. -/
def fit (capacity offset : Nat) (bytes : Bytes) : Option Bytes :=
  if offset + bytes.length ≤ capacity then some bytes else none

theorem read_nat {block : Bytes} {offset count : Nat} (inside : offset + count ≤ block.length) :
    read block offset count = some ((block.drop offset).take count) := by
  rw [read, if_pos ⟨Int.natCast_nonneg _, by omega⟩, Int.toNat_natCast]

theorem read_negative {block : Bytes} {offset : Int} {count : Nat} (outside : offset < 0) :
    read block offset count = none := by
  rw [read, if_neg (by omega)]

theorem length_of_read {block bytes : Bytes} {offset : Int} {count : Nat}
    (reads : read block offset count = some bytes) : bytes.length = count := by
  rw [read] at reads
  split at reads
  · cases reads
    rw [List.length_take, List.length_drop]
    omega
  · cases reads

theorem eq_of_read {block bytes : Bytes} {offset : Int} {count : Nat}
    (reads : read block offset count = some bytes) : bytes = (block.drop offset.toNat).take count := by
  simp only [read, Option.ite_none_right_eq_some] at reads
  exact (Option.some.inj reads.2).symm

theorem le_of_read {block bytes : Bytes} {offset : Int} {count : Nat}
    (reads : read block offset count = some bytes) : 0 ≤ offset ∧ offset + count ≤ block.length := by
  simp only [read, Option.ite_none_right_eq_some] at reads
  exact reads.1

theorem le_of_fit {capacity offset : Nat} {bytes all : Bytes} (fits : fit capacity offset bytes = some all) :
    offset + bytes.length ≤ capacity ∧ all = bytes := by
  simp only [fit, Option.ite_none_right_eq_some] at fits
  exact ⟨fits.1, (Option.some.inj fits.2).symm⟩

theorem fit_of_lt {capacity offset : Nat} {bytes : Bytes} (full : capacity < offset + bytes.length) :
    fit capacity offset bytes = none :=
  if_neg (Nat.not_le.mpr full)

theorem fit_of_le {capacity offset : Nat} {bytes : Bytes} (room : offset + bytes.length ≤ capacity) :
    fit capacity offset bytes = some bytes :=
  if_pos room

/-- A block with these bytes in it from an offset on. -/
def overwrite (block : Bytes) (offset : Nat) (bytes : Bytes) : Bytes :=
  block.take offset ++ bytes ++ block.drop (offset + bytes.length)

section Overwrite

variable {block bytes : Bytes} {offset : Nat}

theorem length_overwrite (inside : offset + bytes.length ≤ block.length) :
    (overwrite block offset bytes).length = block.length := by
  rw [overwrite, List.length_append, List.length_append, List.length_take, List.length_drop]
  omega

theorem getElem?_overwrite (inside : offset + bytes.length ≤ block.length) (i : Nat) :
    (overwrite block offset bytes)[i]? =
      if offset ≤ i ∧ i < offset + bytes.length then bytes[i - offset]? else block[i]? := by
  have front : (block.take offset).length = offset := List.length_take_of_le (by omega)
  rw [overwrite, List.append_assoc]
  by_cases before : i < offset
  · rw [if_neg (by omega), List.getElem?_append_left (by omega), List.getElem?_take_of_lt before]
  · rw [List.getElem?_append_right (by omega), front]
    by_cases here : i < offset + bytes.length
    · rw [if_pos ⟨by omega, here⟩, List.getElem?_append_left (by omega)]
    · rw [if_neg (by omega), List.getElem?_append_right (by omega), List.getElem?_drop]
      congr 1
      omega

theorem take_overwrite (inside : offset ≤ block.length) :
    (overwrite block offset bytes).take (offset + bytes.length) = block.take offset ++ bytes := by
  have front : (block.take offset ++ bytes).length = offset + bytes.length := by
    rw [List.length_append, List.length_take_of_le inside]
  rw [overwrite, ← front, List.take_left]

theorem overwrite_eq_append (whole : offset + bytes.length = block.length) :
    overwrite block offset bytes = block.take offset ++ bytes := by
  rw [overwrite, whole, List.drop_length, List.append_nil]

theorem overwrite_append (inside : offset + bytes.length ≤ block.length) (rest : Bytes) :
    overwrite (block ++ rest) offset bytes = overwrite block offset bytes ++ rest := by
  rw [overwrite, overwrite, List.take_append_of_le_length (by omega), List.drop_append_of_le_length inside,
    List.append_assoc _ _ rest]

end Overwrite

end GbfLibrary.Memory
