import GbfLibrary.Memory.Block

/-!
# Comparing strings

`lbs_strcmp` of `stdlbs.c`. A `const char*` is the list of bytes from there on, up to the end of the block; reading
behind the end is a fault.
-/

set_option autoImplicit false

namespace GbfLibrary.Stdlbs

open Memory

def LBS_TRUE : Int := 1

def LBS_FALSE : Int := 0

def LBS_MAX_U32 : Nat := 4294967295

/-- The loop of `lbs_strcmp`: `ret` after it. -/
def lbsStrcmpLoop : Nat → Bytes → Bytes → Option Int
  | realMax, c :: s1, d :: s2 =>
      let ret := (c.toNat : Int) - d.toNat
      if ret = 0 ∧ d ≠ 0 ∧ c ≠ 0 ∧ realMax ≠ 0 then lbsStrcmpLoop (realMax - 1) s1 s2 else some ret
  | _, _, _ => none

def lbsStrcmp (s1 s2 : Bytes) (max : Int) : Option Int := do
  let realMax := if max > 0 then unsigned max else LBS_MAX_U32
  let ret ← lbsStrcmpLoop realMax s1 s2
  if ret < 0 then return LBS_FALSE
  else if ret > 0 then return LBS_FALSE
  else return ret

/-- What the comparison is for: whether the strings agree up to `max`, told from the bytes before `max` alone. A
block that ends there is enough for it. -/
structure Compares (text1 text2 rest1 rest2 : Bytes) (max : Nat) : Prop where
  agree : text1.take max = text2.take max → lbsStrcmp (text1 ++ 0 :: rest1) (text2 ++ 0 :: rest2) max = some LBS_TRUE
  differ : text1.take max ≠ text2.take max → lbsStrcmp (text1 ++ 0 :: rest1) (text2 ++ 0 :: rest2) max = some LBS_FALSE
  bounded : lbsStrcmp ((text1 ++ 0 :: rest1).take max) ((text2 ++ 0 :: rest2).take max) max =
    lbsStrcmp (text1 ++ 0 :: rest1) (text2 ++ 0 :: rest2) max

section Loop

variable {text1 text2 s1 s2 : Bytes} {n : Nat} {ret : Int}

private theorem sub_toNat_eq_zero {c d : Byte} : (c.toNat : Int) - d.toNat = 0 ↔ c = d := by
  rw [Int.sub_eq_zero, Int.natCast_inj, BitVec.toNat_inj]

private theorem lbsStrcmpLoop_returns (text1 text2 rest1 rest2 : Bytes) (n : Nat) :
    ∃ ret, lbsStrcmpLoop n (text1 ++ 0 :: rest1) (text2 ++ 0 :: rest2) = some ret := by
  induction text1 generalizing text2 n with
  | nil => cases text2 <;> simp [lbsStrcmpLoop]
  | cons c text1 ih =>
      cases text2 with
      | nil => simp [lbsStrcmpLoop]
      | cons d text2 =>
          simp only [lbsStrcmpLoop, List.cons_append]
          split
          · exact ih text2 (n - 1)
          · exact ⟨_, rfl⟩

private theorem lbsStrcmpLoop_of_differ (plain1 : 0 ∉ text1) (plain2 : 0 ∉ text2) (differ : text1.take n ≠ text2.take n)
    (rest1 rest2 : Bytes) :
    ∃ ret, lbsStrcmpLoop n ((text1 ++ 0 :: rest1).take n) ((text2 ++ 0 :: rest2).take n) = some ret := by
  induction n generalizing text1 text2 with
  | zero => exact absurd rfl differ
  | succ n ih =>
      cases text1 with
      | nil => cases text2 <;> simp [lbsStrcmpLoop]
      | cons c text1 =>
          cases text2 with
          | nil => simp [lbsStrcmpLoop]
          | cons d text2 =>
              rw [List.mem_cons, not_or] at plain1 plain2
              simp only [List.cons_append, List.take_succ_cons, lbsStrcmpLoop, sub_toNat_eq_zero, Nat.add_sub_cancel]
              split
              · next goes =>
                obtain ⟨rfl, _⟩ := goes
                apply ih plain1.2 plain2.2
                intro same
                exact differ (by rw [List.take_succ_cons, List.take_succ_cons, same])
              · exact ⟨_, rfl⟩

/-- The code never returns `LBS_TRUE`. -/
theorem lbsStrcmp_of_loop {max : Int}
    (returns : lbsStrcmpLoop (if max > 0 then unsigned max else LBS_MAX_U32) s1 s2 = some ret) :
    lbsStrcmp s1 s2 max = some LBS_FALSE := by
  simp only [lbsStrcmp, returns, Option.bind_eq_bind, Option.bind_some]
  split
  · rfl
  · split
    · rfl
    · next notLess notMore =>
      obtain rfl : ret = 0 := by omega
      rfl

private theorem lbsStrcmp_eq (text1 text2 rest1 rest2 : Bytes) (max : Int) :
    lbsStrcmp (text1 ++ 0 :: rest1) (text2 ++ 0 :: rest2) max = some LBS_FALSE := by
  obtain ⟨ret, returns⟩ := lbsStrcmpLoop_returns text1 text2 rest1 rest2
    (if max > 0 then unsigned max else LBS_MAX_U32)
  exact lbsStrcmp_of_loop returns

end Loop

/-- The comparison does what it is for on strings that differ before the bound, and on no others. -/
theorem lbsStrcmp_compares_iff {text1 text2 : Bytes} {max : Nat} (plain1 : 0 ∉ text1) (plain2 : 0 ∉ text2)
    (positive : 1 ≤ max) (isInt : max < 2147483648) (rest1 rest2 : Bytes) :
    Compares text1 text2 rest1 rest2 max ↔ text1.take max ≠ text2.take max := by
  have returns := lbsStrcmp_eq text1 text2 rest1 rest2 max
  constructor
  · intro compares same
    have accepted := compares.agree same
    rw [returns] at accepted
    exact absurd accepted (by decide)
  · intro differ
    refine ⟨fun same => absurd same differ, fun _ => returns, ?_⟩
    obtain ⟨ret, loops⟩ := lbsStrcmpLoop_of_differ plain1 plain2 differ rest1 rest2
    have bound : (if (max : Int) > 0 then unsigned max else LBS_MAX_U32) = max := by
      rw [if_pos (by omega), unsigned_eq rfl (by omega)]
    rw [lbsStrcmp_of_loop (by rw [bound, loops]), returns]

theorem lbsStrcmp_compares_sample : Compares [97, 98] [97, 99] [] [7] 2 ↔ [97, 98].take 2 ≠ ([97, 99] : Bytes).take 2 :=
  lbsStrcmp_compares_iff (by decide) (by decide) (by decide) (by decide) [] [7]

/-- Equal strings are said to differ, and the byte behind the bound is read. -/
theorem lbsStrcmp_equal_differs : lbsStrcmp [97, 0] [97, 0] 1 = some LBS_FALSE ∧
    lbsStrcmp ([97, 0].take 1) ([97, 0].take 1) 1 = none ∧ ¬ Compares [97] [97] [] [] 1 := by
  refine ⟨by decide, by decide, fun compares => ?_⟩
  have accepted := compares.agree rfl
  revert accepted
  decide

end GbfLibrary.Stdlbs
