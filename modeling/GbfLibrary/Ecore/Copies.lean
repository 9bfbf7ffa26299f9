import GbfLibrary.Ecore.ModuleIndex

/-!
# Bounded copies

What `ecore_strcpy` and `ecore_strcat` leave in a buffer of a given size.
-/

set_option autoImplicit false

namespace GbfLibrary.Ecore

open Memory

variable {text dst src : Bytes} {size : Nat}

/-- A copy leaves a string that ends in the buffer. -/
theorem ecoreStrcpyLoop_ends (room : 0 < size) (inside : size ≤ dst.length) (enough : size ≤ src.length + 1) :
    ∃ text rest, ecoreStrcpyLoop size dst src = some (text ++ 0 :: rest) ∧ 0 ∉ text ∧ text.length < size ∧
      (text ++ 0 :: rest).length = dst.length := by
  induction size generalizing dst src with
  | zero => exact absurd room (Nat.lt_irrefl 0)
  | succ size ih =>
      cases dst with
      | nil => simp at inside
      | cons d dst =>
          cases size with
          | zero => exact ⟨[], dst, rfl, List.not_mem_nil, room, rfl⟩
          | succ size =>
              cases src with
              | nil => simp at enough
              | cons c src =>
                  rw [ecoreStrcpyLoop]
                  by_cases zero : c = 0
                  · exact ⟨[], dst, if_pos zero, List.not_mem_nil, room, rfl⟩
                  · obtain ⟨text, rest, copies, plain, short, length⟩ := ih (Nat.succ_pos size)
                      (by simpa using inside) (by simpa using enough)
                    refine ⟨c :: text, rest, ?_, ?_, by simpa using short, by simpa using length⟩
                    · rw [if_neg zero, copies]
                      rfl
                    · rw [List.mem_cons, not_or]
                      exact ⟨Ne.symm zero, plain⟩

theorem ecoreStrcpy_ends (room : 0 < size) (inside : size ≤ dst.length) (enough : size ≤ src.length + 1) :
    ∃ text rest, ecoreStrcpy dst size src = some (text ++ 0 :: rest) ∧ 0 ∉ text ∧ text.length < size ∧
      (text ++ 0 :: rest).length = dst.length := by
  rw [ecoreStrcpy, if_neg (Nat.ne_of_gt room)]
  exact ecoreStrcpyLoop_ends room inside enough

/-- The copy goes on behind the string that is there. -/
theorem ecoreStrcat_eq (plain : 0 ∉ text) (room : text.length < size) (rest : Bytes) :
    ecoreStrcat (text ++ 0 :: rest) size src =
      (ecoreStrcpy (0 :: rest) (size - text.length) src).map (text ++ ·) := by
  rw [ecoreStrcat, if_neg (by omega), ecoreStrcpy, if_neg (by omega)]
  induction text generalizing size with
  | nil =>
      obtain ⟨size, rfl⟩ := Nat.exists_eq_succ_of_ne_zero (show size ≠ 0 by simp at room; omega)
      simp [ecoreStrcatLoop]
  | cons c text ih =>
      rw [List.mem_cons, not_or] at plain
      rw [List.length_cons] at room
      obtain ⟨size, rfl⟩ := Nat.exists_eq_succ_of_ne_zero (show size ≠ 0 by omega)
      rw [List.cons_append, Nat.succ_eq_add_one, ecoreStrcatLoop, if_neg (Ne.symm plain.1),
        ih plain.2 (by omega), Option.map_map, List.length_cons, Nat.add_sub_add_right]
      rfl

/-- The buffer holds the string, up to what fits with a terminating byte, and is as before behind its size. -/
structure Truncated (size : Nat) (dst string after : Bytes) : Prop where
  ends : 0 ∈ after.take size
  text : cString after = string.take (size - 1)
  kept : after.drop size = dst.drop size
  length : after.length = dst.length

theorem truncated_of_eq {string after : Bytes} (plain : 0 ∉ string) (positive : 0 < size) (inside : size ≤ dst.length)
    (same : after = string.take (size - 1) ++ 0 :: dst.drop ((string.take (size - 1)).length + 1)) :
    Truncated size dst string after := by
  have short : (string.take (size - 1)).length < size := by
    rw [List.length_take]
    omega
  have noNul : 0 ∉ string.take (size - 1) := fun member => plain (List.mem_of_mem_take member)
  subst same
  refine ⟨?_, cString_append noNul _, ?_, ?_⟩
  · rw [List.take_append, List.mem_append]
    obtain ⟨more, room⟩ := Nat.exists_eq_succ_of_ne_zero (Nat.sub_ne_zero_of_lt short)
    exact .inr (by rw [room, List.take_succ_cons]; exact List.mem_cons_self)
  · obtain ⟨more, room⟩ := Nat.exists_eq_succ_of_ne_zero (Nat.sub_ne_zero_of_lt short)
    have behind : (string.take (size - 1)).length + 1 + more = size := by omega
    rw [List.drop_append, List.drop_eq_nil_of_le (Nat.le_of_lt short), List.nil_append, room, Nat.succ_eq_add_one,
      List.drop_succ_cons, List.drop_drop, behind]
  · rw [List.length_append, List.length_cons, List.length_drop]
    omega

theorem ecoreStrcpy_truncated (plain : 0 ∉ text) (positive : 0 < size) (inside : size ≤ dst.length) (rest : Bytes) :
    ∃ after, ecoreStrcpy dst size (text ++ 0 :: rest) = some after ∧ Truncated size dst text after :=
  ⟨_, ecoreStrcpy_truncates plain positive inside rest, truncated_of_eq plain positive inside rfl⟩

private theorem ecoreStrcat_truncated (plain : 0 ∉ text) (inside : size ≤ dst.length) (ended : 0 ∈ dst.take size)
    (rest : Bytes) : ∃ after, ecoreStrcat dst size (text ++ 0 :: rest) = some after ∧
      Truncated size dst (cString dst ++ text) after := by
  obtain ⟨old, more, split, noNul⟩ := List.eq_append_cons_of_mem ended
  obtain ⟨tail, whole⟩ : ∃ tail, dst = old ++ 0 :: tail := ⟨more ++ dst.drop size, by
    rw [← List.cons_append, ← List.append_assoc, ← split, List.take_append_drop]⟩
  have short : old.length < size := by
    have length := congrArg List.length split
    rw [List.length_take, List.length_append, List.length_cons] at length
    omega
  subst whole
  rw [cString_append noNul, ecoreStrcat_eq noNul short]
  rw [List.length_append] at inside
  rw [ecoreStrcpy_truncates plain (Nat.sub_pos_of_lt short) (Nat.sub_le_iff_le_add'.mpr inside), Option.map_some]
  refine ⟨_, rfl, truncated_of_eq ?_ (Nat.zero_lt_of_lt short) ?_ ?_⟩
  · rw [List.mem_append, not_or]
    exact ⟨noNul, plain⟩
  · rwa [List.length_append]
  · have room : old.length ≤ size - 1 := Nat.le_sub_one_of_lt short
    have less : size - 1 - old.length = size - old.length - 1 := by omega
    rw [List.take_append, List.take_of_length_le room, less, List.append_assoc, List.length_append]
    rw [Nat.add_assoc, List.drop_length_add_append]

/-- Both copies leave what fits of the string, with a terminating byte. In a buffer that ends at `size` nothing
behind it could be written. -/
theorem ecoreCopies_truncate {text dst : Bytes} {size : Nat} (plain : 0 ∉ text) (positive : 0 < size)
    (inside : size ≤ dst.length) (ended : 0 ∈ dst.take size) (rest : Bytes) :
    (∃ after, ecoreStrcpy dst size (text ++ 0 :: rest) = some after ∧ Truncated size dst text after) ∧
      ∃ after, ecoreStrcat dst size (text ++ 0 :: rest) = some after ∧ Truncated size dst (cString dst ++ text) after :=
  ⟨ecoreStrcpy_truncated plain positive inside rest, ecoreStrcat_truncated plain inside ended rest⟩

theorem ecoreCopies_sample :
    (∃ after, ecoreStrcpy [97, 98, 0, 122, 122] 4 ([120, 121, 122, 119] ++ [0]) = some after ∧
      Truncated 4 [97, 98, 0, 122, 122] [120, 121, 122, 119] after) ∧
        ∃ after, ecoreStrcat [97, 98, 0, 122, 122] 4 ([120, 121, 122, 119] ++ [0]) = some after ∧
          Truncated 4 [97, 98, 0, 122, 122] (cString [97, 98, 0, 122, 122] ++ [120, 121, 122, 119]) after :=
  ecoreCopies_truncate (by decide) (by decide) (by decide) (by decide) []

end GbfLibrary.Ecore
