import GbfLibrary.Ecore.Config

/-!
# Copies and searches at their bounds

What `conf_strcpy_end_with_char` leaves in a buffer that is too small, and what `ecore_strstr` makes of an
occurrence at the end of the text.
-/

set_option autoImplicit false

namespace GbfLibrary.Ecore

open Memory

section Copy

variable {needle needle2 c : Byte} {field text dst : Bytes} {size : Nat}

/-- The copy ends at this byte. -/
def Stops (needle needle2 c : Byte) : Prop := c = 0 ∨ c = needle ∨ c = needle2

/-- A field that fits is copied with a terminating byte. -/
theorem confStrcpyEndWithChar_fits (plain : ∀ x ∈ field, ¬ Stops needle needle2 x) (stops : Stops needle needle2 c)
    (room : field.length + 1 < size) (inside : size ≤ dst.length) (rest : Bytes) :
    confStrcpyEndWithChar needle needle2 size dst (field ++ c :: rest) =
      some (field ++ 0 :: dst.drop (field.length + 1)) := by
  induction field generalizing dst size with
  | nil =>
      obtain ⟨size, rfl⟩ : ∃ more, size = more + 2 := ⟨size - 2, by simp at room; omega⟩
      cases dst with
      | nil => simp at inside
      | cons d dst => exact if_pos stops
  | cons x field ih =>
      rw [List.length_cons] at room
      obtain ⟨size, rfl⟩ : ∃ more, size = more + 2 := ⟨size - 2, by omega⟩
      cases dst with
      | nil => simp at inside
      | cons d dst =>
          have goes : ¬ (x = 0 ∨ x = needle ∨ x = needle2) := plain x List.mem_cons_self
          have copies := @ih dst (size + 1) (fun y member => plain y (List.mem_cons_of_mem x member))
            (by omega) (by simpa using inside)
          rw [List.cons_append, confStrcpyEndWithChar, if_neg goes, copies]
          rfl

/-- A field that does not fit is cut, and the last byte of the buffer stays as it was. -/
theorem confStrcpyEndWithChar_full (plain : ∀ x ∈ field, ¬ Stops needle needle2 x)
    (full : size ≤ field.length + 1) (positive : 0 < size) (inside : size ≤ dst.length) (rest : Bytes) :
    confStrcpyEndWithChar needle needle2 size dst (field ++ c :: rest) =
      .some (field.take (size - 1) ++ dst.drop (size - 1)) := by
  induction field generalizing dst size with
  | nil =>
      obtain rfl : size = 1 := by simp at full; omega
      rfl
  | cons x field ih =>
      by_cases last : size = 1
      · subst last
        rfl
      · obtain ⟨size, rfl⟩ : ∃ more, size = more + 2 := ⟨size - 2, by omega⟩
        cases dst with
        | nil => simp at inside
        | cons d dst =>
            have goes : ¬ (x = 0 ∨ x = needle ∨ x = needle2) := plain x List.mem_cons_self
            have copies := @ih dst (size + 1)
              (fun y member => plain y (List.mem_cons_of_mem x member)) (by simpa using full) (Nat.succ_pos size)
              (by simpa using inside)
            rw [List.cons_append, confStrcpyEndWithChar, if_neg goes, copies]
            rfl

/-- The part of a text in front of the first needle. -/
def beforeNeedles (needle needle2 : Byte) (text : Bytes) : Bytes :=
  text.takeWhile fun c => c ≠ needle ∧ c ≠ needle2

/-- A terminated text ends the copy, at a needle or at its end. -/
theorem exists_stop (needle needle2 : Byte) (noNul : 0 ∉ text) :
    (∀ x ∈ beforeNeedles needle needle2 text, ¬ Stops needle needle2 x) ∧
      ∃ c rest, Stops needle needle2 c ∧ text ++ [0] = beforeNeedles needle needle2 text ++ c :: rest := by
  induction text with
  | nil => exact ⟨fun _ member => absurd member List.not_mem_nil, 0, [], .inl rfl, rfl⟩
  | cons x text ih =>
      rw [List.mem_cons, not_or] at noNul
      by_cases goes : x ≠ needle ∧ x ≠ needle2
      · have longer : beforeNeedles needle needle2 (x :: text) = x :: beforeNeedles needle needle2 text :=
          List.takeWhile_cons_of_pos (decide_eq_true goes)
        obtain ⟨plain, c, rest, stops, whole⟩ := ih noNul.2
        rw [longer]
        refine ⟨?_, c, rest, stops, by rw [List.cons_append, whole, List.cons_append]⟩
        rintro y (_ | ⟨_, member⟩)
        · rintro (zero | first | second)
          · exact noNul.1 zero.symm
          · exact goes.1 first
          · exact goes.2 second
        · exact plain y member
      · have empty : beforeNeedles needle needle2 (x :: text) = [] :=
          List.takeWhile_cons_of_neg (by simpa using goes)
        rw [empty]
        refine ⟨fun _ member => absurd member List.not_mem_nil, x, text ++ [0], ?_, rfl⟩
        by_cases first : x = needle
        · exact .inr (.inl first)
        · exact .inr (.inr (not_not.mp fun second => goes ⟨first, second⟩))

/-- The buffer holds this string, and no byte from `size` on has changed. -/
structure Copied (size : Nat) (dst dst' string : Bytes) : Prop where
  string : string ++ [0] <+: dst'
  length : dst'.length = dst.length
  rest : dst'.drop size = dst.drop size

/-- The copy is terminated exactly if it has room for one byte more than it needs, or ends in front of a zero. -/
theorem confStrcpyEndWithChar_iff (needle needle2 : Byte) (text dst : Bytes) (size : Nat) (noNul : 0 ∉ text)
    (positive : 0 < size) (inside : size ≤ dst.length) :
    (∃ dst', confStrcpyEndWithChar needle needle2 size dst (text ++ [0]) = some dst' ∧
      Copied size dst dst' ((beforeNeedles needle needle2 text).take (size - 1))) ↔
        (beforeNeedles needle needle2 text).length + 1 < size ∨ dst[size - 1]? = some 0 := by
  obtain ⟨plain, c, rest, stops, whole⟩ := exists_stop needle needle2 noNul
  rw [whole]
  generalize beforeNeedles needle needle2 text = field at plain
  by_cases room : field.length + 1 < size
  · rw [confStrcpyEndWithChar_fits plain stops room inside, List.take_of_length_le (by omega)]
    refine iff_of_true ⟨_, rfl, ⟨dst.drop (field.length + 1), by simp⟩, ?_, ?_⟩ (.inl room)
    · simp only [List.length_append, List.length_cons, List.length_drop]
      omega
    · rw [List.append_cons, List.drop_append, List.drop_of_length_le (by simp; omega), List.nil_append,
        List.drop_drop, List.length_append, List.length_singleton, Nat.add_sub_cancel' (by omega)]
  · have cut : (field.take (size - 1)).length = size - 1 := by
      rw [List.length_take]
      omega
    rw [confStrcpyEndWithChar_full plain (by omega) positive inside, or_iff_right room]
    have zero : field.take (size - 1) ++ [0] <+: field.take (size - 1) ++ dst.drop (size - 1) ↔
        dst[size - 1]? = some 0 := by
      rw [List.prefix_append_right_inj, List.drop_eq_getElem_cons (by omega), List.cons_prefix_cons,
        List.getElem?_eq_getElem (by omega), Option.some_inj]
      simp [eq_comm]
    constructor
    · rintro ⟨_, ⟨⟩, string, _⟩
      exact zero.mp string
    · intro ends
      refine ⟨_, rfl, zero.mpr ends, ?_, ?_⟩
      · rw [List.length_append, cut, List.length_drop]
        omega
      · rw [List.drop_append, cut, List.drop_of_length_le (by rw [cut]; omega), List.nil_append, List.drop_drop]
        congr 1
        omega

/-- A field of two bytes fits a buffer of four. -/
theorem confStrcpyEndWithChar_iff_fits :
    ∃ dst', confStrcpyEndWithChar 10 13 4 [1, 1, 1, 1, 1] ([97, 98, 13] ++ [0]) = some dst' ∧
      Copied 4 [1, 1, 1, 1, 1] dst' ((beforeNeedles 10 13 [97, 98, 13]).take (4 - 1)) :=
  (confStrcpyEndWithChar_iff 10 13 [97, 98, 13] [1, 1, 1, 1, 1] 4 (by decide) (by decide) (by decide)).mpr
    (.inl (by decide))

/-- The same field in a buffer of three bytes. -/
theorem confStrcpyEndWithChar_unterminated : ¬ ∀ (needle needle2 : Byte) (text dst : Bytes) (size : Nat),
    0 ∉ text → 0 < size → size ≤ dst.length →
      ∃ dst', confStrcpyEndWithChar needle needle2 size dst (text ++ [0]) = some dst' ∧
        Copied size dst dst' ((beforeNeedles needle needle2 text).take (size - 1)) := by
  intro all
  obtain ⟨dst', copies, copied⟩ := all 10 13 [97, 98, 13] [1, 1, 1] 3 (by decide) (by decide) (by decide)
  have leaves : confStrcpyEndWithChar 10 13 3 [1, 1, 1] ([97, 98, 13] ++ [0]) = some [97, 98, 1] := by decide
  obtain rfl := Option.some.inj (leaves.symm.trans copies)
  exact absurd copied.string (by decide)

end Copy

section Search

variable {str substr front back : Bytes}

/-- What a search is to return: a pointer to the first occurrence, and null exactly if there is none. -/
structure FindsFirst (str substr : Bytes) (result : Option (Option Bytes)) : Prop where
  found : ∀ front back, FirstAt substr str front back → result = some (some (substr ++ back ++ [0]))
  null : result = some none ↔ ¬ substr <:+: str

/-- The first occurrence is found exactly if it ends before the text does. The length of the text is an
`unsigned`. -/
theorem ecoreStrstr_iff (str substr : Bytes) (noNul : 0 ∉ str) (nonempty : substr ≠ []) (plain : 0 ∉ substr) :
    FindsFirst str substr ((ecoreStrlen (str ++ [0])).bind fun len : Nat =>
      ecoreStrstr (unsigned (len + 1)) (str ++ [0]) (substr ++ [0])) ↔
        ∀ front back, FirstAt substr str front back → front.length + substr.length < str.length % 4294967296 := by
  have left : unsigned str.length = str.length % 4294967296 := by
    simp only [unsigned]
    omega
  have size : str.length % 4294967296 < 4294967296 := Nat.mod_lt _ (by decide)
  rw [ecoreStrlen_eq noNul [], Option.bind_some, left, ecoreStrstr_eq_filter nonempty plain noNul size]
  by_cases inside : substr <:+: str
  · obtain ⟨front, back, firstAt⟩ := exists_firstAt inside
    have ends : str.length + substr.length < str.length % 4294967296 + (substr ++ back).length ↔
        front.length + substr.length < str.length % 4294967296 := by
      have parts := congrArg List.length firstAt.here
      simp only [List.length_append] at parts ⊢
      omega
    rw [firstAt.fromFirst, Option.filter_some]
    simp only [decide_eq_true_eq, ends]
    constructor
    · rintro ⟨found, _⟩ front' back' other
      have same : front'.length = front.length :=
        Nat.le_antisymm (other.first front back firstAt.here) (firstAt.first front' back' other.here)
      rw [same]
      by_contra late
      have finds := found front back firstAt
      rw [if_neg late] at finds
      cases finds
    · intro early
      rw [if_pos (early front back firstAt)]
      refine ⟨?_, iff_of_false (fun null => Option.some_ne_none _ (Option.some.inj null)) (not_not.mpr inside)⟩
      intro front' back' other
      rw [Option.map_some, ← Option.some.inj (firstAt.fromFirst.symm.trans other.fromFirst)]
  · rw [fromFirst_eq_none inside]
    have nowhere : ∀ front back, ¬ FirstAt substr str front back := by
      rintro front back ⟨rfl, _⟩
      exact inside ⟨front, back, List.append_assoc ..⟩
    exact iff_of_true ⟨fun front back firstAt => absurd firstAt (nowhere front back), iff_of_true rfl inside⟩
      fun front back firstAt => absurd firstAt (nowhere front back)

/-- `ab` in front of the end of `cab-`. -/
theorem ecoreStrstr_iff_inside :
    FindsFirst [99, 97, 98, 45] [97, 98] ((ecoreStrlen ([99, 97, 98, 45] ++ [0])).bind fun len : Nat =>
      ecoreStrstr (unsigned (len + 1)) ([99, 97, 98, 45] ++ [0]) ([97, 98] ++ [0])) := by
  refine (ecoreStrstr_iff [99, 97, 98, 45] [97, 98] (by decide) (by decide) (by decide)).mpr ?_
  intro front back firstAt
  have early := firstAt.first [99] [45] rfl
  simp only [List.length_cons, List.length_nil] at early ⊢
  omega

/-- `ab` at the end of `cab`. -/
theorem ecoreStrstr_misses : ¬ ∀ str substr : Bytes, 0 ∉ str → substr ≠ [] → 0 ∉ substr →
    FindsFirst str substr ((ecoreStrlen (str ++ [0])).bind fun len : Nat =>
      ecoreStrstr (unsigned (len + 1)) (str ++ [0]) (substr ++ [0])) := by
  intro all
  have finds := all [99, 97, 98] [97, 98] (by decide) (by decide) (by decide)
  exact finds.null.mp (by decide) ⟨[99], [], rfl⟩

end Search

end GbfLibrary.Ecore
