import GbfLibrary.Memory.Block
import GbfLibrary.Memory.Occurrence

/-!
# Strings

`sys.c`. A `const char*` is the list of bytes from there on, up to the end of the block. An
access behind the end is a fault. Sizes are `unsigned`.
-/

set_option autoImplicit false

namespace GbfLibrary.Ecore

open Memory

def ecoreStrlen : Bytes → Option Nat
  | [] => none
  | c :: str => if c = 0 then some 0 else (ecoreStrlen str).map fun len : Nat => unsigned (len + 1)

/-- The inner loop of `ecore_strstr`: whether it returns. -/
def agrees : Nat → Bytes → Bytes → Option Bool
  | len, l :: ls, k :: s =>
      if l = k then
        let len := unsigned (len - 1)
        if len = 0 then some false
        else do
          let c ← s.head?
          if c = 0 then some true else agrees len ls s
      else some false
  | _, _, _ => none

/-- `ecore_strstr`; a null pointer is `some none`. -/
def ecoreStrstr : Nat → Bytes → Bytes → Option (Option Bytes)
  | _, [], _ => none
  | size, c :: str, substr =>
      if c = 0 then some none
      else
        let size := unsigned (size - 1)
        if size = 0 then some none
        else do
          let here ← agrees size (c :: str) substr
          if here then some (some (c :: str)) else ecoreStrstr size str substr

/-- The loop of `ecore_strcpy` and the store after it, with `size` bytes of the target left. -/
def ecoreStrcpyLoop : Nat → Bytes → Bytes → Option Bytes
  | 1, _ :: dst, _ => some (0 :: dst)
  | size + 2, _ :: dst, c :: src =>
      if c = 0 then some (0 :: dst) else (ecoreStrcpyLoop (size + 1) dst src).map (c :: ·)
  | _, _, _ => none

/-- `ecore_strcpy`: what is in `dst` afterwards. -/
def ecoreStrcpy (dst : Bytes) (size : Nat) (src : Bytes) : Option Bytes :=
  if size = 0 then some dst else ecoreStrcpyLoop size dst src

/-- `ecore_strcmp`. -/
def ecoreStrcmp : Bytes → Bytes → Nat → Option Byte
  | [], _, size => if unsigned (size - 1) = 0 then some 0 else none
  | c :: s1, s2, size =>
      let size := unsigned (size - 1)
      if size = 0 ∨ c = 0 then some 0
      else match s2 with
        | [] => none
        | d :: s2 =>
            if d = 0 then some 0
            else
              let ret := c - d
              if ret ≠ 0 then some (-1) else ecoreStrcmp s1 s2 size

/-- The first loop of `ecore_strcat`, and the loop of `ecore_strcpy` from there on. -/
def ecoreStrcatLoop : Nat → Bytes → Bytes → Option Bytes
  | 0, dst, str => ecoreStrcpyLoop 4294967296 dst str
  | _ + 1, [], _ => none
  | size + 1, c :: dst, str =>
      if c = 0 then ecoreStrcpyLoop (size + 1) (c :: dst) str
      else (ecoreStrcatLoop size dst str).map (c :: ·)

/-- `ecore_strcat`: what is in `dst` afterwards. -/
def ecoreStrcat (dst : Bytes) (size : Nat) (str : Bytes) : Option Bytes :=
  if size = 0 then some dst else ecoreStrcatLoop size dst str

/-- The text behind the pointer, up to the terminating byte. -/
theorem ecoreStrlen_eq {text : Bytes} (plain : 0 ∉ text) (rest : Bytes) :
    ecoreStrlen (text ++ 0 :: rest) = some (unsigned text.length) := by
  induction text with
  | nil => rfl
  | cons c text ih =>
      rw [List.mem_cons, not_or] at plain
      rw [List.cons_append, ecoreStrlen, if_neg (Ne.symm plain.1), ih plain.2, Option.map_some]
      simp only [unsigned, List.length_cons]
      congr 1
      omega

theorem ecoreStrlen_none {text : Bytes} (noNul : 0 ∉ text) : ecoreStrlen text = none := by
  induction text with
  | nil => rfl
  | cons c text ih =>
      obtain ⟨here, behind⟩ := not_or.mp (mt List.mem_cons.mpr noNul)
      rw [ecoreStrlen, if_neg (Ne.symm here), ih behind, Option.map_none]

/-- The inner loop finds the string if it ends before the last byte that may be compared. -/
theorem agrees_eq {key text : Bytes} {len : Nat} (nonempty : key ≠ []) (plain : 0 ∉ key) (positive : 0 < len)
    (short : len < 4294967296) :
    agrees len (text ++ [0]) (key ++ [0]) = some (decide (key <+: text ∧ key.length < len)) := by
  induction key generalizing text len with
  | nil => exact absurd rfl nonempty
  | cons k key ih =>
      rw [List.mem_cons, not_or] at plain
      cases text with
      | nil =>
          rw [List.nil_append, List.cons_append, agrees, if_neg plain.1]
          simp
      | cons c text =>
          by_cases same : c = k
          · subst same
            have left : unsigned (len - 1) = len - 1 := unsigned_eq (by omega) (by omega)
            simp only [List.cons_append, agrees, if_true, left]
            by_cases last : len = 1
            · subst last
              simp
            · rw [if_neg (by omega)]
              cases key with
              | nil =>
                  have more : 1 < len := by omega
                  simp [more]
              | cons next key =>
                  have good : next ≠ 0 := fun zero => plain.2 (by simp [zero])
                  have rest := @ih text (len - 1) (List.cons_ne_nil next key) plain.2 (show 0 < len - 1 by omega)
                    (by omega)
                  simp only [List.cons_append, List.head?_cons, Option.bind_eq_bind, Option.bind_some]
                  rw [if_neg good, ← List.cons_append, rest]
                  simp only [List.cons_prefix_cons, List.length_cons, true_and, Nat.lt_sub_iff_add_lt]
          · have differs : ¬ k :: key <+: c :: text :=
              fun here => same (List.cons_prefix_cons.mp here).1.symm
            simp [agrees, same, differs]

/-- What `ecore_strstr` finds: the first occurrence, if it ends before the last one of the bytes to look at. -/
theorem ecoreStrstr_eq_filter {key text : Bytes} {left : Nat} (nonempty : key ≠ []) (plain : 0 ∉ key)
    (good : 0 ∉ text) (short : left < 4294967296) :
    ecoreStrstr (unsigned (left + 1)) (text ++ [0]) (key ++ [0]) =
      some (((fromFirst key text).filter fun found => text.length + key.length < left + found.length).map
        (· ++ [0])) := by
  induction text generalizing left with
  | nil => simp [ecoreStrstr, fromFirst, nonempty]
  | cons c text ih =>
      rw [List.mem_cons, not_or] at good
      have size : unsigned (unsigned (left + 1) - 1) = left := by
        simp only [unsigned]
        omega
      rw [List.cons_append, ecoreStrstr, if_neg (Ne.symm good.1), fromFirst]
      simp only [size]
      by_cases zero : left = 0
      · subst zero
        have nothing : ∀ found, (if key <+: c :: text then some (c :: text) else fromFirst key text) = some found →
            ¬ (c :: text).length + key.length < 0 + found.length := by
          intro found finds
          have here : fromFirst key (c :: text) = some found := finds
          have shorter := length_fromFirst_le here
          omega
        rw [if_pos rfl, Option.filter_eq_none_iff.mpr (by simpa using nothing)]
        rfl
      · obtain ⟨left, rfl⟩ := Nat.exists_eq_succ_of_ne_zero zero
        have later := ih good.2 (show left < 4294967296 by omega)
        have next : unsigned (left + 1) = left + 1 := unsigned_eq (by omega) (by omega)
        rw [next] at later
        rw [if_neg zero, ← List.cons_append, agrees_eq nonempty plain (Nat.pos_of_ne_zero zero) short,
          Option.bind_eq_bind, Option.bind_some, Nat.succ_eq_add_one, later]
        by_cases here : key <+: c :: text
        · by_cases more : key.length < left + 1
          · have inside : (c :: text).length + key.length < left + 1 + (c :: text).length := by omega
            simp only [here, more, and_self, decide_true, if_true, Option.filter_some, inside, Option.map_some]
          · have nothing : (fromFirst key text).filter
                (fun found => text.length + key.length < left + found.length) = none := by
              rw [Option.filter_eq_none_iff]
              intro found finds longer
              have shorter := length_fromFirst_le finds
              simp only [decide_eq_true_eq] at longer
              omega
            have outside : ¬ (c :: text).length + key.length < left + 1 + (c :: text).length := by omega
            simp only [here, more, and_false, decide_false, Bool.false_eq_true, if_true, if_false, nothing,
              Option.filter_some, outside]
        · have same : ∀ found : Bytes, (c :: text).length + key.length < left + 1 + found.length ↔
              text.length + key.length < left + found.length := by
            intro found
            rw [List.length_cons]
            omega
          simp only [here, false_and, decide_false, Bool.false_eq_true, if_false, same]

/-- All of a text is looked at: the first occurrence is found, unless it is at the very end. -/
theorem ecoreStrstr_eq {key text : Bytes} (nonempty : key ≠ []) (plain : 0 ∉ key) (good : 0 ∉ text)
    (short : text.length < 4294967296) :
    ecoreStrstr (unsigned (text.length + 1)) (text ++ [0]) (key ++ [0]) =
      some (((fromFirst key text).filter fun found => key.length < found.length).map (· ++ [0])) := by
  rw [ecoreStrstr_eq_filter nonempty plain good short]
  simp only [Nat.add_lt_add_iff_left]

/-- Two strings compare as equal as soon as one of them ends. -/
theorem ecoreStrcmp_eq {text text2 : Bytes} {size : Nat} (plain : 0 ∉ text) (plain2 : 0 ∉ text2)
    (room : text.length < size) (short : size ≤ 4294967296) (rest rest2 : Bytes) :
    ecoreStrcmp (text ++ 0 :: rest) (text2 ++ 0 :: rest2) size =
      some (if text <+: text2 ∨ text2 <+: text then 0 else -1) := by
  induction text generalizing text2 size with
  | nil => simp [ecoreStrcmp]
  | cons c text ih =>
      rw [List.mem_cons, not_or] at plain
      rw [List.length_cons] at room
      have left : unsigned (size - 1) = size - 1 := unsigned_eq (by omega) (by omega)
      have goes : ¬ (size - 1 = 0 ∨ c = 0) := by
        rintro (last | zero)
        · omega
        · exact plain.1 zero.symm
      cases text2 with
      | nil =>
          rw [List.cons_append, List.nil_append, ecoreStrcmp]
          simp [left]
      | cons d text2 =>
          rw [List.mem_cons, not_or] at plain2
          rw [List.cons_append, List.cons_append, ecoreStrcmp]
          simp only [left, if_neg goes, if_neg (Ne.symm plain2.1), List.cons_prefix_cons]
          by_cases same : c = d
          · subst same
            have later := ih plain.2 plain2.2 (show text.length < size - 1 by omega) (by omega)
            simpa using later
          · have differs : ¬ c - d = 0#8 := fun zero => same (by bv_omega)
            simp [differs, same, Ne.symm same]

/-- Of a string that does not fit with its terminating byte the end is left out. -/
theorem ecoreStrcpy_truncates {text dst : Bytes} {size : Nat} (plain : 0 ∉ text) (positive : 0 < size)
    (inside : size ≤ dst.length) (rest : Bytes) : ecoreStrcpy dst size (text ++ 0 :: rest) =
      some (text.take (size - 1) ++ 0 :: dst.drop ((text.take (size - 1)).length + 1)) := by
  rw [ecoreStrcpy, if_neg (Nat.ne_of_gt positive)]
  induction text generalizing dst size with
  | nil =>
      obtain ⟨size, rfl⟩ := Nat.exists_eq_succ_of_ne_zero (Nat.ne_of_gt positive)
      cases dst with
      | nil => simp at inside
      | cons d dst => cases size <;> simp [ecoreStrcpyLoop]
  | cons c text ih =>
      rw [List.mem_cons, not_or] at plain
      obtain ⟨size, rfl⟩ := Nat.exists_eq_succ_of_ne_zero (Nat.ne_of_gt positive)
      cases dst with
      | nil => simp at inside
      | cons d dst =>
          cases size with
          | zero => rfl
          | succ size =>
              have copies := ih plain.2 (Nat.succ_pos size) (show size + 1 ≤ dst.length by simpa using inside)
              rw [List.cons_append, ecoreStrcpyLoop, if_neg (Ne.symm plain.1), copies]
              rfl

/-- A string that fits is copied with its terminating byte. -/
theorem ecoreStrcpy_eq {text dst : Bytes} {size : Nat} (plain : 0 ∉ text) (room : text.length < size)
    (inside : size ≤ dst.length) (rest : Bytes) :
    ecoreStrcpy dst size (text ++ 0 :: rest) = some (text ++ 0 :: dst.drop (text.length + 1)) := by
  rw [ecoreStrcpy_truncates plain (Nat.zero_lt_of_lt room) inside, List.take_of_length_le (by omega)]

end GbfLibrary.Ecore
