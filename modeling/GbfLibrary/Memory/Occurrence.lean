import Mathlib.Data.List.Infix

/-!
# The first occurrence

A search for one list in another, which yields the rest of the list from there on.
-/

set_option autoImplicit false

namespace GbfLibrary.Memory

variable {α : Type} {key field rest : List α} {c : α}

/-- An occurrence lies in front of a character that `key` does not have, or behind it. -/
theorem isPrefix_of_notMem (outside : c ∉ key) (here : key <+: field ++ c :: rest) : key <+: field := by
  induction field generalizing key with
  | nil =>
      cases key with
      | nil => exact List.nil_prefix
      | cons k key =>
          obtain ⟨rfl, _⟩ := List.cons_prefix_cons.mp here
          exact absurd List.mem_cons_self outside
  | cons f field ih =>
      cases key with
      | nil => exact List.nil_prefix
      | cons k key =>
          obtain ⟨same, later⟩ := List.cons_prefix_cons.mp here
          exact List.cons_prefix_cons.mpr ⟨same, ih (List.not_mem_of_not_mem_cons outside) later⟩

/-- The first occurrence of `key` lies between these two parts of the text. -/
structure FirstAt (key text front back : List α) : Prop where
  here : text = front ++ (key ++ back)
  first : ∀ front' back', text = front' ++ (key ++ back') → front.length ≤ front'.length

/-- The text without its first character, where the first occurrence is not at its start. -/
theorem FirstAt.tail {text front back : List α} (firstAt : FirstAt key (c :: text) (c :: front) back) :
    FirstAt key text front back where
  here := List.tail_eq_of_cons_eq firstAt.here
  first front' back' same := by
    have earlier := firstAt.first (c :: front') back' (by rw [same, List.cons_append])
    simpa using earlier

theorem exists_firstAt {text : List α} (inside : key <:+: text) : ∃ front back, FirstAt key text front back := by
  induction text with
  | nil =>
      obtain rfl := List.infix_nil.mp inside
      exact ⟨[], [], rfl, fun _ _ _ => Nat.zero_le _⟩
  | cons c text ih =>
      by_cases here : key <+: c :: text
      · obtain ⟨back, whole⟩ := here
        exact ⟨[], back, whole.symm, fun _ _ _ => Nat.zero_le _⟩
      · obtain ⟨front, back, rfl, first⟩ := ih ((List.infix_cons_iff.mp inside).resolve_left here)
        refine ⟨c :: front, back, rfl, fun front' back' same => ?_⟩
        cases front' with
        | nil => exact absurd ⟨back', same.symm⟩ here
        | cons d front' => exact Nat.succ_le_succ (first front' back' (List.tail_eq_of_cons_eq same))

section Search

variable [DecidableEq α]

/-- The list from the first occurrence of `key` on. -/
def fromFirst (key : List α) : List α → Option (List α)
  | [] => if key = [] then some [] else none
  | c :: text => if key <+: c :: text then some (c :: text) else fromFirst key text

theorem fromFirst_here (key rest : List α) : fromFirst key (key ++ rest) = some (key ++ rest) := by
  cases whole : key ++ rest with
  | nil =>
      rw [List.append_eq_nil_iff] at whole
      simp [fromFirst, whole.1]
  | cons c text =>
      rw [fromFirst, if_pos]
      rw [← whole]
      exact List.prefix_append key rest

theorem length_fromFirst_le {text found : List α} (finds : fromFirst key text = some found) :
    found.length ≤ text.length := by
  induction text with
  | nil =>
      rw [fromFirst] at finds
      split at finds <;> cases finds
      exact Nat.le_refl _
  | cons c text ih =>
      rw [fromFirst] at finds
      split at finds
      · cases finds
        exact Nat.le_refl _
      · exact Nat.le_succ_of_le (ih finds)

/-- The search passes over a field that `key` does not occur in, and the character behind it. -/
theorem fromFirst_skip (outside : c ∉ key) (nowhere : ¬ key <:+: field) (rest : List α) :
    fromFirst key (field ++ c :: rest) = fromFirst key rest := by
  induction field with
  | nil =>
      have elsewhere : ¬ key <+: [] ++ c :: rest :=
        fun here => nowhere (isPrefix_of_notMem outside here).isInfix
      rw [List.nil_append] at elsewhere ⊢
      rw [fromFirst, if_neg elsewhere]
  | cons f field ih =>
      have elsewhere : ¬ key <+: f :: field ++ c :: rest :=
        fun here => nowhere (isPrefix_of_notMem outside here).isInfix
      rw [List.cons_append] at elsewhere ⊢
      rw [fromFirst, if_neg elsewhere, ih fun inside => nowhere (List.infix_cons inside)]

theorem fromFirst_eq_none {text : List α} (nowhere : ¬ key <:+: text) : fromFirst key text = none := by
  induction text with
  | nil =>
      rw [List.infix_nil] at nowhere
      exact if_neg nowhere
  | cons c text ih =>
      rw [fromFirst, if_neg fun here => nowhere here.isInfix]
      exact ih fun inside => nowhere (List.infix_cons inside)

theorem FirstAt.fromFirst {text front back : List α} (firstAt : FirstAt key text front back) :
    fromFirst key text = some (key ++ back) := by
  induction front generalizing text with
  | nil =>
      obtain rfl := firstAt.here
      exact fromFirst_here key back
  | cons c front ih =>
      cases text with
      | nil => exact absurd firstAt.here (List.cons_ne_nil _ _).symm
      | cons d text =>
          obtain rfl : d = c := List.head_eq_of_cons_eq firstAt.here
          have later : ¬ key <+: d :: text := by
            rintro ⟨back', same⟩
            exact absurd (firstAt.first [] back' same.symm) (by simp)
          rw [Memory.fromFirst, if_neg later]
          exact ih firstAt.tail

end Search

end GbfLibrary.Memory
