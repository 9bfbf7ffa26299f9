import Mathlib.Data.List.Basic
import Mathlib.Data.Option.Defs

/-!
# Runs

Systems that take labelled steps. A label says who takes which step and what is
answered, so that a step is a partial function of the state.
-/

set_option autoImplicit false

namespace GbfLibrary.Systems

variable {L M S T : Type}

/-- The member of a group of one. -/
def only : Fin 1 := 0

/-- The steps of a run, one after the other. -/
def run (next : L → S → Option S) : List L → S → Option S
  | [], s => some s
  | a :: as, s => (next a s).bind (run next as)

/-- Every step of a run meets a condition on its label and on the state before
it. -/
def Meets (next : L → S → Option S) (condition : L → S → Prop) : List L → S → Prop
  | [], _ => True
  | a :: as, s => condition a s ∧ ∀ s', next a s = some s' → Meets next condition as s'

/-- A condition that can be decided can be decided along a run. -/
instance decidableMeets (next : L → S → Option S) (condition : L → S → Prop)
    [∀ a s, Decidable (condition a s)] : (as : List L) → (s : S) → Decidable (Meets next condition as s)
  | [], _ => .isTrue trivial
  | a :: as, s =>
      match here : next a s with
      | none => decidable_of_iff (condition a s) (by simp [Meets, here])
      | some s' =>
          have := decidableMeets next condition as s'
          decidable_of_iff (condition a s ∧ Meets next condition as s') (by simp [Meets, here])

/-- What a step that shows as `shown` in another system has to be there: a step
that leads to a related state, or nothing. -/
def Matches (other : M → T → Option T) (R : S → T → Prop) (shown : Option M) (s' : S) (t : T) : Prop :=
  match shown with
  | none => R s' t
  | some b => ∃ t', other b t = some t' ∧ R s' t'

section Runs

variable {next : L → S → Option S} {condition : L → S → Prop} {P : S → Prop} {s s' : S} {a : L}
  {as bs : List L}

@[simp] theorem run_nil (next : L → S → Option S) (s : S) : run next [] s = some s := rfl

theorem run_cons : run next (a :: as) s = some s' ↔
    ∃ between, next a s = some between ∧ run next as between = some s' := by
  simp [run, Option.bind_eq_some_iff]

theorem run_append : run next (as ++ bs) s = some s' ↔
    ∃ between, run next as s = some between ∧ run next bs between = some s' := by
  induction as generalizing s with
  | nil => simp
  | cons a as ih =>
      simp only [List.cons_append, run_cons, ih]
      constructor
      · rintro ⟨first, here, between, front, back⟩
        exact ⟨between, ⟨first, here, front⟩, back⟩
      · rintro ⟨between, ⟨first, here, front⟩, back⟩
        exact ⟨first, here, between, front, back⟩

/-- What every step keeps under a condition holds after a run whose steps meet
the condition. -/
theorem run_invariant_of_meets
    (keeps : ∀ a s s', P s → condition a s → next a s = some s' → P s')
    (start : P s) (meets : Meets next condition as s) (runs : run next as s = some s') : P s' := by
  induction as generalizing s with
  | nil =>
      cases runs
      exact start
  | cons a as ih =>
      obtain ⟨between, here, rest⟩ := run_cons.mp runs
      obtain ⟨allowed, later⟩ := meets
      exact ih (keeps a s between start allowed here) (later between here) rest

/-- What every step keeps at the cost of one of the steps that were allowed for holds after a run
whose steps meet the condition. -/
theorem run_counted_of_meets {P : Nat → S → Prop}
    (keeps : ∀ n a s s', P (n + 1) s → condition a s → next a s = some s' → P n s')
    (start : P as.length s) (meets : Meets next condition as s) (runs : run next as s = some s') : P 0 s' := by
  induction as generalizing s with
  | nil =>
      cases runs
      exact start
  | cons a as ih =>
      obtain ⟨between, here, rest⟩ := run_cons.mp runs
      obtain ⟨allowed, later⟩ := meets
      exact ih (keeps as.length a s between start allowed here) (later between here) rest

/-- What every step keeps holds after every run. -/
theorem run_invariant (keeps : ∀ a s s', P s → next a s = some s' → P s') (start : P s)
    (runs : run next as s = some s') : P s' := by
  induction as generalizing s with
  | nil =>
      cases runs
      exact start
  | cons a as ih =>
      obtain ⟨between, here, rest⟩ := run_cons.mp runs
      exact ih (keeps a s between start here) rest

/-- A run whose steps meet a condition is a run of another system if every such step is a
step of the other or does not show there. -/
theorem run_simulation_of_meets {other : M → T → Option T} {project : L → Option M} {R : S → T → Prop}
    {t : T}
    (forward : ∀ a s s' t, R s t → condition a s → next a s = some s' → Matches other R (project a) s' t)
    (start : R s t) (meets : Meets next condition as s) (runs : run next as s = some s') :
    ∃ t', run other (as.filterMap project) t = some t' ∧ R s' t' := by
  induction as generalizing s t with
  | nil =>
      cases runs
      exact ⟨t, rfl, start⟩
  | cons a as ih =>
      obtain ⟨between, here, rest⟩ := run_cons.mp runs
      obtain ⟨allowed, later⟩ := meets
      have step := forward a s between t start allowed here
      cases shown : project a with
      | none =>
          rw [shown] at step
          have related : R between t := step
          obtain ⟨t', runs', related⟩ := ih related (later between here) rest
          exact ⟨t', by rwa [List.filterMap_cons_none shown], related⟩
      | some b =>
          rw [shown] at step
          obtain ⟨after, here', related⟩ := step
          obtain ⟨t', runs', related'⟩ := ih related (later between here) rest
          refine ⟨t', ?_, related'⟩
          rw [List.filterMap_cons_some shown]
          exact run_cons.mpr ⟨after, here', runs'⟩

/-- A condition on the labels is met along a run together with one on the states. -/
theorem Meets.and_labels {allowed : L → Prop} (labels : ∀ a ∈ as, allowed a) (meets : Meets next condition as s) :
    Meets next (fun a s => allowed a ∧ condition a s) as s := by
  induction as generalizing s with
  | nil => trivial
  | cons a as ih =>
      obtain ⟨here, later⟩ := List.forall_mem_cons.mp labels
      exact ⟨⟨here, meets.1⟩, fun s' step => ih later (meets.2 s' step)⟩

theorem meets_of_forall (always : ∀ a s, condition a s) (as : List L) (s : S) :
    Meets next condition as s := by
  induction as generalizing s with
  | nil => trivial
  | cons a as ih => exact ⟨always a s, fun s' _ => ih s'⟩

/-- A run of one system is a run of another if every step is a step of the
other or does not show there. -/
theorem run_simulation {other : M → T → Option T} {project : L → Option M} {R : S → T → Prop}
    {t : T}
    (forward : ∀ a s s' t, R s t → next a s = some s' → Matches other R (project a) s' t)
    (start : R s t) (runs : run next as s = some s') :
    ∃ t', run other (as.filterMap project) t = some t' ∧ R s' t' :=
  run_simulation_of_meets (fun a s s' t related _ => forward a s s' t related) start
    (meets_of_forall (fun _ _ => trivial) as s) runs

end Runs

section Calls

variable {C A : Type} [DecidableEq A]

/-- The step of a call that gets an answer. -/
def answered (call : C → S → Option (A × S)) : C × A → S → Option S
  | (c, answer), s => (call c s).bind fun result => if result.1 = answer then some result.2 else none

/-- Both return the same answer and related states, or neither returns. -/
def Alike (R : S → T → Prop) : Option (A × S) → Option (A × T) → Prop :=
  Option.Rel fun first second => first.1 = second.1 ∧ R first.2 second.2

/-- Where every call is answered alike, so are all calls of a run. -/
theorem run_answered {call : C → S → Option (A × S)} {other : C → T → Option (A × T)} {R : S → T → Prop}
    (alike : ∀ c s t, R s t → Alike R (call c s) (other c t)) {s : S} {t : T} (start : R s t) (as : List (C × A)) :
    Option.Rel R (run (answered call) as s) (run (answered other) as t) := by
  induction as generalizing s t with
  | nil => exact .some start
  | cons a as ih =>
      obtain ⟨c, answer⟩ := a
      have step := alike c s t start
      simp only [run, answered]
      generalize call c s = first, other c t = second at step ⊢
      cases step with
      | none => exact .none
      | some both =>
          obtain ⟨same, related⟩ := both
          simp only [Option.bind_some, same]
          split
          · exact ih related
          · exact .none

theorem Alike.isSome_eq {B : Type} {R : S → T → Prop} {first : Option (B × S)} {second : Option (B × T)}
    (alike : Alike R first second) : first.isSome = second.isSome := by
  cases alike with
  | none => rfl
  | some _ => rfl

/-- Where a call returns exactly if something holds of it, all calls of a list do exactly if it holds of each. -/
theorem exists_run_iff {call : C → S → Option (A × S)} {condition : C → S → Prop} {P : S → Prop} {Q : C → Prop}
    (keeps : ∀ c s answer s', P s → call c s = some (answer, s') → P s')
    (returns : ∀ c s, P s → condition c s → ((call c s).isSome = true ↔ Q c)) {s : S} (start : P s) {cs : List C}
    (meets : Meets (fun c s => (call c s).map Prod.snd) condition cs s) :
    (∃ events s', events.map Prod.fst = cs ∧ run (answered call) events s = some s') ↔ ∀ c ∈ cs, Q c := by
  induction cs generalizing s with
  | nil => exact ⟨fun _ => by simp, fun _ => ⟨[], s, rfl, rfl⟩⟩
  | cons c cs ih =>
      obtain ⟨here, later⟩ := meets
      have returnsHere := returns c s start here
      rw [List.forall_mem_cons]
      cases answers : call c s with
      | none =>
          rw [answers] at returnsHere
          refine ⟨?_, fun both => absurd (returnsHere.mpr both.1) Bool.false_ne_true⟩
          rintro ⟨events, s', same, runs⟩
          obtain ⟨⟨_, answer⟩, events, rfl, rfl, rfl⟩ := List.map_eq_cons_iff.mp same
          simp [run, answered, answers] at runs
      | some result =>
          obtain ⟨answer, between⟩ := result
          rw [answers] at returnsHere
          have rest := ih (keeps c s answer between start answers) (later between (by simp [answers]))
          rw [and_iff_right (returnsHere.mp rfl), ← rest]
          constructor
          · rintro ⟨events, s', same, runs⟩
            obtain ⟨⟨_, given⟩, events, rfl, rfl, rfl⟩ := List.map_eq_cons_iff.mp same
            obtain ⟨after, step, runs⟩ := run_cons.mp runs
            obtain ⟨_, rfl⟩ : answer = given ∧ between = after := by simpa [answered, answers] using step
            exact ⟨events, s', rfl, runs⟩
          · rintro ⟨events, s', rfl, runs⟩
            refine ⟨(c, answer) :: events, s', rfl, run_cons.mpr ⟨between, ?_, runs⟩⟩
            simp [answered, answers]

end Calls

end GbfLibrary.Systems
