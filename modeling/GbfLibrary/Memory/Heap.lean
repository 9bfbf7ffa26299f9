import Mathlib.Data.List.Basic

/-!
# Heaps that forget nothing

A heap of objects of one type whose addresses are not used again, so that an access to a freed object is told
from any other fault.
-/

set_option autoImplicit false

namespace GbfLibrary.Memory

/-- Why an access has no defined behaviour. -/
inductive Fault where
  /-- The object was freed. -/
  | freed
  | other
  deriving DecidableEq

section Results

variable {α β : Type}

@[simp] theorem ok_bind (x : α) (next : α → Except Fault β) : (Except.ok x >>= next) = next x := rfl

@[simp] theorem error_bind (fault : Fault) (next : α → Except Fault β) : (Except.error fault >>= next) = .error fault := rfl

@[simp] theorem pure_eq_ok (x : α) : (pure x : Except Fault α) = .ok x := rfl

/-- The outcome is good, or a fault that is not an access to a freed object. -/
inductive Unharmed (holds : α → Prop) : Except Fault α → Prop where
  | ok {x : α} (good : holds x) : Unharmed holds (.ok x)
  | fault {fault : Fault} (different : fault ≠ .freed) : Unharmed holds (.error fault)

@[simp] theorem unharmed_ok {P : α → Prop} {x : α} : Unharmed P (.ok x) ↔ P x := by
  constructor
  · intro unharmed
    cases unharmed with
    | ok good => exact good
  · exact .ok

@[simp] theorem unharmed_error {P : α → Prop} {fault : Fault} : Unharmed P (.error fault) ↔ fault ≠ .freed := by
  constructor
  · intro unharmed
    cases unharmed with
    | fault different => exact different
  · exact .fault

theorem unharmed_other (P : α → Prop) : Unharmed P (.error .other) :=
  .fault fun same => by cases same

theorem not_unharmed_freed (P : α → Prop) : ¬ Unharmed P (.error .freed) := by
  simp

theorem Unharmed.bind {P : α → Prop} {Q : β → Prop} {result : Except Fault α} {next : α → Except Fault β}
    (first : Unharmed P result) (rest : ∀ x, P x → Unharmed Q (next x)) : Unharmed Q (result >>= next) := by
  cases first with
  | ok good => exact rest _ good
  | fault different => exact .fault different

theorem unharmed_map {Q : β → Prop} {result : Except Fault α} {f : α → β} :
    Unharmed Q (result.map f) ↔ Unharmed (fun x => Q (f x)) result := by
  cases result with
  | error fault => exact unharmed_error.trans unharmed_error.symm
  | ok x =>
      rw [unharmed_ok]
      exact unharmed_ok

end Results

/-- The objects by address; `none` is a freed one. -/
abbrev Heap (α : Type) := List (Option α)

namespace Heap

variable {α : Type}

def access (heap : Heap α) : Option Nat → Except Fault α
  | none => .error .other
  | some address =>
      match heap[address]? with
      | some (some object) => .ok object
      | some none => .error .freed
      | none => .error .other

def store (heap : Heap α) (pointer : Option Nat) (object : α) : Heap α :=
  match pointer with
  | none => heap
  | some address => heap.set address (some object)

/-- `free`, which ignores the null pointer. -/
def free (heap : Heap α) (pointer : Option Nat) : Except Fault (Heap α) :=
  match pointer with
  | none => .ok heap
  | some address => do
      let _ ← heap.access (some address)
      return heap.set address none

/-- The pointer leads to an object of this kind. -/
def Live (P : α → Prop) (heap : Heap α) (pointer : Option Nat) : Prop :=
  ∃ address object, pointer = some address ∧ heap[address]? = some (some object) ∧ P object

/-- The pointer leads to what was freed. -/
def Dangling (heap : Heap α) (pointer : Option Nat) : Prop :=
  ∃ address, pointer = some address ∧ heap[address]? = some none

/-- Null, or a pointer to an object of this kind. -/
def Settled (P : α → Prop) (heap : Heap α) (pointer : Option Nat) : Prop := pointer = none ∨ heap.Live P pointer

variable {P Q : α → Prop} {heap : Heap α} {pointer : Option Nat}

theorem Live.access (live : heap.Live P pointer) : ∃ object, heap.access pointer = .ok object ∧ P object := by
  obtain ⟨address, object, rfl, here, good⟩ := live
  exact ⟨object, by simp only [Heap.access, here], good⟩

theorem Live.store (live : heap.Live P pointer) {object : α} (good : Q object) :
    (heap.store pointer object).Live Q pointer := by
  obtain ⟨address, old, rfl, here, _⟩ := live
  obtain ⟨inside, _⟩ := List.getElem?_eq_some_iff.mp here
  exact ⟨address, object, rfl, List.getElem?_set_self inside, good⟩

theorem Live.free (live : heap.Live P pointer) : ∃ after, heap.free pointer = .ok after ∧ after.Dangling pointer := by
  obtain ⟨address, object, rfl, here, _⟩ := live
  obtain ⟨inside, _⟩ := List.getElem?_eq_some_iff.mp here
  refine ⟨heap.set address none, ?_, address, rfl, List.getElem?_set_self inside⟩
  simp only [Heap.free, Heap.access, here]
  rfl

theorem Settled.free (settled : heap.Settled P pointer) : ∃ after, heap.free pointer = .ok after := by
  rcases settled with rfl | live
  · exact ⟨heap, rfl⟩
  · obtain ⟨after, frees, _⟩ := live.free
    exact ⟨after, frees⟩

/-- An access does not find out that the object was freed. -/
theorem Settled.access (settled : heap.Settled P pointer) : Unharmed P (heap.access pointer) := by
  rcases settled with rfl | live
  · exact unharmed_other P
  · obtain ⟨object, accesses, good⟩ := live.access
    rw [accesses]
    exact .ok good

theorem Dangling.access (dangling : heap.Dangling pointer) : heap.access pointer = .error .freed := by
  obtain ⟨address, rfl, here⟩ := dangling
  simp only [Heap.access, here]

theorem Dangling.not_settled (dangling : heap.Dangling pointer) : ¬ heap.Settled P pointer := by
  obtain ⟨address, rfl, here⟩ := dangling
  rintro (null | ⟨_, object, same, there, _⟩)
  · cases null
  · cases same
    rw [here] at there
    cases there

theorem live_new (heap : Heap α) {object : α} (good : P object) :
    (heap ++ [some object]).Live P (some heap.length) :=
  ⟨heap.length, object, rfl, List.getElem?_concat_length, good⟩

end Heap

end GbfLibrary.Memory
