import Mathlib.Data.Finset.Basic
import Mathlib.Data.Finset.Lattice.Fold
import Mathlib.Logic.Function.Basic
import Mathlib.Order.Lattice.Nat

/-!
# Record memories

A machine whose heap holds records of one type, beside the globals of a
program. Programs are partial state transformers: `none` is a fault, that is
an access through a pointer that names no live record.
-/

set_option autoImplicit false

namespace GbfLibrary.Memory

/-- Addresses of heap objects. Address `0` is the null pointer. -/
abbrev Addr := Nat

/-- `live` are the addresses of the records, `others` those of the allocated
objects of other types, which no program of this machine may open. -/
structure Machine (Rec Glob : Type) where
  live : Finset Addr
  others : Finset Addr
  cell : Addr → Rec
  glob : Glob
  callocs : Nat

/-- An allocator may depend on everything allocated and on the number of calls
so far, so every behaviour of `calloc` along a run is one of these. -/
structure Malloc where
  pick : Finset Addr → Nat → Option Addr
  fresh : ∀ used count address, pick used count = some address → address ≠ 0 ∧ address ∉ used

/-- No allocation fails. -/
def Malloc.Succeeds (malloc : Malloc) : Prop :=
  ∀ used count, ∃ address, malloc.pick used count = some address

/-- The allocator that takes the first address above everything in use. -/
def Malloc.bump : Malloc where
  pick used _ := some (used.sup id + 1)
  fresh := by
    rintro used _ _ ⟨rfl⟩
    refine ⟨Nat.succ_ne_zero _, fun member => ?_⟩
    exact Nat.not_succ_le_self _ (show id _ ≤ used.sup id from Finset.le_sup member)

theorem Malloc.bump_succeeds : Malloc.bump.Succeeds :=
  fun used _ => ⟨used.sup id + 1, rfl⟩

/-- The next `n` allocations succeed where nothing is freed between them. -/
def Malloc.Serves (malloc : Malloc) : Nat → Finset Addr × Nat → Prop
  | 0, _ => True
  | n + 1, (used, count) =>
    ∃ address, malloc.pick used count = some address ∧ malloc.Serves n (insert address used, count + 1)

theorem Malloc.Succeeds.serves {malloc : Malloc} (succeeds : malloc.Succeeds) (n : Nat)
    (heap : Finset Addr × Nat) : malloc.Serves n heap := by
  induction n generalizing heap with
  | zero => trivial
  | succ n ih =>
      obtain ⟨address, picked⟩ := succeeds heap.1 heap.2
      exact ⟨address, picked, ih _⟩

abbrev Prog (Rec Glob α : Type) := StateT (Machine Rec Glob) Option α

variable {Rec Glob α β : Type}

/-!
## State changes
-/

namespace Machine

def modify (s : Machine Rec Glob) (a : Addr) (f : Rec → Rec) : Machine Rec Glob :=
  { s with cell := Function.update s.cell a (f (s.cell a)) }

/-- Modify the record at a pointer that may be null. -/
def touch (s : Machine Rec Glob) (a : Addr) (f : Rec → Rec) : Machine Rec Glob :=
  if a = 0 then s else s.modify a f

def withGlob (s : Machine Rec Glob) (g : Glob) : Machine Rec Glob :=
  { s with glob := g }

def release (s : Machine Rec Glob) (a : Addr) : Machine Rec Glob :=
  { s with live := s.live.erase a }

/-- The state after an allocation that returned `a`. -/
def extend (s : Machine Rec Glob) (a : Addr) (r : Rec) : Machine Rec Glob :=
  { s with live := insert a s.live, cell := Function.update s.cell a r, callocs := s.callocs + 1 }

/-- The state after an allocation that failed. -/
def miss (s : Machine Rec Glob) : Machine Rec Glob :=
  { s with callocs := s.callocs + 1 }

/-- All that an allocator may depend on. -/
def heap (s : Machine Rec Glob) : Finset Addr × Nat := (s.live ∪ s.others, s.callocs)

/-- A pointer that may be null, and is otherwise good. -/
def Pointer (s : Machine Rec Glob) (a : Addr) : Prop := a = 0 ∨ a ∈ s.live

@[simp] theorem modify_live (s : Machine Rec Glob) (a : Addr) (f : Rec → Rec) :
    (s.modify a f).live = s.live := by
  simp only [modify]

@[simp] theorem modify_others (s : Machine Rec Glob) (a : Addr) (f : Rec → Rec) :
    (s.modify a f).others = s.others := by
  simp only [modify]

@[simp] theorem modify_glob (s : Machine Rec Glob) (a : Addr) (f : Rec → Rec) :
    (s.modify a f).glob = s.glob := by
  simp only [modify]

@[simp] theorem modify_cell_self (s : Machine Rec Glob) (a : Addr) (f : Rec → Rec) :
    (s.modify a f).cell a = f (s.cell a) := by
  simp [modify]

@[simp] theorem modify_cell_of_ne {s : Machine Rec Glob} {a b : Addr} {f : Rec → Rec}
    (different : b ≠ a) :
    (s.modify a f).cell b = s.cell b := by
  simp [modify, different]

@[simp] theorem modify_cell_of_ne' {s : Machine Rec Glob} {a b : Addr} {f : Rec → Rec}
    (different : a ≠ b) :
    (s.modify a f).cell b = s.cell b :=
  modify_cell_of_ne different.symm

theorem modify_cell (s : Machine Rec Glob) (a b : Addr) (f : Rec → Rec) :
    (s.modify a f).cell b = if b = a then f (s.cell b) else s.cell b := by
  by_cases same : b = a
  · rw [if_pos same, same, modify_cell_self]
  · rw [if_neg same, modify_cell_of_ne same]

theorem modify_same {s : Machine Rec Glob} {a : Addr} {f : Rec → Rec} (same : f (s.cell a) = s.cell a) :
    s.modify a f = s := by
  rw [modify, same, Function.update_eq_self]

theorem modify_modify (s : Machine Rec Glob) (a : Addr) (f g : Rec → Rec) :
    (s.modify a f).modify a g = s.modify a (g ∘ f) := by
  simp [modify]

@[simp] theorem touch_zero (s : Machine Rec Glob) (f : Rec → Rec) : s.touch 0 f = s := by
  simp [touch]

@[simp] theorem touch_of_ne {s : Machine Rec Glob} {a : Addr} {f : Rec → Rec} (good : a ≠ 0) :
    s.touch a f = s.modify a f := by
  simp [touch, good]

@[simp] theorem touch_live (s : Machine Rec Glob) (a : Addr) (f : Rec → Rec) :
    (s.touch a f).live = s.live := by
  unfold touch
  split <;> simp

@[simp] theorem touch_others (s : Machine Rec Glob) (a : Addr) (f : Rec → Rec) :
    (s.touch a f).others = s.others := by
  unfold touch
  split <;> simp

@[simp] theorem touch_glob (s : Machine Rec Glob) (a : Addr) (f : Rec → Rec) :
    (s.touch a f).glob = s.glob := by
  unfold touch
  split <;> simp

theorem touch_cell_of_ne {s : Machine Rec Glob} {a b : Addr} {f : Rec → Rec}
    (different : a = 0 ∨ b ≠ a) : (s.touch a f).cell b = s.cell b := by
  unfold touch
  split
  · rfl
  · next good => exact modify_cell_of_ne (different.resolve_left good)

theorem touch_cell (s : Machine Rec Glob) (a b : Addr) (f : Rec → Rec) :
    (s.touch a f).cell b = if b = a ∧ a ≠ 0 then f (s.cell b) else s.cell b := by
  by_cases null : a = 0
  · simp [null]
  · simp [null, modify_cell]

@[simp] theorem withGlob_live (s : Machine Rec Glob) (g : Glob) : (s.withGlob g).live = s.live := by
  simp only [withGlob]

@[simp] theorem withGlob_others (s : Machine Rec Glob) (g : Glob) :
    (s.withGlob g).others = s.others := by
  simp only [withGlob]

@[simp] theorem withGlob_cell (s : Machine Rec Glob) (g : Glob) : (s.withGlob g).cell = s.cell := by
  simp only [withGlob]

@[simp] theorem withGlob_glob (s : Machine Rec Glob) (g : Glob) : (s.withGlob g).glob = g := by
  simp only [withGlob]

@[simp] theorem release_live (s : Machine Rec Glob) (a : Addr) :
    (s.release a).live = s.live.erase a := by
  simp only [release]

@[simp] theorem release_others (s : Machine Rec Glob) (a : Addr) :
    (s.release a).others = s.others := by
  simp only [release]

@[simp] theorem release_cell (s : Machine Rec Glob) (a : Addr) : (s.release a).cell = s.cell := by
  simp only [release]

@[simp] theorem release_glob (s : Machine Rec Glob) (a : Addr) : (s.release a).glob = s.glob := by
  simp only [release]

@[simp] theorem miss_live (s : Machine Rec Glob) : s.miss.live = s.live := rfl

@[simp] theorem miss_cell (s : Machine Rec Glob) : s.miss.cell = s.cell := rfl

@[simp] theorem miss_glob (s : Machine Rec Glob) : s.miss.glob = s.glob := rfl

@[simp] theorem extend_live (s : Machine Rec Glob) (a : Addr) (r : Rec) :
    (s.extend a r).live = insert a s.live := by
  simp only [extend]

@[simp] theorem extend_others (s : Machine Rec Glob) (a : Addr) (r : Rec) :
    (s.extend a r).others = s.others := by
  simp only [extend]

@[simp] theorem extend_glob (s : Machine Rec Glob) (a : Addr) (r : Rec) :
    (s.extend a r).glob = s.glob := by
  simp only [extend]

@[simp] theorem extend_cell_self (s : Machine Rec Glob) (a : Addr) (r : Rec) :
    (s.extend a r).cell a = r := by
  simp [extend]

@[simp] theorem modify_heap (s : Machine Rec Glob) (a : Addr) (f : Rec → Rec) :
    (s.modify a f).heap = s.heap := by
  simp only [heap, modify]

@[simp] theorem extend_heap (s : Machine Rec Glob) (a : Addr) (r : Rec) :
    (s.extend a r).heap = (insert a s.heap.1, s.heap.2 + 1) := by
  simp only [heap, extend, Finset.insert_union]

theorem extend_cell_of_ne {s : Machine Rec Glob} {a b : Addr} {r : Rec} (different : b ≠ a) :
    (s.extend a r).cell b = s.cell b := by
  simp [extend, different]

theorem extend_modify (s : Machine Rec Glob) (a : Addr) (r : Rec) (f : Rec → Rec) :
    (s.extend a r).modify a f = s.extend a (f r) := by
  simp [extend, modify]

@[simp] theorem pointer_modify (s : Machine Rec Glob) (a b : Addr) (f : Rec → Rec) :
    (s.modify b f).Pointer a ↔ s.Pointer a := by
  simp [Pointer]

@[simp] theorem pointer_touch (s : Machine Rec Glob) (a b : Addr) (f : Rec → Rec) :
    (s.touch b f).Pointer a ↔ s.Pointer a := by
  simp [Pointer]

@[simp] theorem pointer_withGlob (s : Machine Rec Glob) (a : Addr) (g : Glob) :
    (s.withGlob g).Pointer a ↔ s.Pointer a := by
  simp [Pointer]

end Machine

/-!
## Local predicates

A representation predicate reads the records at finitely many addresses. It
survives every change elsewhere.
-/

/-- Two states hold the same records at the given addresses. -/
def AgreeOn (addrs : List Addr) (s s' : Machine Rec Glob) : Prop :=
  ∀ a ∈ addrs, (a ∈ s.live ↔ a ∈ s'.live) ∧ s'.cell a = s.cell a

/-- The predicate only reads the records at the given addresses. -/
def Local (addrs : List Addr) (P : Machine Rec Glob → Prop) : Prop :=
  ∀ s s', AgreeOn addrs s s' → (P s ↔ P s')

namespace AgreeOn

variable {addrs more : List Addr} {s s' s'' : Machine Rec Glob}

theorem refl (addrs : List Addr) (s : Machine Rec Glob) : AgreeOn addrs s s :=
  fun _ _ => ⟨Iff.rfl, rfl⟩

theorem trans (first : AgreeOn addrs s s') (second : AgreeOn addrs s' s'') :
    AgreeOn addrs s s'' :=
  fun a member => ⟨(first a member).1.trans (second a member).1,
    (second a member).2.trans (first a member).2⟩

theorem mono (included : more ⊆ addrs) (agree : AgreeOn addrs s s') : AgreeOn more s s' :=
  fun a member => agree a (included member)

theorem modify {a : Addr} {f : Rec → Rec} (outside : a ∉ addrs) :
    AgreeOn addrs s (s.modify a f) := by
  intro b member
  have different : b ≠ a := fun same => outside (same ▸ member)
  exact ⟨by simp, Machine.modify_cell_of_ne different⟩

theorem touch {a : Addr} {f : Rec → Rec} (outside : a = 0 ∨ a ∉ addrs) :
    AgreeOn addrs s (s.touch a f) := by
  unfold Machine.touch
  split
  · exact refl addrs s
  · next good => exact modify (outside.resolve_left good)

theorem withGlob (g : Glob) : AgreeOn addrs s (s.withGlob g) :=
  fun _ _ => by simp

theorem release {a : Addr} (outside : a ∉ addrs) : AgreeOn addrs s (s.release a) := by
  intro b member
  have different : b ≠ a := fun same => outside (same ▸ member)
  simp [different]

theorem extend {a : Addr} {r : Rec} (outside : a ∉ addrs) : AgreeOn addrs s (s.extend a r) := by
  intro b member
  have different : b ≠ a := fun same => outside (same ▸ member)
  exact ⟨by simp [different], Machine.extend_cell_of_ne different⟩

theorem miss : AgreeOn addrs s s.miss :=
  fun _ _ => ⟨Iff.rfl, rfl⟩

end AgreeOn

/-- The second state differs from the first in the records at the given
addresses and in the globals only. -/
structure Within (addrs : List Addr) (s s' : Machine Rec Glob) : Prop where
  live : s'.live = s.live
  others : s'.others = s.others
  cell : ∀ a ∉ addrs, s'.cell a = s.cell a

namespace Within

variable {addrs more : List Addr} {s s' s'' : Machine Rec Glob}

theorem refl (addrs : List Addr) (s : Machine Rec Glob) : Within addrs s s :=
  ⟨rfl, rfl, fun _ _ => rfl⟩

theorem trans (first : Within addrs s s') (second : Within addrs s' s'') : Within addrs s s'' :=
  ⟨second.live.trans first.live, second.others.trans first.others,
    fun a outside => (second.cell a outside).trans (first.cell a outside)⟩

theorem mono (included : addrs ⊆ more) (within : Within addrs s s') : Within more s s' :=
  ⟨within.live, within.others, fun a outside => within.cell a fun member => outside (included member)⟩

theorem modify {a : Addr} {f : Rec → Rec} (within : Within addrs s s') (member : a ∈ addrs) :
    Within addrs s (s'.modify a f) := by
  refine ⟨by simpa using within.live, by simpa using within.others, fun b outside => ?_⟩
  have different : b ≠ a := fun same => outside (same ▸ member)
  rw [Machine.modify_cell_of_ne different, within.cell b outside]

theorem touch {a : Addr} {f : Rec → Rec} (within : Within addrs s s')
    (member : a = 0 ∨ a ∈ addrs) : Within addrs s (s'.touch a f) := by
  unfold Machine.touch
  split
  · exact within
  · next good => exact within.modify (member.resolve_left good)

theorem withGlob {g : Glob} (within : Within addrs s s') : Within addrs s (s'.withGlob g) :=
  ⟨within.live, within.others, within.cell⟩

theorem agreeOn (within : Within addrs s s') (apart : more.Disjoint addrs) : AgreeOn more s s' :=
  fun a member => ⟨by rw [within.live], within.cell a (apart member)⟩

end Within

namespace Local

variable {addrs : List Addr} {P : Machine Rec Glob → Prop} {s : Machine Rec Glob} {a : Addr}

theorem modify (reads : Local addrs P) {f : Rec → Rec} (outside : a ∉ addrs) :
    P (s.modify a f) ↔ P s :=
  (reads _ _ (AgreeOn.modify outside)).symm

theorem touch (reads : Local addrs P) {f : Rec → Rec} (outside : a = 0 ∨ a ∉ addrs) :
    P (s.touch a f) ↔ P s :=
  (reads _ _ (AgreeOn.touch outside)).symm

theorem withGlob (reads : Local addrs P) {g : Glob} : P (s.withGlob g) ↔ P s :=
  (reads _ _ (AgreeOn.withGlob g)).symm

theorem release (reads : Local addrs P) (outside : a ∉ addrs) : P (s.release a) ↔ P s :=
  (reads _ _ (AgreeOn.release outside)).symm

theorem extend (reads : Local addrs P) {r : Rec} (outside : a ∉ addrs) : P (s.extend a r) ↔ P s :=
  (reads _ _ (AgreeOn.extend outside)).symm

theorem miss (reads : Local addrs P) : P s.miss ↔ P s :=
  (reads _ _ AgreeOn.miss).symm

theorem within (reads : Local addrs P) {more : List Addr} {s' : Machine Rec Glob}
    (within : Within more s s') (apart : addrs.Disjoint more) : P s' ↔ P s :=
  (reads _ _ (within.agreeOn apart)).symm

end Local

/-!
## Programs
-/

namespace Prog

/-- A fault: the C program has no defined behaviour from here on. -/
def fault : Prog Rec Glob α := fun _ => none

def load (a : Addr) : Prog Rec Glob Rec := fun s =>
  if a ∈ s.live then some (s.cell a, s) else none

def store (a : Addr) (f : Rec → Rec) : Prog Rec Glob Unit := fun s =>
  if a ∈ s.live then some ((), s.modify a f) else none

/-- `free`, which ignores the null pointer. -/
def free (a : Addr) : Prog Rec Glob Unit := fun s =>
  if a = 0 then some ((), s) else if a ∈ s.live then some ((), s.release a) else none

def getGlob : Prog Rec Glob Glob := fun s => some (s.glob, s)

def setGlob (f : Glob → Glob) : Prog Rec Glob Unit := fun s => some ((), s.withGlob (f s.glob))

/-- `calloc` of a record: a fresh zeroed one, or null. -/
def calloc (malloc : Malloc) (zero : Rec) : Prog Rec Glob Addr := fun s =>
  match malloc.pick (s.live ∪ s.others) s.callocs with
  | none => some (0, { s with callocs := s.callocs + 1 })
  | some a => some (a, s.extend a zero)

/-- `calloc` of an object of another type. -/
def callocOther (malloc : Malloc) : Prog Rec Glob Addr := fun s =>
  match malloc.pick (s.live ∪ s.others) s.callocs with
  | none => some (0, { s with callocs := s.callocs + 1 })
  | some a => some (a, { s with others := insert a s.others, callocs := s.callocs + 1 })

/-- `free` of an object of another type. -/
def freeOther (a : Addr) : Prog Rec Glob Unit := fun s =>
  if a = 0 then some ((), s)
  else if a ∈ s.others then some ((), { s with others := s.others.erase a }) else none

/-- Running a continuation on an outcome. Simplification enters the outcome
only, so that a program is evaluated one statement at a time. -/
def andThen (outcome : Option (α × Machine Rec Glob)) (next : α → Prog Rec Glob β) :
    Option (β × Machine Rec Glob) :=
  outcome.bind fun result => next result.1 result.2

@[congr] theorem andThen_congr {first second : Option (α × Machine Rec Glob)}
    {next : α → Prog Rec Glob β} (same : first = second) :
    andThen first next = andThen second next := by
  rw [same]

@[simp] theorem andThen_some (x : α) (s : Machine Rec Glob) (next : α → Prog Rec Glob β) :
    andThen (some (x, s)) next = next x s := rfl

@[simp] theorem andThen_none (next : α → Prog Rec Glob β) : andThen none next = none := rfl

@[simp ↓] theorem bind_apply (x : Prog Rec Glob α) (next : α → Prog Rec Glob β)
    (s : Machine Rec Glob) : (x >>= next) s = andThen (x s) next := rfl

@[simp ↓] theorem map_apply (f : α → β) (x : Prog Rec Glob α) (s : Machine Rec Glob) :
    (f <$> x) s = andThen (x s) fun result => pure (f result) := rfl

@[simp ↓] theorem pure_apply (x : α) (s : Machine Rec Glob) :
    (pure x : Prog Rec Glob α) s = some (x, s) := rfl

@[simp ↓] theorem ite_apply (c : Prop) [Decidable c] (x y : Prog Rec Glob α)
    (s : Machine Rec Glob) : (if c then x else y) s = if c then x s else y s := by
  split <;> rfl

@[simp] theorem getGlob_apply (s : Machine Rec Glob) :
    (getGlob : Prog Rec Glob Glob) s = some (s.glob, s) := rfl

@[simp] theorem setGlob_apply (s : Machine Rec Glob) (f : Glob → Glob) :
    (setGlob f : Prog Rec Glob Unit) s = some ((), s.withGlob (f s.glob)) := rfl

@[simp] theorem load_apply {s : Machine Rec Glob} {a : Addr} (present : a ∈ s.live) :
    load a s = some (s.cell a, s) := by
  simp [load, present]

@[simp] theorem store_apply {s : Machine Rec Glob} {a : Addr} {f : Rec → Rec} (present : a ∈ s.live) :
    store a f s = some ((), s.modify a f) := by
  simp [store, present]

theorem free_apply {s : Machine Rec Glob} {a : Addr} (present : a ∈ s.live) (good : 0 ∉ s.live) :
    free a s = some ((), s.release a) := by
  have notNull : a ≠ 0 := fun null => good (null ▸ present)
  simp [free, present, notNull]

theorem calloc_none {malloc : Malloc} {s : Machine Rec Glob} (zero : Rec)
    (fails : malloc.pick (s.live ∪ s.others) s.callocs = none) :
    calloc malloc zero s = some (0, s.miss) := by
  simp [calloc, fails, Machine.miss]

/-- An allocation that succeeds yields a fresh address. -/
theorem calloc_some {malloc : Malloc} {s : Machine Rec Glob} {a : Addr} (zero : Rec)
    (picked : malloc.pick (s.live ∪ s.others) s.callocs = some a) :
    calloc malloc zero s = some (a, s.extend a zero) ∧ a ≠ 0 ∧ a ∉ s.live ∧ a ∉ s.others := by
  obtain ⟨notNull, fresh⟩ := malloc.fresh _ _ _ picked
  simp only [Finset.mem_union, not_or] at fresh
  exact ⟨by simp [calloc, picked], notNull, fresh⟩

theorem calloc_apply {malloc : Malloc} (succeeds : malloc.Succeeds) (zero : Rec)
    (s : Machine Rec Glob) :
    ∃ a, calloc malloc zero s = some (a, s.extend a zero) ∧ a ≠ 0 ∧ a ∉ s.live ∧ a ∉ s.others := by
  obtain ⟨a, picked⟩ := succeeds (s.live ∪ s.others) s.callocs
  exact ⟨a, calloc_some zero picked⟩

theorem callocOther_some {malloc : Malloc} {s : Machine Rec Glob} {a : Addr}
    (picked : malloc.pick (s.live ∪ s.others) s.callocs = some a) :
    callocOther malloc s = some (a, { s with others := insert a s.others, callocs := s.callocs + 1 }) ∧
      a ≠ 0 ∧ a ∉ s.live ∧ a ∉ s.others := by
  obtain ⟨notNull, fresh⟩ := malloc.fresh _ _ _ picked
  simp only [Finset.mem_union, not_or] at fresh
  exact ⟨by simp [callocOther, picked], notNull, fresh⟩

theorem callocOther_apply {malloc : Malloc} (succeeds : malloc.Succeeds) (s : Machine Rec Glob) :
    ∃ a s', callocOther malloc s = some (a, s') ∧ a ≠ 0 ∧ s'.live = s.live ∧
      s'.cell = s.cell ∧ s'.glob = s.glob := by
  obtain ⟨a, picked⟩ := succeeds (s.live ∪ s.others) s.callocs
  obtain ⟨allocates, notNull, _⟩ := callocOther_some picked
  exact ⟨a, _, allocates, notNull, rfl, rfl, rfl⟩

/-!
## What a program that returned did
-/

theorem bind_eq_some {prog : Prog Rec Glob α} {next : α → Prog Rec Glob β} {s s' : Machine Rec Glob} {y : β} :
    (prog >>= next) s = some (y, s') ↔ ∃ x between, prog s = some (x, between) ∧ next x between = some (y, s') := by
  rw [bind_apply, andThen, Option.bind_eq_some_iff]
  exact Prod.exists

theorem load_eq_some {s s' : Machine Rec Glob} {a : Addr} {r : Rec} (loads : load a s = some (r, s')) :
    a ∈ s.live ∧ r = s.cell a ∧ s' = s := by
  simp only [load] at loads
  split at loads
  · next live =>
    cases loads
    exact ⟨live, rfl, rfl⟩
  · cases loads

/-!
## Programs that keep a relation
-/

/-- Where the program returns, its state is related to the one it started in. -/
def Relates (R : Machine Rec Glob → Machine Rec Glob → Prop) (prog : Prog Rec Glob α) : Prop :=
  ∀ s x s', prog s = some (x, s') → R s s'

namespace Relates

variable {R : Machine Rec Glob → Machine Rec Glob → Prop}

theorem bind {prog : Prog Rec Glob α} {next : α → Prog Rec Glob β}
    (trans : ∀ s between s', R s between → R between s' → R s s') (first : Relates R prog)
    (rest : ∀ x, Relates R (next x)) : Relates R (prog >>= next) := by
  intro s y s' runs
  obtain ⟨⟨x, between⟩, before, after⟩ := Option.bind_eq_some_iff.mp runs
  exact trans s between s' (first s x between before) (rest x between y s' after)

theorem pure (refl : ∀ s, R s s) (x : α) : Relates R (Pure.pure x : Prog Rec Glob α) := by
  intro s y s' runs
  cases runs
  exact refl s

theorem fault : Relates R (fault : Prog Rec Glob α) := by
  intro s y s' runs
  cases runs

theorem ite {c : Prop} [Decidable c] {x y : Prog Rec Glob α} (yes : Relates R x) (no : Relates R y) :
    Relates R (if c then x else y) := by
  split
  · exact yes
  · exact no

theorem load (refl : ∀ s, R s s) (a : Addr) : Relates R (load a : Prog Rec Glob Rec) := by
  intro s y s' runs
  simp only [Prog.load] at runs
  split at runs
  · cases runs
    exact refl s
  · cases runs

theorem store {a : Addr} {f : Rec → Rec} (changes : ∀ s, R s (s.modify a f)) :
    Relates R (store a f : Prog Rec Glob Unit) := by
  intro s y s' runs
  simp only [Prog.store] at runs
  split at runs
  · cases runs
    exact changes s
  · cases runs

theorem getGlob (refl : ∀ s, R s s) : Relates R (getGlob : Prog Rec Glob Glob) := by
  intro s y s' runs
  cases runs
  exact refl s

theorem setGlob {f : Glob → Glob} (changes : ∀ s, R s (s.withGlob (f s.glob))) :
    Relates R (setGlob f : Prog Rec Glob Unit) := by
  intro s y s' runs
  cases runs
  exact changes s

theorem free {a : Addr} (refl : ∀ s, R s s) (changes : ∀ s, R s (s.release a)) :
    Relates R (free a : Prog Rec Glob Unit) := by
  intro s y s' runs
  simp only [Prog.free] at runs
  split at runs
  · cases runs
    exact refl s
  · split at runs
    · cases runs
      exact changes s
    · cases runs

theorem callocOther {malloc : Malloc}
    (changes : ∀ s s', s'.live = s.live → s'.cell = s.cell → s'.glob = s.glob → R s s') :
    Relates R (callocOther malloc : Prog Rec Glob Addr) := by
  intro s y s' runs
  simp only [Prog.callocOther] at runs
  split at runs
  · cases runs
    exact changes s _ rfl rfl rfl
  · cases runs
    exact changes s _ rfl rfl rfl

theorem mono {Q : Machine Rec Glob → Machine Rec Glob → Prop} {prog : Prog Rec Glob α}
    (relates : Relates R prog) (stronger : ∀ s s', R s s' → Q s s') : Relates Q prog :=
  fun s x s' runs => stronger s s' (relates s x s' runs)

end Relates

/-!
## Programs that leave the heap alone
-/

/-- A program that neither allocates nor frees. -/
def Quiet (prog : Prog Rec Glob α) : Prop :=
  ∀ s x s', prog s = some (x, s') → s'.heap = s.heap

namespace Quiet

theorem bind {prog : Prog Rec Glob α} {next : α → Prog Rec Glob β} (first : Quiet prog)
    (rest : ∀ x, Quiet (next x)) : Quiet (prog >>= next) :=
  Relates.bind (fun _ _ _ before after => after.trans before) first rest

theorem pure (x : α) : Quiet (Pure.pure x : Prog Rec Glob α) :=
  Relates.pure (R := fun s s' => s'.heap = s.heap) (fun _ => rfl) x

theorem fault : Quiet (fault : Prog Rec Glob α) :=
  Relates.fault

theorem ite {c : Prop} [Decidable c] {x y : Prog Rec Glob α} (yes : Quiet x) (no : Quiet y) :
    Quiet (if c then x else y) :=
  Relates.ite yes no

theorem load (a : Addr) : Quiet (load a : Prog Rec Glob Rec) :=
  Relates.load (R := fun s s' => s'.heap = s.heap) (fun _ => rfl) a

theorem store (a : Addr) (f : Rec → Rec) : Quiet (store a f : Prog Rec Glob Unit) :=
  Relates.store fun s => Machine.modify_heap s a f

theorem getGlob : Quiet (getGlob : Prog Rec Glob Glob) :=
  Relates.getGlob fun _ => rfl

theorem setGlob (f : Glob → Glob) : Quiet (setGlob f : Prog Rec Glob Unit) :=
  Relates.setGlob fun _ => rfl

end Quiet

/-!
## Programs that allocate and free records only
-/

def Spares (prog : Prog Rec Glob α) : Prop := Relates (fun s s' => s'.others = s.others) prog

namespace Spares

theorem bind {prog : Prog Rec Glob α} {next : α → Prog Rec Glob β} (first : Spares prog)
    (rest : ∀ x, Spares (next x)) : Spares (prog >>= next) :=
  Relates.bind (fun _ _ _ before after => after.trans before) first rest

theorem pure (x : α) : Spares (Pure.pure x : Prog Rec Glob α) :=
  Relates.pure (R := fun s s' => s'.others = s.others) (fun _ => rfl) x

theorem fault : Spares (fault : Prog Rec Glob α) :=
  Relates.fault

theorem ite {c : Prop} [Decidable c] {x y : Prog Rec Glob α} (yes : Spares x) (no : Spares y) :
    Spares (if c then x else y) :=
  Relates.ite yes no

theorem load (a : Addr) : Spares (load a : Prog Rec Glob Rec) :=
  Relates.load (R := fun s s' => s'.others = s.others) (fun _ => rfl) a

theorem store (a : Addr) (f : Rec → Rec) : Spares (store a f : Prog Rec Glob Unit) :=
  Relates.store fun s => Machine.modify_others s a f

theorem getGlob : Spares (getGlob : Prog Rec Glob Glob) :=
  Relates.getGlob fun _ => rfl

theorem setGlob (f : Glob → Glob) : Spares (setGlob f : Prog Rec Glob Unit) :=
  Relates.setGlob fun _ => rfl

theorem free (a : Addr) : Spares (free a : Prog Rec Glob Unit) :=
  Relates.free (fun _ => rfl) fun s => Machine.release_others s a

theorem calloc (malloc : Malloc) (zero : Rec) : Spares (calloc malloc zero : Prog Rec Glob Addr) := by
  intro s a s' runs
  simp only [Prog.calloc] at runs
  split at runs <;> cases runs <;> rfl

end Spares

end Prog

end GbfLibrary.Memory
