import GbfLibrary.Lock.RwLock
import GbfLibrary.Systems.Run
import GbfLibrary.Systems.Shares

/-!
# Threads that share a lock

What the fields of a lock say about the threads that have it, whatever the order in
which they take it and give it back.
-/

set_option autoImplicit false

namespace GbfLibrary.Lock

open Systems

/-- What a thread has of a lock: the read and write locks it got and did not give back,
and whether it is in the loop of `lbs_rwlock_wlock`. -/
structure Hold where
  reads : Nat
  writes : Nat
  waiting : Bool
  deriving DecidableEq, Repr

/-- The thread is not in the critical section. -/
def Hold.Outside (hold : Hold) : Prop := hold.writes = 0 ∧ hold.waiting = false

def Hold.nothing : Hold := ⟨0, 0, false⟩

def Hold.addRead (hold : Hold) : Hold := { hold with reads := hold.reads + 1 }

def Hold.addWrite (hold : Hold) : Hold := { hold with writes := hold.writes + 1 }

def Hold.await (hold : Hold) : Hold := { hold with waiting := true }

/-- The wait of `lbs_rwlock_wlock` is over. -/
def Hold.grant (hold : Hold) : Hold := ⟨hold.reads, hold.writes + 1, false⟩

/-- One lock is given back. -/
def Hold.drop (hold : Hold) : Hold :=
  if hold.writes = 0 then { hold with reads := hold.reads - 1 } else { hold with writes := hold.writes - 1 }

namespace RwLock

section Entries

variable {T : Type} {lock lock' : RwLock T} {t : T}

theorem leaveCriticalSection_last (last : lock.recursionCount ≤ 1) :
    lock.leaveCriticalSection = { lock with owner := none, recursionCount := 0 } := if_pos last

private theorem leaveCriticalSection_inner (inner : ¬ lock.recursionCount ≤ 1) :
    lock.leaveCriticalSection = { lock with recursionCount := lock.recursionCount - 1 } := if_neg inner

/-- Another thread than the owner does not get into the critical section. -/
theorem eq_of_owner {u : T} (owner : lock.owner = some u) (allowed : lock.owner = none ∨ lock.owner = some t) :
    u = t := by
  rw [owner] at allowed
  rcases allowed with free | same
  · cases free
  · exact Option.some.inj same

variable [DecidableEq T]

/-- Only the thread that owns the critical section gets a second time into it. -/
theorem enterCriticalSection_cases (enters : lock.enterCriticalSection t = some lock') :
    (lock.owner = none ∨ lock.owner = some t) ∧
      lock' = { lock with owner := some t, recursionCount := lock.recursionCount + 1 } := by
  unfold enterCriticalSection at enters
  split at enters
  · next allowed =>
    cases enters
    exact ⟨allowed, rfl⟩
  · cases enters

private theorem outside_update {holds : T → Hold} {hold : Hold} (others : ∀ v, v ≠ t → (holds v).Outside) (u : T)
    (other : u ≠ t) : (Function.update holds t hold u).Outside := by
  rw [Function.update_of_ne other]
  exact others u other

end Entries

variable {T : Type} [Fintype T] {lock lock' : RwLock T} {holds : T → Hold} {t : T}

/-- The fields of a lock are what the threads make of them. -/
inductive Agrees (lock : RwLock T) (holds : T → Hold) : Prop where
  | free (others : ∀ u, (holds u).Outside) (owner : lock.owner = none) (entries : lock.recursionCount = 0)
      (reader : lock.reader = total Hold.reads holds) (writer : lock.writer = 0)
  | claimed (u : T) (others : ∀ v, v ≠ u → (holds v).Outside) (writes : (holds u).writes = 0)
      (waits : (holds u).waiting = true) (owner : lock.owner = some u) (entries : lock.recursionCount = 1)
      (reader : lock.reader = total Hold.reads holds) (writer : lock.writer = 0)
  | held (u : T) (others : ∀ v, v ≠ u → (holds v).Outside) (writes : 0 < (holds u).writes)
      (waits : (holds u).waiting = false) (owner : lock.owner = some u)
      (entries : lock.recursionCount = (holds u).writes) (reader : lock.reader = 0)
      (readers : total Hold.reads holds = 0) (writer : lock.writer = 1)

theorem init_agrees (nothing : ∀ u, holds u = Hold.nothing) : (init : RwLock T).Agrees holds := by
  refine .free (fun u => ?_) rfl rfl ?_ rfl
  · rw [nothing u]
    exact ⟨rfl, rfl⟩
  · have unread : total Hold.reads holds = 0 := total_eq_zero.mpr fun u => by rw [nothing u]; rfl
    rw [unread]
    rfl

variable [DecidableEq T]

private theorem reads_update {hold : Hold} :
    total Hold.reads (Function.update holds t hold) + (holds t).reads =
      total Hold.reads holds + hold.reads := total_update

/-- A read lock is granted to a thread that is not the writer, and refused to the
writer. -/
theorem Agrees.rlock {rc : Nat} (agrees : lock.Agrees holds) (notWaiting : (holds t).waiting = false)
    (takes : lock.rlock t = some (rc, lock')) :
    rc = 0 ∧ lock'.Agrees (Function.update holds t (holds t).addRead) ∨
      rc ≠ 0 ∧ 0 < (holds t).writes ∧ lock' = lock := by
  unfold RwLock.rlock at takes
  split at takes
  · cases takes
  · next entered enters =>
    obtain ⟨allowed, rfl⟩ := enterCriticalSection_cases enters
    cases agrees with
    | free others owner entries reader writer =>
        rw [if_neg (by simp [writer]), leaveCriticalSection_last (by simp [entries])] at takes
        cases takes
        have more : total Hold.reads (Function.update holds t (holds t).addRead) + (holds t).reads =
            total Hold.reads holds + ((holds t).reads + 1) := reads_update
        refine .inl ⟨rfl, .free (fun u => ?_) rfl rfl ?_ writer⟩
        · by_cases here : u = t
          · subst here
            rw [Function.update_self]
            exact others u
          · exact outside_update (fun v _ => others v) u here
        · simp only [reader]
          omega
    | claimed u others writes waits owner entries reader writer =>
        obtain rfl := eq_of_owner owner allowed
        rw [waits] at notWaiting
        cases notWaiting
    | held u others writes waits owner entries reader readers writer =>
        obtain rfl := eq_of_owner owner allowed
        rw [if_pos (by simp [writer]), leaveCriticalSection_inner (by simp only [entries]; omega)] at takes
        cases takes
        refine .inr ⟨by simp, writes, ?_⟩
        rw [← owner]
        simp

/-- A thread that does not wait either gets the write lock again or waits for the
readers. -/
theorem Agrees.wlockEnter {got : Bool} (agrees : lock.Agrees holds) (notWaiting : (holds t).waiting = false)
    (takes : lock.wlockEnter t = some (got, lock')) :
    got = true ∧ 0 < (holds t).writes ∧ lock'.Agrees (Function.update holds t (holds t).addWrite) ∨
      got = false ∧ lock'.Agrees (Function.update holds t (holds t).await) := by
  unfold RwLock.wlockEnter at takes
  split at takes
  · cases takes
  · next entered enters =>
    obtain ⟨allowed, rfl⟩ := enterCriticalSection_cases enters
    cases takes
    cases agrees with
    | free others owner entries reader writer =>
        have same : total Hold.reads (Function.update holds t (holds t).await) = total Hold.reads holds :=
          total_update_same rfl
        refine .inr ⟨by simp [writer], .claimed t (outside_update fun v _ => others v) ?_ ?_ rfl ?_ ?_ writer⟩
        · rw [Function.update_self]
          exact (others t).1
        · rw [Function.update_self]
          rfl
        · simp [entries]
        · rw [same]
          exact reader
    | claimed u others writes waits owner entries reader writer =>
        obtain rfl := eq_of_owner owner allowed
        rw [waits] at notWaiting
        cases notWaiting
    | held u others writes waits owner entries reader readers writer =>
        obtain rfl := eq_of_owner owner allowed
        have same : total Hold.reads (Function.update holds u (holds u).addWrite) = total Hold.reads holds :=
          total_update_same rfl
        refine .inl ⟨by simp [writer], writes, .held u (outside_update others) ?_ ?_ rfl ?_ reader ?_ writer⟩
        · rw [Function.update_self]
          exact Nat.succ_pos _
        · rw [Function.update_self]
          exact waits
        · rw [Function.update_self]
          simp only [entries]
          rfl
        · rw [same]
          exact readers

theorem Agrees.wlockGrant (agrees : lock.Agrees holds) (waiting : (holds t).waiting = true)
    (grants : lock.wlockGrant = some lock') : lock'.Agrees (Function.update holds t (holds t).grant) := by
  unfold RwLock.wlockGrant at grants
  split at grants
  · next noReader =>
    cases grants
    have same : total Hold.reads (Function.update holds t (holds t).grant) = total Hold.reads holds :=
      total_update_same rfl
    cases agrees with
    | free others owner entries reader writer =>
        rw [(others t).2] at waiting
        cases waiting
    | claimed u others writes waits owner entries reader writer =>
        have here : u = t := by
          by_contra other
          rw [(others t fun same => other same.symm).2] at waiting
          cases waiting
        subst here
        refine .held u (outside_update others) ?_ ?_ owner ?_ noReader ?_ rfl
        · rw [Function.update_self]
          exact Nat.succ_pos _
        · rw [Function.update_self]
          rfl
        · rw [Function.update_self, entries]
          simp only [Hold.grant, writes]
        · rw [same]
          omega
    | held u others writes waits owner entries reader readers writer =>
        by_cases here : t = u
        · subst here
          rw [waits] at waiting
          cases waiting
        · rw [(others t here).2] at waiting
          cases waiting
  · cases grants

/-- What `lbs_rwlock_unlock` does after it has looked at `writer`. -/
def release (seen : Nat) (lock : RwLock T) : RwLock T :=
  if seen = 0 then { lock with reader := lock.reader - 1 }
  else if lock.recursionCount = 1 then { lock with writer := 0 }.leaveCriticalSection
  else lock.leaveCriticalSection

/-- A thread that has a read lock sees no writer, and one that has the write lock sees
itself. -/
theorem Agrees.seen (agrees : lock.Agrees holds) (has : 0 < (holds t).reads ∨ 0 < (holds t).writes) :
    lock.writer = 0 ↔ (holds t).writes = 0 := by
  cases agrees with
  | free others owner entries reader writer => simp [writer, (others t).1]
  | claimed u others writes waits owner entries reader writer =>
      by_cases here : t = u
      · subst here
        simp [writer, writes]
      · simp [writer, (others t here).1]
  | held u others writes waits owner entries reader readers writer =>
      have noReads : (holds t).reads = 0 := total_eq_zero.mp readers t
      have writing : 0 < (holds t).writes := has.resolve_left (by omega)
      simp only [writer, one_ne_zero, false_iff]
      omega

theorem Agrees.release {seen : Nat} (agrees : lock.Agrees holds) (notWaiting : (holds t).waiting = false)
    (has : 0 < (holds t).reads ∨ 0 < (holds t).writes) (saw : seen = 0 ↔ (holds t).writes = 0) :
    (lock.release seen).Agrees (Function.update holds t (holds t).drop) := by
  have changed : total Hold.reads (Function.update holds t (holds t).drop) + (holds t).reads =
      total Hold.reads holds + (holds t).drop.reads := reads_update
  by_cases reads : (holds t).writes = 0
  · have dropped : (holds t).drop = ⟨(holds t).reads - 1, (holds t).writes, (holds t).waiting⟩ := if_pos reads
    have gone : (holds t).drop.reads + 1 = (holds t).reads := by
      rw [dropped]
      simp only
      omega
    have outside : (Function.update holds t (holds t).drop t).Outside := by
      rw [Function.update_self, dropped]
      exact ⟨reads, notWaiting⟩
    rw [RwLock.release, if_pos (saw.mpr reads)]
    cases agrees with
    | free others owner entries reader writer =>
        refine .free (fun u => ?_) owner entries ?_ writer
        · by_cases here : u = t
          · subst here
            exact outside
          · exact outside_update (fun v _ => others v) u here
        · simp only [reader]
          omega
    | claimed u others writes waits owner entries reader writer =>
        have other : u ≠ t := by
          rintro rfl
          rw [waits] at notWaiting
          cases notWaiting
        refine .claimed u (fun v notU => ?_) ?_ ?_ owner entries ?_ writer
        · by_cases here : v = t
          · subst here
            exact outside
          · rw [Function.update_of_ne here]
            exact others v notU
        · rw [Function.update_of_ne other]
          exact writes
        · rw [Function.update_of_ne other]
          exact waits
        · simp only [reader]
          omega
    | held u others writes waits owner entries reader readers writer =>
        have noReads : (holds t).reads = 0 := total_eq_zero.mp readers t
        omega
  · have dropped : (holds t).drop = ⟨(holds t).reads, (holds t).writes - 1, (holds t).waiting⟩ := if_neg reads
    rw [RwLock.release, if_neg fun unread => reads (saw.mp unread)]
    cases agrees with
    | free others owner entries reader writer => exact absurd (others t).1 reads
    | claimed u others writes waits owner entries reader writer =>
        by_cases here : t = u
        · subst here
          exact absurd writes reads
        · exact absurd (others t here).1 reads
    | held u others writes waits owner entries reader readers writer =>
        have here : t = u := by
          by_contra other
          exact reads (others t other).1
        subst here
        by_cases last : lock.recursionCount = 1
        · rw [if_pos last, leaveCriticalSection_last (by simp [last])]
          refine .free (fun v => ?_) rfl rfl ?_ rfl
          · by_cases here : v = t
            · subst here
              rw [Function.update_self, dropped]
              exact ⟨by simp only; omega, waits⟩
            · exact outside_update others v here
          · have noReads : (holds t).drop.reads = 0 := by
              rw [dropped]
              exact total_eq_zero.mp readers t
            simp only [reader]
            omega
        · rw [if_neg last, leaveCriticalSection_inner (by omega)]
          refine .held t (outside_update others) ?_ ?_ owner ?_ reader ?_ writer
          · rw [Function.update_self, dropped]
            simp only
            omega
          · rw [Function.update_self, dropped]
            exact waits
          · rw [Function.update_self, dropped]
            simp only [entries]
          · rw [dropped] at changed ⊢
            simp only at changed
            omega

theorem Agrees.unlock (agrees : lock.Agrees holds) (notWaiting : (holds t).waiting = false)
    (has : 0 < (holds t).reads ∨ 0 < (holds t).writes) :
    lock.unlock.Agrees (Function.update holds t (holds t).drop) :=
  agrees.release notWaiting has (agrees.seen has)

omit [DecidableEq T] in
theorem Agrees.reading (agrees : lock.Agrees holds) (reads : 0 < (holds t).reads) : (holds t).writes = 0 := by
  cases agrees with
  | free others owner entries reader writer => exact (others t).1
  | claimed u others writes waits owner entries reader writer =>
      by_cases here : t = u
      · subst here
        exact writes
      · exact (others t here).1
  | held u others writes waits owner entries reader readers writer =>
      have noReads : (holds t).reads = 0 := total_eq_zero.mp readers t
      omega

omit [DecidableEq T] in
theorem Agrees.writing (agrees : lock.Agrees holds) (writes : 0 < (holds t).writes) :
    lock = ⟨some t, (holds t).writes, 0, 1⟩ ∧ (∀ u, (holds u).reads = 0) ∧ ∀ u, u ≠ t → (holds u).Outside := by
  cases agrees with
  | free others owner entries reader writer =>
      have nothing := (others t).1
      omega
  | claimed u others noWrites waits owner entries reader writer =>
      by_cases here : t = u
      · subst here
        omega
      · have nothing := (others t here).1
        omega
  | held u others _ waits owner entries reader readers writer =>
      have here : t = u := by
        by_contra other
        have nothing := (others t other).1
        omega
      subst here
      refine ⟨?_, total_eq_zero.mp readers, others⟩
      rw [← owner, ← entries, ← reader, ← writer]

omit [DecidableEq T] in
/-- A lock that no thread has or waits for is as new. -/
theorem Agrees.unused (agrees : lock.Agrees holds) (nothing : ∀ u, holds u = Hold.nothing) : lock = RwLock.init := by
  cases agrees with
  | free others owner entries reader writer =>
      have noReads : total Hold.reads holds = 0 := total_eq_zero.mpr fun u => by rw [nothing u]; rfl
      rw [noReads] at reader
      obtain ⟨_, _, _, _⟩ := lock
      cases owner
      cases entries
      cases reader
      cases writer
      rfl
  | claimed u others noWrites waits owner entries reader writer =>
      rw [nothing u] at waits
      cases waits
  | held u others writes waits owner entries reader readers writer =>
      rw [nothing u] at writes
      cases writes

omit [DecidableEq T] in
/-- Two threads cannot both be in the critical section. -/
theorem Agrees.alone {u : T} (agrees : lock.Agrees holds) (inside : ¬ (holds t).Outside)
    (alsoInside : ¬ (holds u).Outside) : t = u := by
  cases agrees with
  | free others owner entries reader writer => exact absurd (others t) inside
  | claimed v others writes waits owner entries reader writer =>
      have first : t = v := not_not.mp fun other => inside (others t other)
      have second : u = v := not_not.mp fun other => alsoInside (others u other)
      rw [first, second]
  | held v others writes waits owner entries reader readers writer =>
      have first : t = v := not_not.mp fun other => inside (others t other)
      have second : u = v := not_not.mp fun other => alsoInside (others u other)
      rw [first, second]

end RwLock

/-!
## Any number of threads
-/

/-- A lock, what each thread has of it, and what a thread in `lbs_rwlock_unlock` saw in
`writer`. -/
structure Shared (T : Type) where
  lock : RwLock T
  holds : T → Hold
  seen : T → Option Nat

inductive LockStep (T : Type) where
  | rlock (t : T)
  /-- `lbs_rwlock_wlock` up to its loop, and the end of the loop. -/
  | wlock (t : T)
  | grant (t : T)
  /-- `lbs_rwlock_unlock` looks at `writer`, and goes on. -/
  | unlock (t : T)
  | release (t : T)
  deriving DecidableEq

namespace Shared

variable {T : Type} [DecidableEq T]

/-- The thread is in no call. -/
def Idle (s : Shared T) (t : T) : Prop := (s.holds t).waiting = false ∧ s.seen t = none

instance (s : Shared T) (t : T) : Decidable (s.Idle t) :=
  inferInstanceAs (Decidable ((s.holds t).waiting = false ∧ s.seen t = none))

def setHold (t : T) (hold : Hold) (lock : RwLock T) (s : Shared T) : Shared T :=
  { s with lock, holds := Function.update s.holds t hold }

/-- One step. A thread unlocks what it has. -/
def next : LockStep T → Shared T → Option (Shared T)
  | .rlock t, s =>
      if s.Idle t then
        (s.lock.rlock t).map fun taken =>
          if taken.1 = 0 then s.setHold t (s.holds t).addRead taken.2 else { s with lock := taken.2 }
      else none
  | .wlock t, s =>
      if s.Idle t then
        (s.lock.wlockEnter t).map fun entered =>
          s.setHold t (if entered.1 then (s.holds t).addWrite else (s.holds t).await) entered.2
      else none
  | .grant t, s =>
      if (s.holds t).waiting then s.lock.wlockGrant.map (s.setHold t (s.holds t).grant) else none
  | .unlock t, s =>
      if s.Idle t ∧ (0 < (s.holds t).reads ∨ 0 < (s.holds t).writes) then
        some { s with seen := Function.update s.seen t (some s.lock.writer) }
      else none
  | .release t, s =>
      (s.seen t).map fun writer =>
        { s.setHold t (s.holds t).drop (s.lock.release writer) with seen := Function.update s.seen t none }

def init : Shared T := ⟨RwLock.init, fun _ => Hold.nothing, fun _ => none⟩

variable [Fintype T]

/-- The lock is what the threads make of it, and a thread that gives a lock back saw
what it has. -/
structure Consistent (s : Shared T) : Prop where
  agrees : s.lock.Agrees s.holds
  saw : ∀ t writer, s.seen t = some writer → (s.holds t).waiting = false ∧
    (0 < (s.holds t).reads ∨ 0 < (s.holds t).writes) ∧ (writer = 0 ↔ (s.holds t).writes = 0)

variable {s s' : Shared T} {t : T}

/-- Only the holds of a thread that saw nothing change. -/
theorem saw_setHold {lock : RwLock T} {hold : Hold} (consistent : s.Consistent) (idle : s.seen t = none)
    (u : T) (writer : Nat) (saw : s.seen u = some writer) :
    ((s.setHold t hold lock).holds u).waiting = false ∧
      (0 < ((s.setHold t hold lock).holds u).reads ∨ 0 < ((s.setHold t hold lock).holds u).writes) ∧
      (writer = 0 ↔ ((s.setHold t hold lock).holds u).writes = 0) := by
  have other : u ≠ t := by
    rintro rfl
    rw [idle] at saw
    cases saw
  simp only [setHold, Function.update_of_ne other]
  exact consistent.saw u writer saw

theorem Consistent.next {step : LockStep T} (consistent : s.Consistent)
    (steps : Shared.next step s = some s') : s'.Consistent := by
  cases step with
  | rlock t =>
      simp only [Shared.next] at steps
      split at steps
      · next idle =>
        obtain ⟨⟨rc, lock⟩, takes, rfl⟩ := Option.map_eq_some_iff.mp steps
        rcases consistent.agrees.rlock idle.1 takes with ⟨rfl, agrees⟩ | ⟨refused, _, rfl⟩
        · exact ⟨agrees, saw_setHold consistent idle.2⟩
        · rw [if_neg refused]
          exact consistent
      · cases steps
  | wlock t =>
      simp only [Shared.next] at steps
      split at steps
      · next idle =>
        obtain ⟨⟨got, lock⟩, takes, rfl⟩ := Option.map_eq_some_iff.mp steps
        rcases consistent.agrees.wlockEnter idle.1 takes with ⟨rfl, _, agrees⟩ | ⟨rfl, agrees⟩
        · exact ⟨agrees, saw_setHold consistent idle.2⟩
        · exact ⟨agrees, saw_setHold consistent idle.2⟩
      · cases steps
  | grant t =>
      simp only [Shared.next] at steps
      split at steps
      · next waits =>
        obtain ⟨lock, grants, rfl⟩ := Option.map_eq_some_iff.mp steps
        have idle : s.seen t = none := by
          cases saw : s.seen t with
          | none => rfl
          | some writer =>
              have notWaiting := (consistent.saw t writer saw).1
              rw [waits] at notWaiting
              cases notWaiting
        exact ⟨consistent.agrees.wlockGrant waits grants, saw_setHold consistent idle⟩
      · cases steps
  | unlock t =>
      simp only [Shared.next] at steps
      split at steps
      · next has =>
        cases steps
        refine ⟨consistent.agrees, fun u writer saw => ?_⟩
        by_cases here : u = t
        · subst here
          simp only [Function.update_self, Option.some.injEq] at saw
          subst saw
          exact ⟨has.1.1, has.2, consistent.agrees.seen has.2⟩
        · simp only [Function.update_of_ne here] at saw
          exact consistent.saw u writer saw
      · cases steps
  | release t =>
      obtain ⟨writer, saw, rfl⟩ := Option.map_eq_some_iff.mp steps
      obtain ⟨notWaiting, has, same⟩ := consistent.saw t writer saw
      refine ⟨consistent.agrees.release notWaiting has same, fun u other sees => ?_⟩
      have elsewhere : u ≠ t := by
        rintro rfl
        simp at sees
      simp only [Function.update_of_ne elsewhere] at sees
      simp only [setHold, Function.update_of_ne elsewhere]
      exact consistent.saw u other sees

/-- In every state that threads reach with a lock, its fields count what they have, a
writer is alone, and a lock that nobody has or waits for is as new. -/
theorem lock_exclusive {steps : List (LockStep T)} (runs : run Shared.next steps init = some s) :
    s.lock.reader = total Hold.reads s.holds ∧ (s.lock.writer = 0 ∨ s.lock.writer = 1) ∧
      (s.lock.writer = 1 → (∃! t, 0 < (s.holds t).writes) ∧ ∀ t, (s.holds t).reads = 0) ∧
      ((∀ t, (s.holds t).reads = 0 ∧ (s.holds t).writes = 0) →
        s.lock.reader = 0 ∧ s.lock.writer = 0 ∧
          ((∀ t, (s.holds t).waiting = false) → s.lock.owner = none)) := by
  have invariant : s.Consistent := by
    refine run_invariant (P := fun s => s.Consistent) (fun step s s' consistent steps =>
      consistent.next steps) ⟨RwLock.init_agrees fun _ => rfl, fun _ _ saw => by cases saw⟩ runs
  cases invariant.agrees with
  | free others owner entries reader writer =>
      refine ⟨reader, .inl writer, by simp [writer], fun unheld => ⟨?_, writer, fun _ => owner⟩⟩
      rw [reader, total_eq_zero.mpr fun t => (unheld t).1]
      rfl
  | claimed u others writes waits owner entries reader writer =>
      refine ⟨reader, .inl writer, by simp [writer], fun unheld => ⟨?_, writer, fun idle => ?_⟩⟩
      · rw [reader, total_eq_zero.mpr fun t => (unheld t).1]
        rfl
      · rw [idle u] at waits
        cases waits
  | held u others writes waits owner entries reader readers writer =>
      refine ⟨by rw [reader, readers]; rfl, .inr writer, fun _ => ⟨⟨u, writes, fun v has => ?_⟩, ?_⟩,
        fun unheld => ?_⟩
      · by_contra other
        have nothing := (others v other).1
        omega
      · exact total_eq_zero.mp readers
      · have nothing := (unheld u).2
        omega

/-- A thread takes the write lock twice, and is refused a read lock. -/
def nestedWrites : List (LockStep Bool) := [.wlock true, .grant true, .wlock true, .rlock true]

theorem lock_exclusive_nested :
    ∃ s, run Shared.next nestedWrites init = some s ∧ (∃! t, 0 < (s.holds t).writes) ∧
      ∀ t, (s.holds t).reads = 0 := by
  have exclusive : ∀ s, run Shared.next nestedWrites init = some s → s.lock.writer = 1 →
      (∃! t, 0 < (s.holds t).writes) ∧ ∀ t, (s.holds t).reads = 0 :=
    fun s runs => (lock_exclusive runs).2.2.1
  exact ⟨_, rfl, exclusive _ rfl rfl⟩

/-- While the last reader leaves, a writer waits in the critical section. -/
theorem lock_claimed :
    ∃ s, run Shared.next [.rlock true, .wlock false, .unlock true, .release true] init = some s ∧
      (∀ t, (s.holds t).reads = 0 ∧ (s.holds t).writes = 0) ∧ s.lock.owner ≠ none :=
  ⟨_, rfl, by decide, by decide⟩

end Shared

end GbfLibrary.Lock
