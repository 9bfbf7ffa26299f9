import GbfLibrary.Enet.Handle
import GbfLibrary.Lock.RwLockRuns

/-!
# Locks on a handle that lives

`enet_handle_rlock`, `enet_handle_wlock` and `enet_handle_unlock` of `enet_handle.c`, called by any
number of threads on a handle that is registered, alive and has its object. The mode of every lock
is remembered, and `lbs_rwlock_unlock` looks at `writer` before it goes on.
-/

set_option autoImplicit false

namespace GbfLibrary.Enet.Live

open Systems Lock

/-- How far a thread is in a call. -/
inductive Point where
  | idle
  /-- `refcnt` is raised, the handle's lock is not taken yet. -/
  | counted (mode : LockMode)
  /-- In the loop of `lbs_rwlock_wlock`. -/
  | claiming
  /-- Before `alive` and `obj` are looked at. -/
  | locked (mode : LockMode)
  /-- `enet_handle_unlock` is called. -/
  | unlocking
  /-- `lbs_rwlock_unlock` has looked at `writer`. -/
  | releasing (seen : Nat)
  /-- The handle's lock is released, `refcnt` is not lowered yet. -/
  | released
  deriving DecidableEq

/-- A thread: the locks that its calls returned `LBS_CODE_OK` for and that were not released since, the last
one first, and its current call. -/
structure Holder where
  granted : List LockMode
  point : Point
  deriving DecidableEq

namespace Holder

/-- The locks of a thread, also the one whose call has not returned yet. -/
def locks (holder : Holder) : List LockMode :=
  match holder.point with
  | .locked mode => mode :: holder.granted
  | _ => holder.granted

/-- What a thread has of the handle's lock. -/
def hold (holder : Holder) : Hold :=
  ⟨holder.locks.count .read, holder.locks.count .write, holder.point = .claiming⟩

/-- What a thread adds to `refcnt`. -/
def references (holder : Holder) : Nat :=
  match holder.point with
  | .idle | .unlocking | .releasing _ => holder.granted.length
  | .counted _ | .claiming | .locked _ | .released => holder.granted.length + 1

end Holder

/-- A handle that lives, and the threads that use it. -/
structure LiveHandle (T : Type) where
  refcnt : Int
  lock : RwLock T
  holders : T → Holder

inductive LiveStep (T : Type) where
  /-- `enet_handle_rlock` or `enet_handle_wlock` is called, finds the handle and raises `refcnt`. -/
  | call (t : T) (mode : LockMode)
  | enter (t : T)
  | grant (t : T)
  /-- The call returns `LBS_CODE_OK`. -/
  | check (t : T)
  | unlock (t : T)
  | see (t : T)
  | release (t : T)
  | leave (t : T)
  deriving DecidableEq

namespace LiveHandle

variable {T : Type} [DecidableEq T]

def setHolder (t : T) (holder : Holder) (s : LiveHandle T) : LiveHandle T :=
  { s with holders := Function.update s.holders t holder }

def move (t : T) (point : Point) (s : LiveHandle T) : LiveHandle T :=
  s.setHolder t ⟨(s.holders t).granted, point⟩

/-- Taking the handle's lock. What `lbs_rwlock_rlock` returns is not looked at. -/
def enter (t : T) (mode : LockMode) (s : LiveHandle T) : Option (LiveHandle T) :=
  match mode with
  | .read => (s.lock.rlock t).map fun taken => { s with lock := taken.2 }.move t (.locked .read)
  | .write => (s.lock.wlockEnter t).map fun entered =>
      { s with lock := entered.2 }.move t (if entered.1 then .locked .write else .claiming)

/-- One step, if it is the thread's turn. -/
def next : LiveStep T → LiveHandle T → Option (LiveHandle T)
  | .call t mode, s =>
      if (s.holders t).point = .idle then some ({ s with refcnt := s.refcnt + 1 }.move t (.counted mode)) else none
  | .enter t, s =>
      match (s.holders t).point with
      | .counted mode => s.enter t mode
      | _ => none
  | .grant t, s =>
      if (s.holders t).point = .claiming then
        s.lock.wlockGrant.map fun lock => { s with lock }.move t (.locked .write)
      else none
  | .check t, s =>
      match (s.holders t).point with
      | .locked mode => some (s.setHolder t ⟨mode :: (s.holders t).granted, .idle⟩)
      | _ => none
  | .unlock t, s =>
      if (s.holders t).point = .idle ∧ (s.holders t).granted ≠ [] then some (s.move t .unlocking) else none
  | .see t, s =>
      if (s.holders t).point = .unlocking then some (s.move t (.releasing s.lock.writer)) else none
  | .release t, s =>
      match (s.holders t).point with
      | .releasing seen =>
          some ({ s with lock := s.lock.release seen }.setHolder t ⟨(s.holders t).granted.tail, .released⟩)
      | _ => none
  | .leave t, s =>
      if (s.holders t).point = .released then
        some ({ s with refcnt := HandleState.dropReference s.refcnt }.move t .idle)
      else none

def init : LiveHandle T := ⟨0, RwLock.init, fun _ => ⟨[], .idle⟩⟩

/-- A thread takes no read lock while it has the write lock. -/
def NoDowngrade : LiveStep T → LiveHandle T → Prop
  | .call t .read, s => .write ∉ (s.holders t).granted
  | _, _ => True

instance : (step : LiveStep T) → (s : LiveHandle T) → Decidable (NoDowngrade step s)
  | .call t .read, s => inferInstanceAs (Decidable (.write ∉ (s.holders t).granted))
  | .call _ .write, _ | .enter _, _ | .grant _, _ | .check _, _ | .unlock _, _ | .see _, _ | .release _, _
  | .leave _, _ => .isTrue trivial

/-- The calls of a thread that takes the write lock. -/
def takesWrite (t : T) : List (LiveStep T) := [.call t .write, .enter t, .grant t, .check t]

/-- The calls of a thread that takes a read lock and gives one lock back. -/
def passesRead (t : T) : List (LiveStep T) :=
  [.call t .read, .enter t, .check t, .unlock t, .see t, .release t, .leave t]

/-- What holds of a thread at its point. -/
def Fits (holder : Holder) : Prop :=
  match holder.point with
  | .counted .read => .write ∉ holder.granted
  | .unlocking => holder.granted ≠ []
  | .releasing seen => holder.granted ≠ [] ∧ (seen = 0 ↔ holder.granted.count .write = 0)
  | _ => True

variable [Fintype T]

/-- The lock is what the threads make of it, and `refcnt` counts their locks. -/
structure Right (s : LiveHandle T) : Prop where
  agrees : s.lock.Agrees fun t => (s.holders t).hold
  counted : s.refcnt = total Holder.references s.holders
  fits : ∀ t, Fits (s.holders t)

variable {s s' : LiveHandle T} {t : T}

omit [DecidableEq T] in
theorem Right.init : Right (LiveHandle.init : LiveHandle T) := by
  constructor
  · exact RwLock.init_agrees fun _ => rfl
  · have nothing : total Holder.references (LiveHandle.init : LiveHandle T).holders = 0 := total_eq_zero.mpr fun _ => rfl
    rw [nothing]
    rfl
  · exact fun _ => trivial

private theorem Right.setHolder (right : Right s) {lock : RwLock T} {refcnt : Int} {holder : Holder}
    (agrees : lock.Agrees (Function.update (fun u => (s.holders u).hold) t holder.hold))
    (counted : refcnt + (s.holders t).references = s.refcnt + holder.references) (fits : Fits holder) :
    Right ({ s with lock, refcnt }.setHolder t holder) := by
  constructor
  · have same : (fun u => (Function.update s.holders t holder u).hold) =
        Function.update (fun u => (s.holders u).hold) t holder.hold := by
      funext u
      exact Function.apply_update (fun _ => Holder.hold) s.holders t holder u
    rw [LiveHandle.setHolder, same]
    exact agrees
  · have changed : total Holder.references (Function.update s.holders t holder) + (s.holders t).references =
        total Holder.references s.holders + holder.references := total_update
    have before := right.counted
    simp only [LiveHandle.setHolder]
    omega
  · intro u
    by_cases here : u = t
    · subst here
      simpa only [LiveHandle.setHolder, Function.update_self] using fits
    · simpa only [LiveHandle.setHolder, Function.update_of_ne here] using right.fits u

theorem Right.pass (right : Right s) {refcnt : Int} {holder : Holder} (same : holder.hold = (s.holders t).hold)
    (counted : refcnt + (s.holders t).references = s.refcnt + holder.references) (fits : Fits holder) :
    Right ({ s with refcnt }.setHolder t holder) := by
  refine right.setHolder ?_ counted fits
  rw [same, Function.update_eq_self_iff.mpr rfl]
  exact right.agrees

theorem Right.enter (right : Right s) {mode : LockMode} (point : (s.holders t).point = .counted mode)
    (enters : s.enter t mode = some s') : Right s' := by
  have fits := right.fits t
  have notWaiting : ((s.holders t).hold).waiting = false := by simp [Holder.hold, point]
  cases mode with
  | read =>
      obtain ⟨⟨rc, lock⟩, takes, rfl⟩ := Option.map_eq_some_iff.mp enters
      rcases right.agrees.rlock notWaiting takes with ⟨_, agrees⟩ | ⟨_, writes, _⟩
      · apply right.setHolder
        · have more : Holder.hold ⟨(s.holders t).granted, .locked .read⟩ = (s.holders t).hold.addRead := by
            simp [Holder.hold, Holder.locks, point, Hold.addRead]
          rw [more]
          exact agrees
        · simp only [Holder.references, point]
        · trivial
      · simp only [Fits, point] at fits
        simp only [Holder.hold, Holder.locks, point] at writes
        exact absurd (List.count_pos_iff.mp writes) fits
  | write =>
      obtain ⟨⟨got, lock⟩, takes, rfl⟩ := Option.map_eq_some_iff.mp enters
      rcases right.agrees.wlockEnter notWaiting takes with ⟨rfl, _, agrees⟩ | ⟨rfl, agrees⟩
      · apply right.setHolder
        · have more : Holder.hold ⟨(s.holders t).granted, .locked .write⟩ = (s.holders t).hold.addWrite := by
            simp [Holder.hold, Holder.locks, point, Hold.addWrite]
          simp only [if_true]
          rw [more]
          exact agrees
        · simp only [Holder.references, point, if_true]
        · trivial
      · apply right.setHolder
        · have waits : Holder.hold ⟨(s.holders t).granted, .claiming⟩ = (s.holders t).hold.await := by
            simp [Holder.hold, Holder.locks, point, Hold.await]
          simp only [Bool.false_eq_true, if_false]
          rw [waits]
          exact agrees
        · simp only [Holder.references, point, Bool.false_eq_true, if_false]
        · trivial

theorem Right.grant (right : Right s) (point : (s.holders t).point = .claiming) {lock : RwLock T}
    (grants : s.lock.wlockGrant = some lock) : Right ({ s with lock }.move t (.locked .write)) := by
  have waiting : ((s.holders t).hold).waiting = true := by simp [Holder.hold, point]
  apply right.setHolder
  · have more : Holder.hold ⟨(s.holders t).granted, .locked .write⟩ = (s.holders t).hold.grant := by
      simp [Holder.hold, Holder.locks, point, Hold.grant]
    rw [more]
    exact right.agrees.wlockGrant waiting grants
  · simp only [Holder.references, point]
  · trivial

theorem Right.release (right : Right s) {seen : Nat} (point : (s.holders t).point = .releasing seen) :
    Right ({ s with lock := s.lock.release seen }.setHolder t ⟨(s.holders t).granted.tail, .released⟩) := by
  have fits := right.fits t
  simp only [Fits, point] at fits
  obtain ⟨holding, saw⟩ := fits
  obtain ⟨mode, granted, has⟩ := List.exists_cons_of_ne_nil holding
  have hold : (s.holders t).hold = ⟨(mode :: granted).count .read, (mode :: granted).count .write, false⟩ := by
    simp [Holder.hold, Holder.locks, point, has]
  have notWaiting : ((s.holders t).hold).waiting = false := by rw [hold]
  apply right.setHolder
  · have less : Holder.hold ⟨(s.holders t).granted.tail, .released⟩ = (s.holders t).hold.drop := by
      have released : Holder.hold ⟨(s.holders t).granted.tail, .released⟩ =
          ⟨granted.count .read, granted.count .write, false⟩ := by simp [Holder.hold, Holder.locks, has]
      rw [released, hold]
      cases mode with
      | read =>
          have reads : 0 < ((s.holders t).hold).reads := by simp [hold]
          have noWrites := right.agrees.reading reads
          rw [hold] at noWrites
          simp only [Hold.drop, List.count_cons_self, Nat.add_sub_cancel]
          simpa using noWrites
      | write => simp [Hold.drop]
    rw [less]
    apply right.agrees.release notWaiting
    · rw [hold]
      cases mode with
      | read => simp
      | write => simp
    · rw [saw, hold, has]
  · simp [Holder.references, point, has]
  · trivial

theorem Right.next (right : Right s) {step : LiveStep T} (noDowngrade : NoDowngrade step s)
    (steps : LiveHandle.next step s = some s') : Right s' := by
  cases step with
  | call t mode =>
      simp only [LiveHandle.next] at steps
      split at steps
      · next point =>
        cases steps
        apply right.pass
        · simp [Holder.hold, Holder.locks, point]
        · simp only [Holder.references, point]
          push_cast
          omega
        · cases mode with
          | read => exact noDowngrade
          | write => trivial
      · cases steps
  | enter t =>
      simp only [LiveHandle.next] at steps
      split at steps
      · next mode point => exact right.enter point steps
      · cases steps
  | grant t =>
      simp only [LiveHandle.next] at steps
      split at steps
      · next point =>
        obtain ⟨lock, grants, rfl⟩ := Option.map_eq_some_iff.mp steps
        exact right.grant point grants
      · cases steps
  | check t =>
      simp only [LiveHandle.next] at steps
      split at steps
      · next mode point =>
        cases steps
        apply right.pass
        · simp [Holder.hold, Holder.locks, point]
        · simp [Holder.references, point]
        · trivial
      · cases steps
  | unlock t =>
      simp only [LiveHandle.next] at steps
      split at steps
      · next point =>
        cases steps
        apply right.pass
        · simp [Holder.hold, Holder.locks, point.1]
        · simp [Holder.references, point.1]
        · exact point.2
      · cases steps
  | see t =>
      simp only [LiveHandle.next] at steps
      split at steps
      · next point =>
        cases steps
        have holding := right.fits t
        simp only [Fits, point] at holding
        apply right.pass
        · simp [Holder.hold, Holder.locks, point]
        · simp [Holder.references, point]
        · refine ⟨holding, ?_⟩
          obtain ⟨mode, granted, has⟩ := List.exists_cons_of_ne_nil holding
          have seen := right.agrees.seen (t := t) (by cases mode <;> simp [Holder.hold, Holder.locks, point, has])
          simpa [Holder.hold, Holder.locks, point] using seen
      · cases steps
  | release t =>
      simp only [LiveHandle.next] at steps
      split at steps
      · next seen point =>
        cases steps
        exact right.release point
      · cases steps
  | leave t =>
      simp only [LiveHandle.next] at steps
      split at steps
      · next point =>
        cases steps
        have counted := right.counted
        have share : (s.holders t).references ≤ total Holder.references s.holders := share_le_total t
        simp only [Holder.references, point] at share
        apply right.pass
        · simp [Holder.hold, Holder.locks, point]
        · simp only [Holder.references, point, HandleState.dropReference]
          rw [if_pos (by omega)]
          push_cast
          omega
        · trivial
      · cases steps

omit [DecidableEq T] in
theorem Right.excludes (right : Right s) (writes : .write ∈ (s.holders t).granted) {u : T} (other : u ≠ t) :
    (s.holders u).locks = [] := by
  have has : .write ∈ (s.holders t).locks := by
    unfold Holder.locks
    split
    · exact List.mem_cons_of_mem _ writes
    · exact writes
  have held : 0 < ((s.holders t).hold).writes := List.count_pos_iff.mpr has
  obtain ⟨_, noReads, outside⟩ := right.agrees.writing held
  have noRead : .read ∉ (s.holders u).locks := List.count_eq_zero.mp (noReads u)
  have noWrite : .write ∉ (s.holders u).locks := List.count_eq_zero.mp (outside u other).1
  apply List.eq_nil_iff_forall_not_mem.mpr
  intro mode member
  cases mode with
  | read => exact noRead member
  | write => exact noWrite member

omit [DecidableEq T] in
theorem Right.unused (right : Right s) (unused : ∀ t, s.holders t = ⟨[], .idle⟩) :
    s.lock.reader = 0 ∧ s.lock.writer = 0 ∧ s.refcnt = 0 := by
  have new : s.lock = RwLock.init := right.agrees.unused fun t => by rw [unused t]; rfl
  have references : total Holder.references s.holders = 0 := total_eq_zero.mpr fun t => by rw [unused t]; rfl
  rw [new, right.counted, references]
  exact ⟨rfl, rfl, rfl⟩

/-- A writer that takes a read lock gets it, and gives its write lock back with it. -/
theorem Right.downgrade (right : Right s) (writes : s.holders t = ⟨[.write], .idle⟩) :
    ∃ s', run LiveHandle.next (passesRead t) s = some s' ∧
      s'.holders t = ⟨[.write], .idle⟩ ∧ s'.lock.owner = none ∧ s'.lock.writer = 0 := by
  have held : 0 < ((s.holders t).hold).writes := by simp [Holder.hold, Holder.locks, writes]
  have lock : s.lock = ⟨some t, 1, 0, 1⟩ := by
    rw [(right.agrees.writing held).1]
    simp [Holder.hold, Holder.locks, writes]
  simp [passesRead, run, LiveHandle.next, LiveHandle.enter, RwLock.rlock, RwLock.enterCriticalSection, lock, writes, move,
    LiveHandle.setHolder, RwLock.leaveCriticalSection, RwLock.release]

/-- As long as no writer takes a read lock, a thread with the write lock excludes all other locks, and a handle
that no thread uses is as new. A writer that takes a read lock gets it, and loses its write lock with it. -/
theorem excludes_of_noDowngrade {steps : List (LiveStep T)} (meets : Meets LiveHandle.next NoDowngrade steps init)
    (runs : run LiveHandle.next steps init = some s) :
    (∀ t, .write ∈ (s.holders t).granted → ∀ u, u ≠ t → (s.holders u).locks = []) ∧
      ((∀ t, s.holders t = ⟨[], .idle⟩) → s.lock.reader = 0 ∧ s.lock.writer = 0 ∧ s.refcnt = 0) ∧
      ∀ t, s.holders t = ⟨[.write], .idle⟩ →
        ∃ s', run LiveHandle.next (passesRead t) s = some s' ∧ s'.holders t = ⟨[.write], .idle⟩ ∧
          s'.lock.owner = none ∧ s'.lock.writer = 0 := by
  have right : Right s :=
    run_invariant_of_meets (fun _ _ _ right noDowngrade steps => right.next noDowngrade steps) .init meets runs
  exact ⟨fun t writes u other => right.excludes writes other, right.unused, fun t writes => right.downgrade writes⟩

/-- One thread has the write lock, and another one wants to read. -/
theorem excludes_of_noDowngrade_two :
    ∃ s, run LiveHandle.next (takesWrite true ++ [.call false .read]) init = some s ∧
      (∀ t, .write ∈ (s.holders t).granted → ∀ u, u ≠ t → (s.holders u).locks = []) ∧
      ((∀ t, s.holders t = ⟨[], .idle⟩) → s.lock.reader = 0 ∧ s.lock.writer = 0 ∧ s.refcnt = 0) ∧
      ∀ t, s.holders t = ⟨[.write], .idle⟩ →
        ∃ s', run LiveHandle.next (passesRead t) s = some s' ∧ s'.holders t = ⟨[.write], .idle⟩ ∧
          s'.lock.owner = none ∧ s'.lock.writer = 0 := by
  obtain ⟨s, runs⟩ := Option.isSome_iff_exists.mp
    (show (run LiveHandle.next (takesWrite true ++ [.call false .read]) init).isSome = true by decide +kernel)
  exact ⟨s, runs, excludes_of_noDowngrade (by decide +kernel) runs⟩

/-- A thread that has the write lock takes a read lock and gives it back, and another thread takes the write lock. -/
theorem both_write :
    ∃ s, run LiveHandle.next (takesWrite true ++ passesRead true ++ takesWrite false) init = some s ∧
      (s.holders true).granted = [.write] ∧ (s.holders false).granted = [.write] :=
  ⟨_, rfl, by decide, by decide⟩

end LiveHandle

end GbfLibrary.Enet.Live
