import GbfLibrary.Lock.RwLock
import GbfLibrary.Systems.Shares
import GbfLibrary.Thp.HandlePool

/-!
# Handles of the thread pool

`thp_handle_rlock`, `thp_handle_wlock` and `thp_handle_unlock` of `thp_handle.c`
on one handle, called by any number of threads. What happens under the lock of
the registry is one step, and works on the registry in memory; the handle's own
lock is taken and released in steps of their own.
-/

set_option autoImplicit false

namespace GbfLibrary.Thp

open Memory Prog Systems Lock Handles

inductive LockMode where
  | read
  | write
  deriving DecidableEq, Repr

/-- How far a thread is in a call. -/
inductive CallPoint where
  | idle
  /-- `refcnt` is raised, the handle's lock is not taken yet. -/
  | counted (mode : LockMode)
  /-- In the loop of `thp_rwlock_wlock`. -/
  | claiming
  /-- Before `alive` is looked at. -/
  | locked
  /-- `thp_handle_unlock` is called. -/
  | unlocking
  | sampled (isAlive : Bool)
  /-- The handle's lock is released, the lock of the registry not taken yet. -/
  | released (isAlive : Bool)
  deriving DecidableEq, Repr

/-- A thread: the locks it got and did not give back, and its current call. -/
structure Caller where
  holds : Nat
  point : CallPoint
  deriving DecidableEq, Repr

/-- What is under the lock of the registry in `thp_handle_unlock`: whether the handle is deleted. -/
def dropReference (fuel : Nat) (handle : Addr) (isAlive : Bool) : PoolProg Unit Bool := do
  store handle fun info => { info with refcnt := info.refcnt - 1 }
  let info ← load handle
  if isAlive = false ∧ info.refcnt ≤ 0 then (do
    delHandle fuel handle
    return true)
  else return false

/-- The handles in memory, the lock of one of them, and the threads that use it.
`deletions` counts the calls of `thp_del_handle` since it was created. -/
structure HandleState (n : Nat) where
  pool : PoolState Unit
  lock : RwLock (Fin n)
  deletions : Nat
  /-- A call has gone through a pointer to memory that was freed. -/
  crashed : Bool
  callers : Fin n → Caller

inductive HandleStep (n : Nat) where
  | lookup (i : Fin n) (mode : LockMode)
  | enter (i : Fin n)
  | grant (i : Fin n)
  | check (i : Fin n)
  | unlock (i : Fin n)
  | sample (i : Fin n)
  | release (i : Fin n)
  | leave (i : Fin n)
  /-- A write holder sets `alive` to 0. -/
  | kill (i : Fin n)
  /-- Other handles come and go. -/
  | register (needLock : Bool)
  | unregister (other : Addr)
  deriving DecidableEq, Repr

namespace HandleState

variable {n : Nat}

def pointOf (s : HandleState n) (i : Fin n) : CallPoint := (s.callers i).point

def info (s : HandleState n) (handle : Addr) : Handle := s.pool.machine.cell handle

def move (i : Fin n) (point : CallPoint) (s : HandleState n) : HandleState n :=
  { s with callers := Function.update s.callers i { s.callers i with point } }

def crash (s : HandleState n) : HandleState n := { s with crashed := true }

/-- A call that got its lock returns. -/
def hold (i : Fin n) (s : HandleState n) : HandleState n :=
  { s with callers := Function.update s.callers i ⟨(s.callers i).holds + 1, .idle⟩ }

/-- A walk past all handles that there are does not end. -/
def fuel (s : HandleState n) : Nat := s.pool.machine.live.card + 1

/-- A part of a step that works on the registry. -/
def exec {α : Type} (prog : PoolProg Unit α) (rest : α → HandleState n → HandleState n) (s : HandleState n) :
    HandleState n :=
  match prog s.pool.machine with
  | none => s.crash
  | some (a, machine) => rest a { s with pool := ⟨machine, s.pool.handles⟩ }

/-- A part of a step that reads the handle. -/
def reach (handle : Addr) (s : HandleState n) (step : Option (HandleState n)) : Option (HandleState n) :=
  if handle ∈ s.pool.machine.live then step else some s.crash

/-- The first half of `thp_handle_rlock` and `thp_handle_wlock`. -/
def lookup (handle : Addr) (i : Fin n) (mode : LockMode) (s : HandleState n) : HandleState n :=
  s.exec (countReference s.fuel handle) fun found s => if found = true then s.move i (.counted mode) else s

/-- Taking the handle's lock. What `thp_rwlock_rlock` returns is not looked at. -/
def enter (i : Fin n) (mode : LockMode) (s : HandleState n) : Option (HandleState n) :=
  match mode with
  | .read => (s.lock.rlock i).map fun locked => { s with lock := locked.2 }.move i .locked
  | .write => (s.lock.wlockEnter i).map fun entered =>
      { s with lock := entered.2 }.move i (if entered.1 then .locked else .claiming)

def grant (i : Fin n) (s : HandleState n) : Option (HandleState n) :=
  s.lock.wlockGrant.map fun lock => { s with lock }.move i .locked

/-- The second half of `thp_handle_rlock` and `thp_handle_wlock`. -/
def check (handle : Addr) (i : Fin n) (s : HandleState n) : HandleState n :=
  if (s.info handle).alive = true then s.hold i else s.move i .unlocking

/-- The second half of `thp_handle_unlock`. -/
def leave (handle : Addr) (i : Fin n) (isAlive : Bool) (s : HandleState n) : HandleState n :=
  s.exec (dropReference s.fuel handle isAlive) fun deleted s =>
    if deleted = true then
      { s with
        pool := ⟨s.pool.machine, s.pool.handles.erase handle⟩
        deletions := s.deletions + 1 }.move i .idle
    else s.move i .idle

/-- Another handle is created. Where it gets the address of one that was deleted, that address stands for the new
one from then on. -/
def register (malloc : Malloc) (handle : Addr) (needLock : Bool) (s : HandleState n) : HandleState n :=
  s.exec (newHandle malloc s.fuel needLock) fun out s =>
    if out = 0 then s
    else
      { s with
        pool := ⟨s.pool.machine, s.pool.handles ++ [out]⟩
        lock := if out = handle then RwLock.init else s.lock
        deletions := if out = handle then 0 else s.deletions }

/-- One step, if it is the thread's turn. -/
def next (malloc : Malloc) (handle : Addr) (step : HandleStep n) (s : HandleState n) : Option (HandleState n) :=
  if s.crashed = true then none
  else
    match step with
    | .lookup i mode => if s.pointOf i = .idle then some (s.lookup handle i mode) else none
    | .enter i =>
        match s.pointOf i with
        | .counted mode => s.reach handle (s.enter i mode)
        | _ => none
    | .grant i => if s.pointOf i = .claiming then s.reach handle (s.grant i) else none
    | .check i => if s.pointOf i = .locked then s.reach handle (some (s.check handle i)) else none
    | .unlock i =>
        if s.pointOf i = .idle ∧ 0 < (s.callers i).holds then
          some { s with callers := Function.update s.callers i ⟨(s.callers i).holds - 1, .unlocking⟩ }
        else none
    | .sample i =>
        if s.pointOf i = .unlocking then s.reach handle (some (s.move i (.sampled (s.info handle).alive))) else none
    | .release i =>
        match s.pointOf i with
        | .sampled isAlive => s.reach handle (some ({ s with lock := s.lock.unlock }.move i (.released isAlive)))
        | _ => none
    | .leave i =>
        match s.pointOf i with
        | .released isAlive => some (s.leave handle i isAlive)
        | _ => none
    | .kill i =>
        if s.pointOf i = .idle ∧ 0 < (s.callers i).holds ∧ s.lock.writer ≠ 0 ∧ s.lock.owner = some i then
          some (s.exec (store handle fun info => { info with alive := false }) fun _ s => s)
        else none
    | .register needLock => some (s.register malloc handle needLock)
    | .unregister other =>
        if other ≠ handle ∧ other ∈ s.pool.handles then
          some (s.exec (delHandle s.fuel other) fun _ s =>
            { s with pool := ⟨s.pool.machine, s.pool.handles.erase other⟩ })
        else none

/-- A handle of the registry that is alive and that no thread uses. -/
structure Fresh (handle : Addr) (s : HandleState n) : Prop where
  kept : Kept s.pool
  registered : handle ∈ s.pool.handles
  alive : (s.info handle).alive = true
  refcnt : (s.info handle).refcnt = 0
  lock : s.lock = RwLock.init
  undeleted : s.deletions = 0
  running : s.crashed = false
  idle : ∀ i, s.callers i = ⟨0, .idle⟩

/-- `g_handle_pool` does not point to a handle that was deleted. -/
def Walkable (s : HandleState n) : Prop := s.pool.machine.Pointer s.pool.machine.glob.pool

instance (s : HandleState n) : Decidable s.Walkable :=
  inferInstanceAs (Decidable (s.pool.machine.glob.pool = 0 ∨ s.pool.machine.glob.pool ∈ s.pool.machine.live))

/-- What a thread that gives its reference back has to see: if it looked at `alive` before the handle was killed,
its reference is not the last one, and if it deletes the handle, it can walk through the registry. -/
def LeavesOrderly (handle : Addr) (s : HandleState n) : CallPoint → Prop
  | .released true => (s.info handle).alive = false → (s.info handle).refcnt ≠ 1
  | .released false => (s.info handle).refcnt ≤ 1 → s.Walkable
  | _ => True

/-- What keeps a step from leaving the handle undeleted, and from freed memory: the
decrement to 0 is not made by a thread that saw the handle alive before it was
killed, and nothing walks through the registry after its first handle was deleted. -/
def Orderly (handle : Addr) : HandleStep n → HandleState n → Prop
  | .leave i, s => s.LeavesOrderly handle (s.pointOf i)
  | .lookup _ _, s | .register _, s | .unregister _, s => s.Walkable
  | _, _ => True

instance (handle : Addr) (s : HandleState n) : (point : CallPoint) → Decidable (s.LeavesOrderly handle point)
  | .released true => inferInstanceAs (Decidable ((s.info handle).alive = false → (s.info handle).refcnt ≠ 1))
  | .released false => inferInstanceAs (Decidable ((s.info handle).refcnt ≤ 1 → s.Walkable))
  | .idle | .counted _ | .claiming | .locked | .unlocking | .sampled _ => .isTrue trivial

instance (handle : Addr) : (step : HandleStep n) → (s : HandleState n) → Decidable (Orderly handle step s)
  | .leave i, s => inferInstanceAs (Decidable (s.LeavesOrderly handle (s.pointOf i)))
  | .lookup _ _, s | .register _, s | .unregister _, s => inferInstanceAs (Decidable s.Walkable)
  | .enter _, _ | .grant _, _ | .check _, _ | .unlock _, _ | .sample _, _ | .release _, _ | .kill _, _ => .isTrue trivial

end HandleState

end GbfLibrary.Thp
