import GbfLibrary.Enet.HandlePool
import GbfLibrary.Lock.RwLock

/-!
# Handles of the network library

`enet_handle_rlock`, `enet_handle_wlock`, `enet_handle_unlock` and
`enet_delete_handle` of `enet_handle.c` on one handle, called by any number of
threads, with the registry and the reuse table in memory. `enet_delete_handle` is
called by users, without the lock of the registry, and by `enet_handle_unlock`,
which holds it.
-/

set_option autoImplicit false

namespace GbfLibrary.Enet

open Memory Prog Systems Lock Handles

inductive LockMode where
  | read
  | write
  deriving DecidableEq, Repr

/-- How far a thread is in `enet_delete_handle`. -/
inductive DeleteStage where
  | enter
  /-- In the loop of `lbs_rwlock_wlock`. -/
  | claiming
  /-- Before `enet_is_handle_alive`. -/
  | check
  /-- Before `enet_is_handle_referenced`. -/
  | test
  /-- Before the handle is taken out of the registry. -/
  | reclaim
  /-- Before the handle's lock is released. -/
  | finish
  /-- Before the lock of a handle that was freed is destroyed. -/
  | discard
  deriving DecidableEq, Repr

/-- How far a thread is in a call. -/
inductive CallPoint where
  | idle
  /-- `refcnt` is raised, the handle's lock is not taken yet. -/
  | counted (mode : LockMode)
  /-- In the loop of `lbs_rwlock_wlock`. -/
  | claiming
  /-- Before `alive` and `obj` are looked at. -/
  | locked
  /-- `enet_handle_unlock` is called. -/
  | unlocking
  | sampled (isAlive : Bool)
  /-- The handle's lock is released, the lock of the registry not taken yet. -/
  | released (isAlive : Bool)
  | deleting (stage : DeleteStage)
  deriving DecidableEq, Repr

/-- A thread: the locks it got and did not give back, and its current call. -/
structure Caller where
  holds : Nat
  point : CallPoint
  deriving DecidableEq, Repr

/-- `refcnt--` if `enet_is_handle_referenced`. -/
def HandleState.dropReference (refcnt : Int) : Int := if refcnt ≠ 0 then refcnt - 1 else refcnt

/-- What is under the lock of the registry in `enet_handle_unlock`: whether the handle is to be deleted. -/
def leaveHandle (handle : Addr) (isAlive : Bool) : PoolProg ReuseTable Bool := do
  store handle fun info => { info with refcnt := HandleState.dropReference info.refcnt }
  let info ← load handle
  return decide (isAlive = false ∧ info.refcnt ≤ 0)

/-- What `enet_delete_handle` does with a handle that is not referenced. -/
def reclaim (fuel : Nat) (handle : Addr) : PoolProg ReuseTable Addr := do
  handleRemoveFromPool fuel handle
  reuseHandle handle

/-- `enet_delete_handle` of another handle, which is alive and not referenced. -/
def deleteOther (fuel : Nat) (handle : Addr) : PoolProg ReuseTable Unit := do
  store handle fun info => { info with alive := false }
  let lock ← reclaim fuel handle
  if lock = 0 then return () else rwlockDestroy

/-- The handles in memory, the lock of one of them, and the threads that use it. -/
structure HandleState (n : Nat) where
  pool : PoolState ReuseTable
  lock : RwLock (Fin n)
  /-- The owner of `g_enet_handle_db_lock` while it waits inside. -/
  dbLock : Option (Fin n)
  /-- A call has freed what it must not, or has gone through a pointer to memory that was freed. -/
  crashed : Bool
  callers : Fin n → Caller

inductive HandleStep (n : Nat) where
  | lookup (i : Fin n) (mode : LockMode)
  | enter (i : Fin n)
  | grant (i : Fin n)
  | check (i : Fin n)
  | unlock (i : Fin n)
  | sample (i : Fin n)
  | release (i : Fin n)
  | leave (i : Fin n)
  | delete (i : Fin n)
  | deleteStep (i : Fin n)
  /-- A holder sets `obj` to 0. -/
  | detach (i : Fin n)
  /-- Who created the handle gives it an object. -/
  | attach (obj : Addr)
  /-- A handle is created, perhaps out of the reuse table. -/
  | register
  /-- Another handle is deleted. -/
  | unregister (other : Addr)
  deriving DecidableEq, Repr

namespace HandleState

variable {n : Nat}

def pointOf (s : HandleState n) (i : Fin n) : CallPoint := (s.callers i).point

def info (s : HandleState n) (handle : Addr) : Handle := s.pool.machine.cell handle

def table (s : HandleState n) : ReuseTable := s.pool.machine.glob.table

def move (i : Fin n) (point : CallPoint) (s : HandleState n) : HandleState n :=
  { s with callers := Function.update s.callers i { s.callers i with point } }

def crash (s : HandleState n) : HandleState n := { s with crashed := true }

/-- A call that got its lock returns. -/
def hold (i : Fin n) (s : HandleState n) : HandleState n :=
  { s with callers := Function.update s.callers i ⟨(s.callers i).holds + 1, .idle⟩ }

/-- A walk past all handles that there are does not end. -/
def fuel (s : HandleState n) : Nat := s.pool.machine.live.card + 1

/-- A part of a step that works on the memory. -/
def exec {α : Type} (prog : PoolProg ReuseTable α) (rest : α → HandleState n → HandleState n) (s : HandleState n) :
    HandleState n :=
  match prog s.pool.machine with
  | none => s.crash
  | some (a, machine) => rest a { s with pool := ⟨machine, s.pool.handles⟩ }

/-- A part of a step that reads the handle. -/
def reach (handle : Addr) (s : HandleState n) (step : Option (HandleState n)) : Option (HandleState n) :=
  if handle ∈ s.pool.machine.live then step else some s.crash

/-- The first half of `enet_handle_rlock` and `enet_handle_wlock`. -/
def lookup (handle : Addr) (i : Fin n) (mode : LockMode) (s : HandleState n) : HandleState n :=
  s.exec (countReference s.fuel handle) fun found s => if found = true then s.move i (.counted mode) else s

/-- Taking the handle's lock. What `lbs_rwlock_rlock` returns is not looked at. -/
def enter (i : Fin n) (mode : LockMode) (s : HandleState n) : Option (HandleState n) :=
  match mode with
  | .read => (s.lock.rlock i).map fun locked => { s with lock := locked.2 }.move i .locked
  | .write => (s.lock.wlockEnter i).map fun entered =>
      { s with lock := entered.2 }.move i (if entered.1 then .locked else .claiming)

def grant (i : Fin n) (s : HandleState n) : Option (HandleState n) :=
  s.lock.wlockGrant.map fun lock => { s with lock }.move i .locked

/-- The second half of `enet_handle_rlock` and `enet_handle_wlock`. -/
def check (handle : Addr) (i : Fin n) (s : HandleState n) : HandleState n :=
  if (s.info handle).alive = false ∨ (s.info handle).obj = 0 then s.move i .unlocking else s.hold i

/-- One step of `enet_delete_handle`. -/
def deleteStep (handle : Addr) (i : Fin n) (s : HandleState n) : DeleteStage → Option (HandleState n)
  | .enter => s.reach handle ((s.lock.wlockEnter i).map fun entered =>
      { s with lock := entered.2 }.move i (.deleting (if entered.1 then .check else .claiming)))
  | .claiming => s.reach handle (s.lock.wlockGrant.map fun lock => { s with lock }.move i (.deleting .check))
  | .check => s.reach handle (some
      (if (s.info handle).alive = false then s.move i (.deleting .finish)
        else s.exec (store handle fun info => { info with alive := false }) fun _ s => s.move i (.deleting .test)))
  | .test => s.reach handle (some
      (s.move i (.deleting (if (s.info handle).refcnt = 0 then .reclaim else .finish))))
  | .reclaim => some (s.exec (reclaim s.fuel handle) fun lock s =>
      { s with pool := ⟨s.pool.machine, s.pool.handles.erase handle⟩ }.move i
        (.deleting (if lock = 0 then .finish else .discard)))
  | .finish => s.reach handle (some ({ s with
      lock := s.lock.unlock
      dbLock := if s.dbLock = some i then none else s.dbLock }.move i .idle))
  | .discard => some (s.exec rwlockDestroy fun _ s => s.move i .idle)

/-- The second half of `enet_handle_unlock`. -/
def leave (handle : Addr) (i : Fin n) (isAlive : Bool) (s : HandleState n) : HandleState n :=
  s.exec (leaveHandle handle isAlive) fun deletes s =>
    if deletes = true then { s with dbLock := some i }.move i (.deleting .enter) else s.move i .idle

/-- `enet_new_handle`. A handle that is not out of the reuse table gets a new lock. -/
def register (malloc : Malloc) (handle : Addr) (s : HandleState n) : HandleState n :=
  s.exec (newHandle malloc s.fuel true) fun out after =>
    if out = 0 then after
    else
      { after with
        pool := ⟨after.pool.machine, after.pool.handles ++ [out]⟩
        lock := if out = handle ∧ s.table = [] then RwLock.init else after.lock }

/-- One step, if it is the thread's turn. -/
def next (malloc : Malloc) (handle : Addr) (step : HandleStep n) (s : HandleState n) : Option (HandleState n) :=
  if s.crashed = true then none
  else
    match step with
    | .lookup i mode =>
        if s.pointOf i = .idle ∧ s.dbLock = none then some (s.lookup handle i mode) else none
    | .enter i =>
        match s.pointOf i with
        | .counted mode => s.reach handle (s.enter i mode)
        | _ => none
    | .grant i => if s.pointOf i = .claiming then s.reach handle (s.grant i) else none
    | .check i => if s.pointOf i = .locked then s.reach handle (some (s.check handle i)) else none
    | .unlock i =>
        if s.pointOf i = .idle ∧ 0 < (s.callers i).holds then
          some { s with callers := Function.update s.callers i ⟨(s.callers i).holds - 1, .unlocking⟩ }
        else none
    | .sample i =>
        if s.pointOf i = .unlocking then s.reach handle (some (s.move i (.sampled (s.info handle).alive))) else none
    | .release i =>
        match s.pointOf i with
        | .sampled isAlive => s.reach handle (some ({ s with lock := s.lock.unlock }.move i (.released isAlive)))
        | _ => none
    | .leave i =>
        match s.pointOf i with
        | .released isAlive => if s.dbLock = none then some (s.leave handle i isAlive) else none
        | _ => none
    | .delete i => if s.pointOf i = .idle then some (s.move i (.deleting .enter)) else none
    | .deleteStep i =>
        match s.pointOf i with
        | .deleting stage => s.deleteStep handle i stage
        | _ => none
    | .detach i =>
        if s.pointOf i = .idle ∧ 0 < (s.callers i).holds then
          some (s.exec (store handle fun info => { info with obj := 0 }) fun _ s => s)
        else none
    | .attach obj => some (s.exec (store handle fun info => { info with obj }) fun _ s => s)
    | .register => if s.dbLock = none then some (s.register malloc handle) else none
    | .unregister other =>
        if other ≠ handle ∧ other ∈ s.pool.handles then
          some (s.exec (deleteOther s.fuel other) fun _ s =>
            { s with pool := ⟨s.pool.machine, s.pool.handles.erase other⟩ })
        else none

/-- A handle of the registry that is alive and that no thread uses. -/
structure Fresh (handle : Addr) (s : HandleState n) : Prop where
  tracked : Tracked s.pool
  registered : handle ∈ s.pool.handles
  alive : (s.info handle).alive = true
  refcnt : (s.info handle).refcnt = 0
  lock : s.lock = RwLock.init
  unlocked : s.dbLock = none
  running : s.crashed = false
  idle : ∀ i, s.callers i = ⟨0, .idle⟩

/-- A handle can be taken out of the registry and parked: it is not the one that `g_enet_handle_pool` points to, and
the reuse table has room for it. -/
def Reclaims (handle : Addr) (s : HandleState n) : Prop :=
  s.pool.machine.glob.pool ≠ handle ∧ s.table.length < maxReuseTable

instance (handle : Addr) (s : HandleState n) : Decidable (s.Reclaims handle) := inferInstanceAs (Decidable (_ ∧ _))

/-- A deletion sees no reference, and can reclaim the handle. -/
def DeletesOrderly (handle : Addr) (s : HandleState n) : CallPoint → Prop
  | .deleting .test => (s.info handle).refcnt = 0
  | .deleting .reclaim => s.Reclaims handle
  | _ => True

/-- What makes the deletion that kills a handle reclaim it, and keeps the registry right. -/
def Orderly (handle : Addr) : HandleStep n → HandleState n → Prop
  | .deleteStep i, s => s.DeletesOrderly handle (s.pointOf i)
  | .unregister other, s => s.Reclaims other
  | _, _ => True

instance (handle : Addr) (s : HandleState n) : (point : CallPoint) → Decidable (s.DeletesOrderly handle point)
  | .deleting .test => inferInstanceAs (Decidable ((s.info handle).refcnt = 0))
  | .deleting .reclaim => inferInstanceAs (Decidable (s.Reclaims handle))
  | .deleting .enter | .deleting .claiming | .deleting .check | .deleting .finish | .deleting .discard | .idle
  | .counted _ | .claiming | .locked | .unlocking | .sampled _ | .released _ => .isTrue trivial

instance (handle : Addr) : (step : HandleStep n) → (s : HandleState n) → Decidable (Orderly handle step s)
  | .deleteStep i, s => inferInstanceAs (Decidable (s.DeletesOrderly handle (s.pointOf i)))
  | .unregister other, s => inferInstanceAs (Decidable (s.Reclaims other))
  | .lookup _ _, _ | .enter _, _ | .grant _, _ | .check _, _ | .unlock _, _ | .sample _, _ | .release _, _
  | .leave _, _ | .delete _, _ | .detach _, _ | .attach _, _ | .register, _ => .isTrue trivial

end HandleState

end GbfLibrary.Enet
