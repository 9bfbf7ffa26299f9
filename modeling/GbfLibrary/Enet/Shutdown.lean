import GbfLibrary.Lock.RwLockRuns
import Mathlib.Data.Fintype.Option

/-!
# Stopping a server

`enet_stop_tcp_server` and `enet_delete_tcp_server` on a started server, with the
threads of its pool. The call holds the write locks of the server and of the watcher
while it waits for the threads, which take the same locks.
-/

set_option autoImplicit false

namespace GbfLibrary.Enet

open Systems Lock

/-- The thread that stops the server, the watcher's thread and the workers. -/
inductive Party (n : Nat) where
  | stopper
  | watcher
  | worker (i : Fin n)
  deriving DecidableEq

def Party.equiv (n : Nat) : Option (Option (Fin n)) ≃ Party n where
  toFun
    | none => .stopper
    | some none => .watcher
    | some (some i) => .worker i
  invFun
    | .stopper => none
    | .watcher => some none
    | .worker i => some (some i)
  left_inv := by rintro (_ | _ | i) <;> rfl
  right_inv := by rintro (_ | _ | i) <;> rfl

instance (n : Nat) : Fintype (Party n) := Fintype.ofEquiv _ (Party.equiv n)

inductive PoolLock where
  | server
  | watcher
  deriving DecidableEq, Repr

inductive StopCall where
  | stop
  | delete
  deriving DecidableEq, Repr

/-- How far the call is. -/
inductive StopPoint (n : Nat) where
  | idle
  /-- In `enet_handle_wlock`: before the critical section, and in the loop. -/
  | askingServer
  | claimingServer
  /-- Before the listener is suspended or terminated. -/
  | serverLocked
  | askingWatcher
  | claimingWatcher
  /-- Before `status` is set. -/
  | watcherLocked
  /-- `WaitForSingleObject` on the watcher's thread, with `INFINITE`. -/
  | waiting
  /-- The same on the first of these workers. -/
  | joining (nodes : List (Fin n))
  /-- In `thp_delete_pool`, where waits are of one second. -/
  | deletingPool
  | unlockingServer
  | done
  deriving DecidableEq, Repr

/-- How far `watcher_thread` is; the worker is the one it makes. -/
inductive WatcherPoint (n : Nat) where
  | top
  /-- `status` was looked at. -/
  | counting
  /-- In `thp_handle_wlock`: before the critical section, and in the loop. -/
  | asking (i : Fin n)
  | claiming (i : Fin n)
  | growing (i : Fin n)
  | unlocking
  | ended
  deriving DecidableEq, Repr

/-- How far `worker_thread` is, with `server_worker_thread` as the real worker. -/
inductive PoolWorker where
  | unborn
  | suspended
  /-- In `thp_find_my_thread_info`: before and after the critical section. -/
  | starting
  | finding
  | top
  /-- `status` was looked at. -/
  | called
  /-- In `enet_get_tcp_server_attr`: before and after the critical section. -/
  | asking
  | reading
  | selecting
  | ended
  deriving DecidableEq, Repr

/-- The locks of the server and of the watcher, whether the status is
`THP_WATCHER_TERM`, the list of workers, and the threads. -/
structure Shutdown (n : Nat) where
  serverLock : RwLock (Party n)
  watcherLock : RwLock (Party n)
  term : Bool
  threads : List (Fin n)
  call : StopCall
  stopper : StopPoint n
  watcher : WatcherPoint n
  workers : Fin n → PoolWorker

inductive ShutdownStep (n : Nat) where
  | call (call : StopCall)
  /-- `lbs_suspend_thread` succeeds, where it is called. -/
  | stopper (suspended : Bool)
  /-- The task server is there, and the pool grows. -/
  | watcher (counted : Bool) (grow : Option (Fin n))
  /-- The set of sockets gets memory, the server is alive. -/
  | worker (i : Fin n) (ok : Bool)
  deriving DecidableEq, Repr

namespace Shutdown

variable {n : Nat}

def setWorker (i : Fin n) (point : PoolWorker) (s : Shutdown n) : Shutdown n :=
  { s with workers := Function.update s.workers i point }

def stopperStep (suspended : Bool) (s : Shutdown n) : StopPoint n → Option (Shutdown n)
  | .idle => none
  | .askingServer => (s.serverLock.wlockEnter .stopper).map fun entered =>
      { s with
        serverLock := entered.2
        stopper := if entered.1 then .serverLocked else .claimingServer }
  | .claimingServer => s.serverLock.wlockGrant.map fun serverLock =>
      { s with serverLock, stopper := .serverLocked }
  | .serverLocked =>
      if s.call = .stop ∧ suspended = false then some { s with stopper := .unlockingServer }
      else some { s with stopper := .askingWatcher }
  | .askingWatcher => (s.watcherLock.wlockEnter .stopper).map fun entered =>
      { s with
        watcherLock := entered.2
        stopper := if entered.1 then .watcherLocked else .claimingWatcher }
  | .claimingWatcher => s.watcherLock.wlockGrant.map fun watcherLock =>
      { s with watcherLock, stopper := .watcherLocked }
  | .watcherLocked => some { s with term := true, stopper := .waiting }
  | .waiting => if s.watcher = .ended then some { s with stopper := .joining s.threads } else none
  | .joining (i :: nodes) =>
      if s.workers i = .ended then some { s with stopper := .joining nodes } else none
  | .joining [] => some { s with
      watcherLock := s.watcherLock.unlock
      stopper := if s.call = .delete then .deletingPool else .unlockingServer }
  | .deletingPool => some { s with stopper := .unlockingServer }
  | .unlockingServer => some { s with serverLock := s.serverLock.unlock, stopper := .done }
  | .done => none

def watcherStep (counted : Bool) (grow : Option (Fin n)) (s : Shutdown n) :
    WatcherPoint n → Option (Shutdown n)
  | .top => some { s with watcher := if s.term then .ended else .counting }
  | .counting =>
      if counted = false then some { s with watcher := .ended }
      else
        match grow with
        | none => some { s with watcher := .top }
        | some i =>
            if s.workers i = .unborn then some { s.setWorker i .suspended with watcher := .asking i }
            else none
  | .asking i => (s.watcherLock.wlockEnter .watcher).map fun entered =>
      { s with
        watcherLock := entered.2
        watcher := if entered.1 then .growing i else .claiming i }
  | .claiming i => s.watcherLock.wlockGrant.map fun watcherLock =>
      { s with watcherLock, watcher := .growing i }
  | .growing i => some { s.setWorker i .starting with threads := s.threads ++ [i], watcher := .unlocking }
  | .unlocking => some { s with watcherLock := s.watcherLock.unlock, watcher := .top }
  | .ended => none

/-- What `thp_rwlock_rlock` and `lbs_rwlock_rlock` return is not looked at. -/
def workerStep (i : Fin n) (ok : Bool) (s : Shutdown n) : PoolWorker → Option (Shutdown n)
  | .starting => (s.watcherLock.rlock (.worker i)).map fun taken =>
      { s.setWorker i .finding with watcherLock := taken.2 }
  | .finding => some { s.setWorker i .top with watcherLock := s.watcherLock.unlock }
  | .top => some (s.setWorker i (if s.term then .ended else .called))
  | .called => some (s.setWorker i (if ok then .asking else .ended))
  | .asking => (s.serverLock.rlock (.worker i)).map fun taken =>
      { s.setWorker i .reading with serverLock := taken.2 }
  | .reading => some { s.setWorker i (if ok then .selecting else .ended) with
      serverLock := s.serverLock.unlock }
  | .selecting => some (s.setWorker i .top)
  | .unborn | .suspended | .ended => none

/-- One step of any thread. -/
def next : ShutdownStep n → Shutdown n → Option (Shutdown n)
  | .call call, s => if s.stopper = .idle then some { s with call, stopper := .askingServer } else none
  | .stopper suspended, s => s.stopperStep suspended s.stopper
  | .watcher counted grow, s => s.watcherStep counted grow s.watcher
  | .worker i ok, s => s.workerStep i ok (s.workers i)

/-- A server that was started with these workers. -/
def started (threads : List (Fin n)) : Shutdown n where
  serverLock := RwLock.init
  watcherLock := RwLock.init
  term := false
  threads := threads
  call := .stop
  stopper := .idle
  watcher := .top
  workers := fun i => if i ∈ threads then .starting else .unborn

/-- The thread for which the call waits without end. -/
def waitsFor (s : Shutdown n) : Option (Party n) :=
  match s.stopper with
  | .waiting => some .watcher
  | .joining (i :: _) => some (.worker i)
  | _ => none

/-- The lock that a thread is about to get. -/
def asksFor (s : Shutdown n) : Party n → Option PoolLock
  | .stopper => none
  | .watcher =>
      match s.watcher with
      | .asking _ | .claiming _ => some .watcher
      | _ => none
  | .worker i =>
      match s.workers i with
      | .starting => some .watcher
      | .asking => some .server
      | _ => none

def lockOf (s : Shutdown n) : PoolLock → RwLock (Party n)
  | .server => s.serverLock
  | .watcher => s.watcherLock

/-- The call holds a write lock and waits for a thread that is to get the same lock. -/
def Deadlocked (s : Shutdown n) : Prop :=
  ∃ p lock, s.waitsFor = some p ∧ s.asksFor p = some lock ∧ (s.lockOf lock).writer ≠ 0 ∧
    (s.lockOf lock).owner = some .stopper

end Shutdown

end GbfLibrary.Enet
