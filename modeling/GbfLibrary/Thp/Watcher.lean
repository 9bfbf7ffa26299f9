import GbfLibrary.Errno
import GbfLibrary.Systems.Run

/-!
# The watcher of a thread pool

The part of `thp_thread.c` and `thp_main.c` that makes, starts, stops and
deletes the threads of a pool, with the threads as Windows sees them. The lists
of thread records are lists here, and the calls, which hold the write lock of
the watcher, are steps.
-/

set_option autoImplicit false

namespace GbfLibrary.Thp

open Systems

/-- `THP_WATCHER_NULL` and so on. -/
inductive WatcherStatus where
  | null
  | ready
  | run
  | puase
  | term
  | error
  deriving DecidableEq, Repr

/-- A thread of the operating system. -/
inductive OsThread where
  | suspended
  | running
  | ended
  deriving DecidableEq, Repr

/-- `THP_THREAD_INFO`; the handle `0` is none. -/
structure ThreadInfo where
  handle : Nat
  heart : Nat
  deriving DecidableEq, Repr

/-- `THP_THREAD_WATCHER`, the threads behind the handles, how many handles there
were so far and how often `ResumeThread` was called. -/
structure Watcher where
  status : WatcherStatus
  watcher : ThreadInfo
  threads : List ThreadInfo
  counts : Nat
  os : Nat → OsThread
  handles : Nat
  resumes : Nat

/-- How a call ends. -/
inductive Outcome where
  | returns (rc : Status) (pool : Watcher)
  /-- `int 3` -/
  | traps (pool : Watcher)
  /-- `WaitForSingleObject(handle, INFINITE)` on a thread that does not end. -/
  | hangs (handle : Nat) (pool : Watcher)

namespace Watcher

/-- `CreateThread` with `CREATE_SUSPENDED`: a failure yields a null handle. -/
def createThread (made : Bool) (p : Watcher) : Nat × Watcher :=
  if made then
    (p.handles + 1, { p with
      handles := p.handles + 1
      os := Function.update p.os (p.handles + 1) .suspended })
  else (0, p)

/-- The previous suspend count, and the thread runs. -/
def osResumeThread (handle : Nat) (p : Watcher) : Nat × Watcher :=
  if p.os handle = .suspended then
    (1, { p with os := Function.update p.os handle .running, resumes := p.resumes + 1 })
  else (0, { p with resumes := p.resumes + 1 })

def resumeThread (thread : ThreadInfo) (p : Watcher) : Status × Watcher :=
  if thread.handle = 0 then (.invParam, p)
  else
    let resumed := p.osResumeThread thread.handle
    if resumed.1 ≠ 1 then (.suspendByOthers, resumed.2) else (.ok, resumed.2)

/-- The loop of `thp_watcher_start_all`, then the watcher's own thread. -/
def resumeAll : List ThreadInfo → Watcher → Outcome
  | [], p =>
      let resumed := p.resumeThread p.watcher
      if resumed.1 ≠ .ok then .traps resumed.2 else .returns .ok resumed.2
  | node :: nodes, p =>
      let resumed := p.resumeThread node
      if resumed.1 ≠ .ok then .traps resumed.2 else resumeAll nodes resumed.2

def watcherStartAll (p : Watcher) : Outcome := resumeAll p.threads p

/-- What `thp_watcher_start_all` returns is not looked at. -/
def startThreadsAndWatcher (p : Watcher) : Outcome :=
  if p.status = .null then .returns .watcherNotReady p
  else if p.status = .run then .returns .ok p
  else
    match p.watcherStartAll with
    | .returns _ p => .returns .ok p
    | other => other

/-- `WaitForSingleObject(handle, INFINITE)`. A thread that runs may end. -/
def waitInfinite (handle : Nat) (p : Watcher) : Option Watcher :=
  if p.os handle = .suspended then none
  else some { p with os := Function.update p.os handle .ended }

/-- The loop over the workers in `thp_stop_threads_and_watcher`; `done` are the
records behind it. -/
def stopAll : List ThreadInfo → List ThreadInfo → Watcher → Outcome
  | done, [], p => .returns .ok { p with threads := done }
  | done, node :: nodes, p =>
      if node.handle ≠ 0 then
        match p.waitInfinite node.handle with
        | none => .hangs node.handle p
        | some p => stopAll (done ++ [{ node with handle := 0 }]) nodes p
      else stopAll (done ++ [node]) nodes p

def stopThreadsAndWatcher (p : Watcher) : Outcome :=
  let p := { p with status := .term, watcher := { p.watcher with heart := 0 } }
  if p.watcher.handle ≠ 0 then
    match p.waitInfinite p.watcher.handle with
    | none => .hangs p.watcher.handle p
    | some p => stopAll [] p.threads { p with watcher := { p.watcher with handle := 0 } }
  else stopAll [] p.threads p

/-- A wait of one second, and `TerminateThread` if the thread goes on. -/
def waitOrTerminate (handle : Nat) (p : Watcher) : Watcher :=
  if handle = 0 then p else { p with os := Function.update p.os handle .ended }

/-- `thp_delete_watcher`; what it leaves is freed. -/
def deleteWatcher (p : Watcher) : Watcher :=
  let p' := { p with status := .term }
  if p.status = .ready then p'
  else p'.threads.foldl (fun p node => p.waitOrTerminate node.handle) (p'.waitOrTerminate p'.watcher.handle)

/-- `thp_delete_thread_pool`. -/
def deleteThreadPool (p : Watcher) : Outcome :=
  match p.stopThreadsAndWatcher with
  | .returns _ p => .returns .ok p.deleteWatcher
  | other => other

/-- `thp_create_worker_thread` with the flag `SUSPEND`. -/
def createWorkerThread (p : Watcher) (made : Bool) : Watcher :=
  let created := p.createThread made
  { created.2 with
    threads := created.2.threads ++ [⟨created.1, 0⟩]
    counts := created.2.counts + 1 }

/-- `thp_new_watcher`: which `CreateThread` calls succeed, for the workers and for
the watcher. -/
def newWatcher (workers : List Bool) (watcherMade : Bool) : Watcher :=
  let empty : Watcher := ⟨.null, ⟨0, 0⟩, [], 0, fun _ => .ended, 0, 0⟩
  let created := (workers.foldl createWorkerThread empty).createThread watcherMade
  { created.2 with watcher := ⟨created.1, 0⟩, status := .ready }

/-- `thp_create_worker_thread` with `RUN_IMMEDIATELY`, called by the watcher's
thread. -/
def grow (made : Bool) (p : Watcher) : Option Watcher :=
  if p.watcher.handle ≠ 0 ∧ p.os p.watcher.handle = .running ∧ p.counts ≤ 69 then
    let created := p.createThread made
    let resumed := (created.2.osResumeThread created.1).2
    some { resumed with
      threads := resumed.threads ++ [⟨created.1, 0⟩]
      counts := resumed.counts + 1 }
  else none

/-- A thread function returns. -/
def exits (handle : Nat) (p : Watcher) : Option Watcher :=
  if p.os handle = .running then some { p with os := Function.update p.os handle .ended } else none

end Watcher

inductive PoolCall where
  | start
  | stop
  | delete
  deriving DecidableEq, Repr

def PoolCall.run : PoolCall → Watcher → Outcome
  | start, p => p.startThreadsAndWatcher
  | stop, p => p.stopThreadsAndWatcher
  | delete, p => p.deleteThreadPool

/-- A call on the pool, or what its threads do between calls. -/
inductive PoolEvent where
  | call (call : PoolCall)
  | grow (made : Bool)
  | exits (handle : Nat)
  deriving DecidableEq, Repr

namespace Watcher

def next : PoolEvent → Watcher → Option Watcher
  | .call call, p =>
      match call.run p with
      | .returns _ p => some p
      | _ => none
  | .grow made, p => p.grow made
  | .exits handle, p => p.exits handle

/-- The threads of the pool were resumed, and the handle of the watcher's thread
was not closed since. -/
def Running (p : Watcher) : Prop :=
  p.watcher.handle ≠ 0 ∧ p.os p.watcher.handle ≠ .suspended

/-- What is asked of every call: it does not trap, it does not wait for a
suspended thread, and a start on a running pool resumes nothing. -/
def Behaves : PoolEvent → Watcher → Prop
  | .call call, p =>
      match call.run p with
      | .returns rc p' => call = .start → p.Running → rc = .ok ∧ p'.resumes = p.resumes
      | .traps _ => False
      | .hangs handle p' => p'.os handle ≠ .suspended
  | _, _ => True

end Watcher

end GbfLibrary.Thp
