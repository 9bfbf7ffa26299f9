import GbfLibrary.Thp.HandleCalls

/-!
# Calls that lock pools

The functions of `thp_main.c`, `thp_pool.c` and `thp_thread.c` that lock handles, as one thread
runs them. Whatever they read and no lock depends on is an answer of the world.
-/

set_option autoImplicit false

namespace GbfLibrary.Thp.Calls

open Lock Handles Call

def DEFAULT_THREAD_COUNT : Nat := 8

def getWatcherObject (watcher : Nat) : Call Int := field watcher

/-- `_asm { int 3 }` stops the thread, unless a debugger goes on. -/
def breakpoint : Call Unit := do
  let goesOn ← answer
  whenever (goesOn = 0) Code.fault

/-- The loop of `thp_watcher_start_all` over the threads that are left. -/
def resumeThreads : Nat → Call Status
  | 0 => return .ok
  | n + 1 => do
    let rc ← outcome
    if rc ≠ .ok then return rc
    resumeThreads n

def watcherStartAll (watcher : Nat) : Call Status := do
  let rc ← handleWlock watcher
  if rc ≠ .ok then return rc
  let object ← getWatcherObject watcher
  let threads ← field object
  let rc ← resumeThreads threads.toNat
  if rc ≠ .ok then do
    breakpoint
    let _ ← handleUnlock watcher
    return rc
  else do
    let rc ← outcome
    if rc ≠ .ok then do
      breakpoint
      let _ ← handleUnlock watcher
      return rc
    else do
      let _ ← handleUnlock watcher
      return .ok

def startThreadsAndWatcher (watcher : Nat) : Call Status := do
  let object ← getWatcherObject watcher
  if object = 0 then return .invHandle
  let status ← field object
  if status = 0 then return .watcherNotReady
  if status = 2 then return .ok
  let _ ← watcherStartAll watcher
  return .ok

/-- The threads of a watcher are waited for. -/
def stopThreadsAndWatcher (watcher : Nat) : Call Status := do
  let object ← getWatcherObject watcher
  let rc ← handleWlock watcher
  if rc ≠ .ok then return rc
  let _ ← field object
  let ended ← answer
  whenever (ended = 0) Code.fault
  let _ ← handleUnlock watcher
  return .ok

def deleteWatcher (watcher : Nat) : Call Status := do
  let object ← getWatcherObject watcher
  let rc ← handleWlock watcher
  if rc ≠ .ok then return rc
  let _ ← field object
  let _ ← handleUnlock watcher
  return .ok

def deleteTaskServer (taskServer : Nat) : Call Status := do
  if taskServer = 0 then return .invHandle
  let rc ← handleWlock taskServer
  if rc ≠ .ok then return rc
  let _ ← field taskServer
  let _ ← handleUnlock taskServer
  return .ok

/-- `thp_pool_object_cleanup` with the two handles of the pool. -/
def poolObjectCleanup : Option (Nat × Nat) → Call Unit
  | none => return ()
  | some (taskServer, watcher) => do
    whenever (taskServer ≠ 0) (do
      let _ ← deleteTaskServer taskServer)
    whenever (watcher ≠ 0) (do
      let _ ← deleteWatcher watcher)

/-- `thp_get_pool_object`. -/
def getPoolObject (pool : Nat) : Call (Option (Nat × Nat)) := do
  whenever (pool = 0) Code.fault
  Code.ask fun world clock => world.pool clock pool

def deletePool (pool : Nat) : Call Status := do
  let rc ← handleWlock pool
  if rc ≠ .ok then return rc
  let object ← getPoolObject pool
  poolObjectCleanup object
  let _ ← handleUnlock pool
  return .ok

/-- `thp_get_thread_watcher_from_pool`. -/
def getThreadWatcherFromPool (pool : Nat) : Call Nat := do
  let object ← getPoolObject pool
  match object with
  | none => Code.fault
  | some (_, watcher) => return watcher

def startThreadPool (pool : Nat) : Call Status := do
  if pool = 0 then return .invParam
  let watcher ← getThreadWatcherFromPool pool
  startThreadsAndWatcher watcher

def stopThreadPool (pool : Nat) : Call Status := do
  if pool = 0 then return .invParam
  let watcher ← getThreadWatcherFromPool pool
  stopThreadsAndWatcher watcher

def deleteThreadPool (pool : Nat) : Call Status := do
  if pool = 0 then return .ok
  let watcher ← getThreadWatcherFromPool pool
  let _ ← stopThreadsAndWatcher watcher
  let _ ← deletePool pool
  return .ok

section Pools

variable {pre : Accounts → Prop} {before : Accounts → Accounts}

private theorem breakpoint_turns : Turns pre before breakpoint fun _ => before :=
  .bind (.ask _) fun _ => whenever_turns fun _ => .fault

private theorem resumeThreads_turns (n : Nat) : Turns pre before (resumeThreads n) fun _ => before := by
  induction n with
  | zero => exact .pure rfl
  | succ n ih => exact .bind outcome_turns fun rc => .ite (fun _ => .pure rfl) fun _ => ih

private theorem watcherStartAll_keeps (watcher : Nat) : Keeps pre (watcherStartAll watcher) := by
  refine writeLocked (.bind (field_turns _) fun object => .bind (field_turns _) fun threads => ?_)
  refine .bind (resumeThreads_turns _) fun rc => .ite (fun _ => ?_) fun _ => ?_
  · exact .bind breakpoint_turns fun _ => thenUnlock (handleUnlock_writing _)
  · refine .bind outcome_turns fun rc => .ite (fun _ => ?_) fun _ => thenUnlock (handleUnlock_writing _)
    exact .bind breakpoint_turns fun _ => thenUnlock (handleUnlock_writing _)

private theorem startThreadsAndWatcher_keeps (watcher : Nat) : Keeps pre (startThreadsAndWatcher watcher) := by
  refine .bind (field_turns _) fun object => .ite (fun _ => .pure rfl) fun _ => ?_
  refine .bind (field_turns _) fun status => .ite (fun _ => .pure rfl) fun _ => ?_
  refine .ite (fun _ => .pure rfl) fun _ => .bind (watcherStartAll_keeps watcher) fun _ => .pure rfl

private theorem stopThreadsAndWatcher_keeps (watcher : Nat) : Keeps pre (stopThreadsAndWatcher watcher) := by
  refine .bind (field_turns _) fun object => writeLocked (.bind (field_turns _) fun _ => ?_)
  refine .bind (.ask _) fun ended => .bind (whenever_turns fun _ => .fault) fun _ => ?_
  exact thenUnlock (handleUnlock_writing _)

private theorem deleteWatcher_keeps (watcher : Nat) : Keeps pre (deleteWatcher watcher) := by
  refine .bind (field_turns _) fun object => writeLocked (.bind (field_turns _) fun _ => ?_)
  exact thenUnlock (handleUnlock_writing _)

private theorem deleteTaskServer_keeps (taskServer : Nat) : Keeps pre (deleteTaskServer taskServer) := by
  refine .ite (fun _ => .pure rfl) fun _ => writeLocked (.bind (field_turns _) fun _ => ?_)
  exact thenUnlock (handleUnlock_writing _)

private theorem poolObjectCleanup_keeps (object : Option (Nat × Nat)) : Keeps pre (poolObjectCleanup object) := by
  rcases object with _ | ⟨taskServer, watcher⟩
  · exact .pure rfl
  · refine .bind (whenever_turns fun _ => ?_) fun _ => whenever_turns fun _ => ?_
    · exact .bind (deleteTaskServer_keeps taskServer) fun _ => .pure rfl
    · exact .bind (deleteWatcher_keeps watcher) fun _ => .pure rfl

private theorem getPoolObject_turns (pool : Nat) : Turns pre before (getPoolObject pool) fun _ => before :=
  .bind (whenever_turns fun _ => .fault) fun _ => .ask _

private theorem deletePool_keeps (pool : Nat) : Keeps pre (deletePool pool) := by
  refine writeLocked (.bind (getPoolObject_turns pool) fun object => ?_)
  refine .bind (.frame (poolObjectCleanup_keeps object)) fun _ => ?_
  exact thenUnlock (handleUnlock_writing _)

private theorem getThreadWatcherFromPool_turns (pool : Nat) :
    Turns pre before (getThreadWatcherFromPool pool) fun _ => before := by
  refine .bind (getPoolObject_turns pool) fun object => ?_
  rcases object with _ | ⟨taskServer, watcher⟩
  · exact .fault
  · exact .pure rfl

theorem startThreadPool_keeps (pool : Nat) : Keeps pre (startThreadPool pool) :=
  .ite (fun _ => .pure rfl) fun _ =>
    .bind (getThreadWatcherFromPool_turns pool) fun watcher => startThreadsAndWatcher_keeps watcher

theorem stopThreadPool_keeps (pool : Nat) : Keeps pre (stopThreadPool pool) :=
  .ite (fun _ => .pure rfl) fun _ =>
    .bind (getThreadWatcherFromPool_turns pool) fun watcher => stopThreadsAndWatcher_keeps watcher

theorem deleteThreadPool_keeps (pool : Nat) : Keeps pre (deleteThreadPool pool) := by
  refine .ite (fun _ => .pure rfl) fun _ => ?_
  refine .bind (getThreadWatcherFromPool_turns pool) fun watcher => ?_
  exact .bind (stopThreadsAndWatcher_keeps watcher) fun _ => .bind (deletePool_keeps pool) fun _ => .pure rfl

end Pools

/-!
## New pools
-/

/-- `thp_new_handle`: null without memory. -/
def newHandle : Call Nat := do
  let out ← answer
  if out = 0 then return 0
  let rc ← answer
  if rc ≠ 0 then return 0
  wlock .thpDb
  Code.unlock .thpDb
  return out.toNat

def createWorkerThread (watcher : Nat) : Call Status := do
  let out ← answer
  if out = 0 then return .noMemory
  let thread ← answer
  if thread = -1 then return .ok
  let rc ← handleWlock watcher
  if rc ≠ .ok then return rc
  let object ← getWatcherObject watcher
  let _ ← field object
  let _ ← handleUnlock watcher
  return .ok

def createWatcherThread (watcher : Nat) : Call Status := do
  let object ← getWatcherObject watcher
  let existing ← field object
  if existing ≠ 0 then return .watcherExist
  let rc ← handleWlock watcher
  if rc ≠ .ok then return rc
  let threadinfo ← answer
  if threadinfo = 0 then do
    let _ ← handleUnlock watcher
    return .noMemory
  else do
    let thread ← answer
    if thread = -1 then do
      let _ ← handleUnlock watcher
      return .winError
    else do
      let _ ← handleUnlock watcher
      return .ok

/-- The loop of `thp_new_watcher`, with this many threads to create. -/
def createWorkerThreads (watcher : Nat) : Nat → Call Status
  | 0 => return .ok
  | n + 1 => do
    let rc ← createWorkerThread watcher
    if rc ≠ .ok then return rc
    createWorkerThreads watcher n

def newWatcher (threads : Nat) : Call (Status × Nat) := do
  let out ← newHandle
  if out = 0 then return (.noMemory, 0)
  let object ← answer
  if object = 0 then do
    delHandle out
    return (.noMemory, 0)
  else do
    let rc ← createWorkerThreads out (if threads = 0 then DEFAULT_THREAD_COUNT else threads)
    if rc ≠ .ok then do
      delHandle out
      return (rc, 0)
    else do
      let rc ← createWatcherThread out
      if rc ≠ .ok then do
        delHandle out
        return (rc, 0)
      else return (.ok, out)

def newTaskServer : Call (Status × Nat) := do
  let out ← newHandle
  if out = 0 then return (.noMemory, 0)
  let object ← answer
  if object = 0 then do
    delHandle out
    return (.noMemory, 0)
  else return (.ok, out)

def newPool (threads : Nat) : Call (Status × Nat) := do
  let out ← newHandle
  if out = 0 then return (.noMemory, 0)
  let object ← answer
  if object = 0 then do
    delHandle out
    return (.noMemory, 0)
  else do
    let (rc, taskServer) ← newTaskServer
    if rc ≠ .ok then do
      poolObjectCleanup (some (0, 0))
      delHandle out
      return (rc, 0)
    else do
      let (rc, _) ← newWatcher threads
      if rc ≠ .ok then do
        poolObjectCleanup (some (taskServer, 0))
        delHandle out
        return (rc, 0)
      else return (.ok, out)

section New

variable {pre : Accounts → Prop}

theorem newHandle_keeps : Keeps pre newHandle := by
  refine .bind (.ask _) fun out => .ite (fun _ => .pure rfl) fun _ => ?_
  refine .bind (.ask _) fun rc => .ite (fun _ => .pure rfl) fun _ => ?_
  exact .bind (.wlock _) fun _ => .bind (unlock_write .thpDb) fun _ => .pure rfl

private theorem createWorkerThread_keeps (watcher : Nat) : Keeps pre (createWorkerThread watcher) := by
  refine .bind (.ask _) fun out => .ite (fun _ => .pure rfl) fun _ => ?_
  refine .bind (.ask _) fun thread => .ite (fun _ => .pure rfl) fun _ => ?_
  refine writeLocked (.bind (field_turns _) fun object => .bind (field_turns _) fun _ => ?_)
  exact thenUnlock (handleUnlock_writing _)

private theorem createWatcherThread_keeps (watcher : Nat) : Keeps pre (createWatcherThread watcher) := by
  refine .bind (field_turns _) fun object => .bind (field_turns _) fun existing => ?_
  refine .ite (fun _ => .pure rfl) fun _ => writeLocked (.bind (.ask _) fun threadinfo => ?_)
  refine .ite (fun _ => thenUnlock (handleUnlock_writing _)) fun _ => .bind (.ask _) fun thread => ?_
  exact .ite (fun _ => thenUnlock (handleUnlock_writing _)) fun _ => thenUnlock (handleUnlock_writing _)

private theorem createWorkerThreads_keeps (watcher n : Nat) : Keeps pre (createWorkerThreads watcher n) := by
  induction n with
  | zero => exact .pure rfl
  | succ n ih =>
      exact .bind (createWorkerThread_keeps watcher) fun rc => .ite (fun _ => .pure rfl) fun _ => ih

private theorem delHandle_keeps (handle : Nat) : Keeps pre (delHandle handle) := .pure rfl

private theorem newWatcher_keeps (threads : Nat) : Keeps pre (newWatcher threads) := by
  refine .bind newHandle_keeps fun out => .ite (fun _ => .pure rfl) fun _ => .bind (.ask _) fun object => ?_
  refine .ite (fun _ => .bind (delHandle_keeps out) fun _ => .pure rfl) fun _ => ?_
  refine .bind (createWorkerThreads_keeps out _) fun rc => ?_
  refine .ite (fun _ => .bind (delHandle_keeps out) fun _ => .pure rfl) fun _ => ?_
  refine .bind (createWatcherThread_keeps out) fun rc => ?_
  exact .ite (fun _ => .bind (delHandle_keeps out) fun _ => .pure rfl) fun _ => .pure rfl

private theorem newTaskServer_keeps : Keeps pre newTaskServer := by
  refine .bind newHandle_keeps fun out => .ite (fun _ => .pure rfl) fun _ => .bind (.ask _) fun object => ?_
  exact .ite (fun _ => .bind (delHandle_keeps out) fun _ => .pure rfl) fun _ => .pure rfl

theorem newPool_keeps (threads : Nat) : Keeps pre (newPool threads) := by
  refine .bind newHandle_keeps fun out => .ite (fun _ => .pure rfl) fun _ => .bind (.ask _) fun object => ?_
  refine .ite (fun _ => .bind (delHandle_keeps out) fun _ => .pure rfl) fun _ => ?_
  refine .bind newTaskServer_keeps fun server => .ite (fun _ => ?_) fun _ => ?_
  · exact .bind (poolObjectCleanup_keeps _) fun _ => .bind (delHandle_keeps out) fun _ => .pure rfl
  · refine .bind (newWatcher_keeps threads) fun watcher => .ite (fun _ => ?_) fun _ => .pure rfl
    exact .bind (poolObjectCleanup_keeps _) fun _ => .bind (delHandle_keeps out) fun _ => .pure rfl

end New

/-!
## Queries
-/

def getFirstThreadInWatcher (watcher : Nat) : Call Int := do
  let object ← getWatcherObject watcher
  let rc ← handleRlock watcher
  if rc ≠ .ok then return 0
  let out ← (if object ≠ 0 then answer else pure 0)
  let _ ← handleUnlock watcher
  return out

def findThreadInWatcher (watcher : Nat) : Call Int := do
  let object ← getWatcherObject watcher
  let rc ← handleRlock watcher
  if rc ≠ .ok then return 0
  let out ← field object
  let _ ← handleUnlock watcher
  return out

def getThreads (pool : Nat) (prev : Int) : Call Int := do
  if pool = 0 then return 0
  let object ← getPoolObject pool
  let rc ← handleRlock pool
  if rc ≠ .ok then return 0
  match object with
  | none => Code.fault
  | some (_, watcher) =>
    let out ← (if prev = 0 then getFirstThreadInWatcher watcher else findThreadInWatcher watcher)
    let _ ← handleUnlock pool
    return out

/-- `thp_get_pending_task_count`; `count` is the pointer. -/
def getPendingTaskCount (pool : Nat) (count : Int) : Call Status := do
  if pool = 0 ∨ count = 0 then return .invParam
  let object ← getPoolObject pool
  let rc ← handleRlock pool
  if rc ≠ .ok then return rc
  match object with
  | none => Code.fault
  | some (taskServer, _) =>
    let rc ← handleRlock taskServer
    if rc ≠ .ok then return rc
    let _ ← field taskServer
    let _ ← handleUnlock taskServer
    handleUnlock pool

def getRunningThreadCount (pool : Nat) (count : Int) : Call Status := do
  if pool = 0 ∨ count = 0 then return .invParam
  let object ← getPoolObject pool
  let rc ← handleRlock pool
  if rc ≠ .ok then return rc
  match object with
  | none => Code.fault
  | some (_, watcher) =>
    let object ← getWatcherObject watcher
    let _ ← field object
    handleUnlock pool

section Queries

theorem idle_of_settled (handle : Nat) (accounts : Accounts) (settled : Settled accounts) :
    Idle (.thp handle) accounts := (settled handle).2

private theorem getFirstThreadInWatcher_keeps (watcher : Nat) : Keeps Settled (getFirstThreadInWatcher watcher) := by
  refine .bind (field_turns _) fun object => readLocked (idle_of_settled watcher) ?_
  refine .bind (.ite (fun _ => .ask _) fun _ => .pure rfl) fun out => ?_
  exact thenUnlock (handleUnlock_reading (idle_of_settled watcher))

private theorem findThreadInWatcher_keeps (watcher : Nat) : Keeps Settled (findThreadInWatcher watcher) := by
  refine .bind (field_turns _) fun object => readLocked (idle_of_settled watcher) ?_
  exact .bind (field_turns _) fun out => thenUnlock (handleUnlock_reading (idle_of_settled watcher))

theorem getThreads_keeps (pool : Nat) (prev : Int) : Keeps Settled (getThreads pool prev) := by
  refine .ite (fun _ => .pure rfl) fun _ => .bind (getPoolObject_turns pool) fun object => ?_
  apply readLocked (idle_of_settled pool)
  rcases object with _ | ⟨_, watcher⟩
  · exact .fault
  · refine .bind (.ite (fun _ => ?_) fun _ => ?_) fun out => thenUnlock (handleUnlock_reading (idle_of_settled pool))
    · exact .keeps (getFirstThreadInWatcher_keeps watcher) fun _ settled => settled.reading
    · exact .keeps (findThreadInWatcher_keeps watcher) fun _ settled => settled.reading

theorem getRunningThreadCount_keeps (pool : Nat) (count : Int) : Keeps Settled (getRunningThreadCount pool count) := by
  refine .ite (fun _ => .pure rfl) fun _ => .bind (getPoolObject_turns pool) fun object => ?_
  apply readLocked (idle_of_settled pool)
  rcases object with _ | ⟨_, watcher⟩
  · exact .fault
  · refine .bind (field_turns _) fun object => .bind (field_turns _) fun _ => ?_
    exact handleUnlock_reading (idle_of_settled pool)

end Queries

end GbfLibrary.Thp.Calls
