import GbfLibrary.Errno
import GbfLibrary.Memory.Beside
import GbfLibrary.Systems.Fifo

/-!
# The task server

`thp_task.c` as the Win32 build compiles it, and the threads that use one task
server. Every call does its work under the write lock of the server's handle, so
that threads interleave call by call.
-/

set_option autoImplicit false

namespace GbfLibrary.Thp

open Memory Prog Systems

/-- A 32-bit machine word. -/
abbrev Word := BitVec 32

/-- `THP_TASK_PACKAGE`. -/
structure TaskPackage where
  task : Word
  size : Word
  output : Word
  next : Addr
  deriving DecidableEq, Inhabited

/-- `THP_TASK_SERVER`, with the `alive` flag of its handle. The counter is an
`unsigned int`. -/
structure TaskServer where
  alive : Bool
  taskCount : Nat
  packagePool : Addr
  packages : Addr
  deriving DecidableEq

abbrev TaskMachine := Machine TaskPackage TaskServer
abbrev TaskProg (α : Type) := Prog TaskPackage TaskServer α

/-- `++` on an `unsigned int`. -/
def increment (n : Nat) : Nat := if n + 1 = 2 ^ 32 then 0 else n + 1

/-- `--` on an `unsigned int`. -/
def decrement : Nat → Nat
  | 0 => 2 ^ 32 - 1
  | n + 1 => n

/-- `thp_handle_wlock` on the handle of the server. -/
def handleWlock : TaskProg Status := do
  let server ← getGlob
  if server.alive then return .ok else return .invHandle

/-- `malloc` of a package. There are no addresses from `2 ^ 32` on, and what is
in the package is not known. -/
def mallocPackage (malloc : Malloc) : TaskProg Addr := fun s =>
  match malloc.pick (s.live ∪ s.others) s.callocs with
  | none => some (0, { s with callocs := s.callocs + 1 })
  | some a =>
      if a < 2 ^ 32 then some (a, s.extend a (s.cell a))
      else some (0, { s with callocs := s.callocs + 1 })

def packagePushTail (fuel : Nat) (package : Addr) : TaskProg Nat := do
  let server ← getGlob
  if server.packages = 0 then (do
    setGlob fun server => { server with packages := package }
    return 1)
  else (do
    let (node, steps) ← lastNode TaskPackage.next fuel server.packages
    store node fun p => { p with next := package }
    store package fun p => { p with next := 0 }
    return steps + 2)

def cleanTaskPackage (package : Addr) : TaskProg Unit := do
  store package fun p => { p with next := 0 }
  store package fun p => { p with output := 0 }
  store package fun p => { p with size := 0 }
  store package fun p => { p with task := 0 }

/-- The second result is what is stored through `package`, if anything is. -/
def prepareTaskPackage (malloc : Malloc) (task size output : Word) :
    TaskProg (Status × Option Addr) := do
  let rc ← handleWlock
  if rc ≠ .ok then return (rc, none)
  else (do
    let object ← getGlob
    if object.packagePool = 0 then (do
      let out ← mallocPackage malloc
      if out = 0 then return (.noMemory, none)
      else (do
        store out fun _ => ⟨task, size, output, 0⟩
        return (.ok, some out)))
    else (do
      let out := object.packagePool
      let package ← load out
      setGlob fun object => { object with packagePool := package.next }
      store out fun _ => ⟨task, size, output, 0⟩
      return (.ok, some out)))

def pushTask (fuel : Nat) (package : Addr) : TaskProg Status := do
  let rc ← handleWlock
  if rc ≠ .ok then return rc
  else (do
    let _ ← packagePushTail fuel package
    setGlob fun server => { server with taskCount := increment server.taskCount }
    return .ok)

/-- The second result is what is stored through `package`, if anything is. The
unsigned counter is never below zero. -/
def popTask : TaskProg (Status × Option Addr) := do
  let rc ← handleWlock
  if rc ≠ .ok then return (rc, none)
  else (do
    let server ← getGlob
    let p := server.packages
    if p = 0 then return (.noTask, some 0)
    else (do
      let package ← load p
      setGlob fun server => { server with packages := package.next }
      setGlob fun server => { server with taskCount := decrement server.taskCount }
      store p fun package => { package with next := 0 }
      return (.ok, some p)))

/-- The result is the value of `*package` afterwards: only one branch clears
it. -/
def recollectTaskPackage (fuel : Nat) (package : Addr) : TaskProg Addr := do
  let rc ← handleWlock
  if rc ≠ .ok then (do
    free package
    return 0)
  else (do
    let object ← getGlob
    if object.packagePool = 0 then (do
      setGlob fun object => { object with packagePool := package }
      return package)
    else (do
      let (node, _) ← lastNode TaskPackage.next fuel object.packagePool
      store node fun p => { p with next := package }
      cleanTaskPackage package
      return 0))

def cleanPackageChain (fuel : Nat) (head : Addr) : TaskProg Unit := freeChain TaskPackage.next fuel head

/-- `thp_delete_task_server` with a handle that is not null. Nothing opens the object of the server afterwards. -/
def deleteTaskServer (fuel : Nat) : TaskProg Status := do
  let rc ← handleWlock
  if rc ≠ .ok then return rc
  else (do
    let server ← getGlob
    cleanPackageChain fuel server.packages
    setGlob fun server => { server with alive := false }
    return .ok)

/-!
## Threads
-/

/-- What a task carries. -/
structure Payload where
  task : Word
  size : Word
  output : Word
  deriving DecidableEq, Repr

def TaskPackage.payload (p : TaskPackage) : Payload := ⟨p.task, p.size, p.output⟩

/-- Where a thread is in `thp_deliver_task` or in the loop of `worker_thread`. -/
inductive Hand where
  /-- Between two rounds; the value of the local variable `package` stays. -/
  | idle (package : Addr)
  /-- Between `thp_prepare_task_package` and `thp_push_task`. -/
  | prepared (package : Addr) (payload : Payload)
  /-- Between `thp_pop_task` and what is done with the package. -/
  | popped (package : Addr) (payload : Payload)
  deriving DecidableEq

/-- The package that the thread has to itself, and what should be in it. -/
def Hand.owns : Hand → Option (Addr × Payload)
  | .idle _ => none
  | .prepared package payload | .popped package payload => some (package, payload)

/-- The server and the threads, which are numbered. -/
structure TaskState where
  memory : TaskMachine
  hand : Nat → Hand

/-- Steps of the threads. A label has the payload that is pushed or popped. -/
inductive TaskAction where
  | prepare (thread : Nat) (payload : Payload)
  | prepareFails (thread : Nat) (payload : Payload)
  | push (thread : Nat) (payload : Payload)
  | pop (thread : Nat) (payload : Payload)
  | popNothing (thread : Nat)
  | refuse (thread : Nat) (payload : Payload)
  | finish (thread : Nat)
  deriving DecidableEq

namespace TaskState

/-- There are not more links to follow than packages. -/
def fuel (s : TaskState) : Nat := s.memory.live.card

def moved (s : TaskState) (memory : TaskMachine) (thread : Nat) (hand : Hand) : TaskState :=
  ⟨memory, Function.update s.hand thread hand⟩

/-- First half of `thp_deliver_task`. -/
def prepare (malloc : Malloc) (thread : Nat) (payload : Payload) (s : TaskState) :
    Option TaskState :=
  match s.hand thread with
  | .idle _ => do
      let (result, memory) ←
        prepareTaskPackage malloc payload.task payload.size payload.output s.memory
      match result with
      | (.ok, some package) => some (s.moved memory thread (.prepared package payload))
      | _ => none
  | _ => none

/-- `thp_deliver_task` returns early. -/
def prepareFails (malloc : Malloc) (thread : Nat) (payload : Payload) (s : TaskState) :
    Option TaskState :=
  match s.hand thread with
  | .idle kept => do
      let (result, memory) ←
        prepareTaskPackage malloc payload.task payload.size payload.output s.memory
      if result.1 = .ok then none else some (s.moved memory thread (.idle kept))
  | _ => none

/-- Second half of `thp_deliver_task`. -/
def push (thread : Nat) (payload : Payload) (s : TaskState) : Option TaskState :=
  match s.hand thread with
  | .prepared package _ =>
      if (s.memory.cell package).payload = payload then do
        let (rc, memory) ← pushTask s.fuel package s.memory
        if rc = .ok then some (s.moved memory thread (.idle 0))
        else do
          let (_, memory) ← recollectTaskPackage s.fuel package memory
          some (s.moved memory thread (.idle 0))
      else none
  | _ => none

/-- A worker gets a package with the given payload. -/
def pop (thread : Nat) (payload : Payload) (s : TaskState) : Option TaskState :=
  match s.hand thread with
  | .idle _ => do
      let (result, memory) ← popTask s.memory
      match result with
      | (.ok, some package) =>
          if (memory.cell package).payload = payload then
            some (s.moved memory thread (.popped package payload))
          else none
      | _ => none
  | _ => none

/-- A worker gets no package, works without one and recollects what its
variable holds. -/
def popNothing (thread : Nat) (s : TaskState) : Option TaskState :=
  match s.hand thread with
  | .idle kept => do
      let (result, memory) ← popTask s.memory
      if result.1 = .ok then none
      else do
        let package := result.2.getD kept
        if package = 0 then some (s.moved memory thread (.idle 0))
        else do
          let (package, memory) ← recollectTaskPackage s.fuel package memory
          some (s.moved memory thread (.idle package))
  | _ => none

/-- The real worker refuses the task: `package->task = task`, then the package
goes back. -/
def refuse (thread : Nat) (payload : Payload) (s : TaskState) : Option TaskState :=
  match s.hand thread with
  | .popped package was => do
      let ((), memory) ← store package (fun p => { p with task := was.task }) s.memory
      if (memory.cell package).payload = payload then do
        let (_, memory) ← pushTask s.fuel package memory
        some (s.moved memory thread (.idle 0))
      else none
  | _ => none

/-- The real worker is done with the task. -/
def finish (thread : Nat) (s : TaskState) : Option TaskState :=
  match s.hand thread with
  | .popped package _ => do
      let (package, memory) ← recollectTaskPackage s.fuel package s.memory
      some (s.moved memory thread (.idle package))
  | _ => none

def next (malloc : Malloc) : TaskAction → TaskState → Option TaskState
  | .prepare thread payload, s => s.prepare malloc thread payload
  | .prepareFails thread payload, s => s.prepareFails malloc thread payload
  | .push thread payload, s => s.push thread payload
  | .pop thread payload, s => s.pop thread payload
  | .popNothing thread, s => s.popNothing thread
  | .refuse thread payload, s => s.refuse thread payload
  | .finish thread, s => s.finish thread

end TaskState

/-- What a step does to the queue of tasks. -/
def TaskAction.event : TaskAction → Option (QueueEvent Payload)
  | .prepare _ _ | .prepareFails _ _ | .finish _ => none
  | .push _ payload | .refuse _ payload => some (.pushed payload)
  | .pop _ payload => some (.popped payload)
  | .popNothing _ => some .empty

/-- `thp_new_task_server`: no packages and no tasks, no thread at work. -/
def TaskState.start : TaskState :=
  ⟨⟨∅, ∅, fun _ => default, ⟨true, 0, 0, 0⟩, 0⟩, fun _ => .idle 0⟩

end GbfLibrary.Thp
