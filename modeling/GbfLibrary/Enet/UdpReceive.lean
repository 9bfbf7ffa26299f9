import GbfLibrary.Memory.Block
import GbfLibrary.Systems.Fifo

/-!
# The receive thread of a UDP handle

`upd_receive_thread` of `udp_cs.c` beside the network and the owner of the handle. The set of sockets is filled once,
before the loop, and `select` takes out of it every socket that has nothing to read.
-/

set_option autoImplicit false

namespace GbfLibrary.Enet.Udp

open Memory Systems

/-- Before which call the thread is. -/
inductive ReceivePoint where
  | select
  | rlock
  | recvfrom
  | returned
  deriving DecidableEq

/-- The thread and the datagrams that wait at its socket; `readSet` says whether the socket is in the set. -/
structure Receiver where
  point : ReceivePoint
  readSet : Bool
  waiting : List Bytes
  deriving DecidableEq

/-- The answers of `recvfrom`. -/
inductive RecvAnswer where
  | size (buf : Bytes)
  /-- It returns -1, and the datagram is gone. -/
  | gone (datagram : Bytes)
  /-- It returns -1, and has taken nothing. -/
  | failed
  deriving DecidableEq

inductive ReceiveStep where
  | arrives (datagram : Bytes)
  /-- A call that is not answered with an error. -/
  | select
  /-- A call that is, and whether it leaves a socket in the set. -/
  | selectFails (leaves : Bool)
  | rlock (locked : Bool)
  | recvfrom (answer : RecvAnswer)
  deriving DecidableEq

/-- `select` on a set with one socket or none: its result, and the set. -/
def select (readSet : Bool) (waiting : List Bytes) : Int × Bool :=
  if readSet = false then (-1, false)
  else if waiting = [] then (0, false)
  else (1, true)

/-- A step of `upd_receive_thread`, or of the network. -/
def updReceiveThread : ReceiveStep → Receiver → Option Receiver
  | .arrives datagram, s => some { s with waiting := s.waiting ++ [datagram] }
  | .select, s =>
    if s.point ≠ .select then none
    else
      let (rc, readSet) := select s.readSet s.waiting
      if rc = -1 ∨ rc = 0 then some { s with readSet } else some { s with readSet, point := .rlock }
  | .selectFails leaves, s =>
    if s.point ≠ .select then none else some { s with readSet := s.readSet && leaves }
  | .rlock locked, s =>
    if s.point ≠ .rlock then none else some { s with point := if locked then .recvfrom else .returned }
  | .recvfrom answer, s =>
    if s.point ≠ .recvfrom then none
    else
      match answer, s.waiting with
      | .failed, _ => some { s with point := .select }
      | .size buf, datagram :: waiting =>
        if buf = datagram then some { s with point := .select, waiting } else none
      | .gone buf, datagram :: waiting =>
        if buf = datagram then some { s with point := .select, waiting } else none
      | _, [] => none

/-- Before the first `select`. -/
def Receiver.start : Receiver := ⟨.select, true, []⟩

/-- What the step is for the datagrams at the socket. -/
def ReceiveStep.event? : ReceiveStep → Option (QueueEvent Bytes)
  | .arrives datagram => some (.pushed datagram)
  | .recvfrom (.size buf) => some (.popped buf)
  | .recvfrom (.gone datagram) => some (.popped datagram)
  | _ => none

def ReceiveStep.arrived? : ReceiveStep → Option Bytes
  | .arrives datagram => some datagram
  | _ => none

/-- The datagram that `recvfrom` takes. -/
def ReceiveStep.taken? : ReceiveStep → Option Bytes
  | .recvfrom (.size buf) => some buf
  | .recvfrom (.gone datagram) => some datagram
  | _ => none

/-- The datagram that the callback gets. The test `if (recv_callback)` before the call is left out: the
owner is one who has given a callback to `enet_new_udp`. -/
def ReceiveStep.received? : ReceiveStep → Option Bytes
  | .recvfrom (.size buf) => some buf
  | _ => none

/-- A `select` that leaves the socket in the set. -/
def Hears (step : ReceiveStep) (s : Receiver) : Prop :=
  match step with
  | .select => s.waiting ≠ []
  | .selectFails leaves => leaves = true
  | _ => True

/-- The steps that give all these datagrams to the callback. -/
def rounds (datagrams : List Bytes) : List ReceiveStep :=
  datagrams.flatMap fun datagram => [.select, .rlock true, .recvfrom (.size datagram)]

section Receives

variable {s s' : Receiver} {step : ReceiveStep} {steps : List ReceiveStep}

private theorem updReceiveThread_cases (takes : updReceiveThread step s = some s') :
    (∃ datagram, step = .arrives datagram ∧ s' = { s with waiting := s.waiting ++ [datagram] }) ∨
    (step = .select ∧ s.point = .select ∧ s.readSet = true ∧ s.waiting ≠ [] ∧ s' = { s with point := .rlock }) ∨
    (step = .select ∧ s.point = .select ∧ (s.readSet = false ∨ s.waiting = []) ∧ s' = { s with readSet := false }) ∨
    (∃ leaves, step = .selectFails leaves ∧ s.point = .select ∧ s' = { s with readSet := s.readSet && leaves }) ∨
    (∃ locked, step = .rlock locked ∧ s.point = .rlock ∧
      s' = { s with point := if locked then .recvfrom else .returned }) ∨
    (step = .recvfrom .failed ∧ s.point = .recvfrom ∧ s' = { s with point := .select }) ∨
    (∃ datagram waiting, (step = .recvfrom (.size datagram) ∨ step = .recvfrom (.gone datagram)) ∧ s.point = .recvfrom ∧
      s.waiting = datagram :: waiting ∧ s' = { s with point := .select, waiting }) := by
  obtain ⟨point, readSet, waiting⟩ := s
  cases step with
  | arrives datagram =>
      cases takes
      exact .inl ⟨datagram, rfl, rfl⟩
  | select =>
      cases point <;> cases readSet <;> cases waiting <;> simp_all [updReceiveThread, select]
  | selectFails leaves =>
      cases point <;> simp_all [updReceiveThread]
  | rlock locked =>
      cases point <;> simp_all [updReceiveThread]
  | recvfrom answer =>
      cases point <;> cases answer <;> cases waiting <;> simp_all [updReceiveThread]

private theorem updReceiveThread_fifo {queue : List Bytes} (same : s.waiting = queue)
    (takes : updReceiveThread step s = some s') :
    Matches (fifo none) (fun s queue => s.waiting = queue) step.event? s' queue := by
  subst same
  rcases updReceiveThread_cases takes with ⟨datagram, rfl, rfl⟩ | ⟨rfl, _, _, _, rfl⟩ | ⟨rfl, _, _, rfl⟩ |
    ⟨leaves, rfl, _, rfl⟩ | ⟨locked, rfl, _, rfl⟩ | ⟨rfl, _, rfl⟩ | ⟨datagram, waiting, rfl | rfl, _, first, rfl⟩
  case inl => exact ⟨_, rfl, rfl⟩
  case inr.inr.inr.inr.inr.inr.inl => exact ⟨waiting, by rw [first]; exact if_pos rfl, rfl⟩
  case inr.inr.inr.inr.inr.inr.inr => exact ⟨waiting, by rw [first]; exact if_pos rfl, rfl⟩
  all_goals rfl

/-- What a step does to the set. -/
theorem updReceiveThread_readSet (takes : updReceiveThread step s = some s') :
    s'.readSet = true ↔ s.readSet = true ∧ Hears step s := by
  rcases updReceiveThread_cases takes with ⟨datagram, rfl, rfl⟩ | ⟨rfl, _, inSet, waits, rfl⟩ | ⟨rfl, _, silent, rfl⟩ |
    ⟨leaves, rfl, _, rfl⟩ | ⟨locked, rfl, _, rfl⟩ | ⟨rfl, _, rfl⟩ | ⟨datagram, waiting, rfl | rfl, _, _, rfl⟩
  case inr.inr.inl =>
    refine iff_of_false (by simp) ?_
    rintro ⟨inSet, waits⟩
    exact silent.elim (fun out => by rw [out] at inSet; cases inSet) waits
  all_goals simp_all [Hears]

/-- The socket has left the set. -/
def Receiver.Deaf (s : Receiver) : Prop := s.readSet = false ∧ s.point = .select

/-- The thread goes from `select` to `select`. -/
theorem Receiver.Deaf.next (deaf : s.Deaf) (takes : updReceiveThread step s = some s') :
    s'.Deaf ∧ step.received? = none := by
  obtain ⟨out, here⟩ := deaf
  rcases updReceiveThread_cases takes with ⟨datagram, rfl, rfl⟩ | ⟨rfl, _, inSet, waits, rfl⟩ | ⟨rfl, _, _, rfl⟩ |
    ⟨leaves, rfl, _, rfl⟩ | ⟨locked, rfl, point, rfl⟩ | ⟨rfl, point, rfl⟩ | ⟨datagram, waiting, rfl | rfl, point, _, rfl⟩ <;>
    simp_all [Receiver.Deaf, ReceiveStep.received?]

/-- A step takes the socket out of the set only at `select`. -/
theorem updReceiveThread_point (inside : s.readSet = false → s.point = .select)
    (takes : updReceiveThread step s = some s') : s'.readSet = false → s'.point = .select := by
  rcases updReceiveThread_cases takes with ⟨datagram, rfl, rfl⟩ | ⟨rfl, _, inSet, waits, rfl⟩ | ⟨rfl, here, _, rfl⟩ |
    ⟨leaves, rfl, here, rfl⟩ | ⟨locked, rfl, point, rfl⟩ | ⟨rfl, point, rfl⟩ |
    ⟨datagram, waiting, rfl | rfl, point, _, rfl⟩ <;> simp_all

private theorem run_readSet (runs : run updReceiveThread steps s = some s') :
    s'.readSet = true ↔ s.readSet = true ∧ Meets updReceiveThread Hears steps s := by
  induction steps generalizing s with
  | nil =>
      cases runs
      exact (and_iff_left trivial).symm
  | cons step steps ih =>
      obtain ⟨between, here, rest⟩ := run_cons.mp runs
      rw [ih rest, updReceiveThread_readSet here, and_assoc]
      refine and_congr_right fun _ => and_congr_right fun _ => ?_
      constructor
      · intro later after takes
        rwa [Option.some.inj (takes.symm.trans here)]
      · exact fun later => later between here

private theorem run_deaf (deaf : s.Deaf) (runs : run updReceiveThread steps s = some s') :
    s'.Deaf ∧ steps.filterMap ReceiveStep.received? = [] := by
  induction steps generalizing s with
  | nil =>
      cases runs
      exact ⟨deaf, rfl⟩
  | cons step steps ih =>
      obtain ⟨between, here, rest⟩ := run_cons.mp runs
      obtain ⟨deaf', nothing⟩ := deaf.next here
      rw [List.filterMap_cons_none nothing]
      exact ih deaf' rest

/-- The thread alone comes to all datagrams that wait. -/
theorem run_rounds (here : s.point = .select) (inSet : s.readSet = true) :
    run updReceiveThread (rounds s.waiting) s = some { s with waiting := [] } ∧
      (rounds s.waiting).filterMap ReceiveStep.received? = s.waiting := by
  obtain ⟨point, readSet, waiting⟩ := s
  dsimp only at here inSet ⊢
  subst here inSet
  induction waiting with
  | nil => exact ⟨rfl, rfl⟩
  | cons datagram waiting ih =>
      obtain ⟨runs, received⟩ := ih
      constructor
      · rw [rounds, List.flatMap_cons]
        refine run_append.mpr ⟨⟨.select, true, waiting⟩, ?_, runs⟩
        simp [run, updReceiveThread, select]
      · rw [rounds, List.flatMap_cons, List.filterMap_append]
        exact congrArg (datagram :: ·) received

private theorem run_arrived (runs : run updReceiveThread steps .start = some s) :
    steps.filterMap ReceiveStep.arrived? = steps.filterMap ReceiveStep.taken? ++ s.waiting := by
  obtain ⟨queue, shown, rfl⟩ := run_simulation (fun _ _ _ _ same takes => updReceiveThread_fifo same takes)
    (show Receiver.start.waiting = [] from rfl) runs
  have conserves := fifo_conserves shown
  have pushed : ∀ step : ReceiveStep, step.event?.bind QueueEvent.pushed? = step.arrived? := by
    rintro (_ | _ | _ | _ | (_ | _ | _)) <;> rfl
  have popped : ∀ step : ReceiveStep, step.event?.bind QueueEvent.popped? = step.taken? := by
    rintro (_ | _ | _ | _ | (_ | _ | _)) <;> rfl
  simpa only [List.filterMap_filterMap, pushed, popped, List.nil_append] using conserves

end Receives

/-- Whatever the network and the owner of the handle do: datagrams are taken in the order in which they came, each once.
As long as every `select` finds something, the thread alone gives all that wait to the callback; after the first one that
finds nothing, none that comes later gets there, and the thread does not return, not even when the handle is released. -/
theorem updReceiveThread_hears (steps : List ReceiveStep) (s : Receiver)
    (runs : run updReceiveThread steps .start = some s) :
    steps.filterMap ReceiveStep.arrived? = steps.filterMap ReceiveStep.taken? ++ s.waiting ∧
      (Meets updReceiveThread Hears steps .start → s.point = .select →
        run updReceiveThread (rounds s.waiting) s = some { s with waiting := [] } ∧
          (rounds s.waiting).filterMap ReceiveStep.received? = s.waiting) ∧
      (¬ Meets updReceiveThread Hears steps .start → ∀ later s', run updReceiveThread later s = some s' →
        later.filterMap ReceiveStep.received? = [] ∧ s'.point = .select) := by
  have set : s.readSet = true ↔ Meets updReceiveThread Hears steps .start :=
    (run_readSet runs).trans (and_iff_right rfl)
  have atSelect : s.readSet = false → s.point = .select :=
    run_invariant (fun _ _ _ inside takes => updReceiveThread_point inside takes) (by simp [Receiver.start]) runs
  refine ⟨run_arrived runs, fun meets here => run_rounds here (set.mpr meets), fun silent later s' goesOn => ?_⟩
  have out : s.readSet = false := Bool.eq_false_iff.mpr (mt set.mp silent)
  obtain ⟨deaf, nothing⟩ := run_deaf ⟨out, atSelect out⟩ goesOn
  exact ⟨nothing, deaf.2⟩

/-- One datagram, a second without any, and another one. -/
def quietSecond : List ReceiveStep :=
  [.arrives [1], .select, .rlock true, .recvfrom (.size [1]), .select, .arrives [2]]

theorem updReceiveThread_hears_once :
    quietSecond.filterMap ReceiveStep.arrived? = quietSecond.filterMap ReceiveStep.taken? ++ [[2]] ∧
      (Meets updReceiveThread Hears quietSecond .start → ReceivePoint.select = .select →
        run updReceiveThread (rounds [[2]]) ⟨.select, false, [[2]]⟩ = some ⟨.select, false, []⟩ ∧
          (rounds [[2]]).filterMap ReceiveStep.received? = [[2]]) ∧
      (¬ Meets updReceiveThread Hears quietSecond .start → ∀ later s',
        run updReceiveThread later ⟨.select, false, [[2]]⟩ = some s' →
          later.filterMap ReceiveStep.received? = [] ∧ s'.point = .select) :=
  updReceiveThread_hears quietSecond ⟨.select, false, [[2]]⟩ (by decide)

end GbfLibrary.Enet.Udp
