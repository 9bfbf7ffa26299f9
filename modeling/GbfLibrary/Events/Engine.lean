import GbfLibrary.Events.Ring

/-!
# The event engine

`event_engine_handler` beside any number of threads that post events. What happens under the
lock of the queue is one step, and so is each look at `__ee_is_terminated`. The spinning and
the sleeping of `pop_event` only take time.
-/

set_option autoImplicit false

namespace GbfLibrary.Events

open Systems

/-- Where `event_engine_handler` is. -/
inductive Place where
  /-- At the condition of its loop. -/
  | looping
  /-- In `pop_event`, before it takes the lock. -/
  | popping
  /-- In `pop_event`, after it has found nothing. -/
  | waiting
  /-- After `pop_event`. -/
  | popped
  | returned
  deriving DecidableEq

/-- `eventInfo` is the local variable of `event_engine_handler`. -/
structure Engine where
  ring : Ring
  isTerminated : Bool
  place : Place
  eventInfo : EventInfo
  deriving DecidableEq

/-- The engine after `ee_init_event`. The local variable is not initialised. -/
def Engine.start (memory : List EventInfo) (garbage : EventInfo) : Engine :=
  ⟨Ring.init 0 memory, false, .looping, garbage⟩

/-- A step of the handler, and the event that it calls the dispatcher with. -/
def eventEngineHandler (size : Nat) (engine : Engine) : Option (Option EventInfo × Engine) :=
  match engine.place with
  | .looping =>
      if engine.isTerminated then some (none, { engine with place := .returned })
      else some (none, { engine with place := .popping })
  | .popping =>
      if 0 < engine.ring.itemCount then do
        let (event, ring) ← eePopEvent size engine.ring
        return (none, { engine with ring, place := .popped, eventInfo := event })
      else some (none, { engine with place := .waiting })
  | .waiting =>
      -- the local variable keeps what it holds
      if engine.isTerminated then some (none, { engine with place := .popped })
      else some (none, { engine with place := .popping })
  | .popped =>
      if engine.eventInfo.id ≠ 0 then some (some engine.eventInfo, { engine with place := .looping })
      else some (none, { engine with place := .looping })
  | .returned => none

/-- What the threads do, with what they get back. -/
inductive EngineEvent where
  | post (event : EventInfo) (status : Status)
  /-- Some thread sets `__ee_is_terminated`. -/
  | terminate
  | handle (dispatched : Option EventInfo)
  deriving DecidableEq

namespace EngineEvent

/-- The event that `ee_post_event` has accepted. -/
def accepted? : EngineEvent → Option EventInfo
  | post event .ok => some event
  | _ => none

/-- The event that the dispatcher is called with. -/
def dispatched? : EngineEvent → Option EventInfo
  | handle dispatched => dispatched
  | _ => none

/-- The engine as a queue between the posts and the calls of the dispatcher. -/
def shown : EngineEvent → Option (QueueEvent EventInfo)
  | post event .ok => some (.pushed event)
  | handle (some event) => some (.popped event)
  | _ => none

end EngineEvent

def engineStep (size : Nat) : EngineEvent → Engine → Option Engine
  | .post event status, engine => do
      let (status', ring) ← eePostEvent size event engine.ring
      if status = status' then some { engine with ring } else none
  | .terminate, engine => some { engine with isTerminated := true }
  | .handle dispatched, engine => do
      let (dispatched', engine) ← eventEngineHandler size engine
      if dispatched = dispatched' then some engine else none

/-- `pop_event` does not see the flag while it waits, unless the record that the handler
passes on then is none. -/
def Calm : EngineEvent → Engine → Prop
  | .handle _, engine =>
      engine.place = .waiting → engine.isTerminated = true → engine.eventInfo.id = 0
  | _, _ => True

instance (event : EngineEvent) (engine : Engine) : Decidable (Calm event engine) :=
  match event with
  | .handle _ =>
      inferInstanceAs (Decidable
        (engine.place = .waiting → engine.isTerminated = true → engine.eventInfo.id = 0))
  | .post .. | .terminate => .isTrue trivial

/-- The dispatcher is called with accepted events only, in posting order, and at most once
for each. -/
def InOrder (events : List EngineEvent) : Prop :=
  events.filterMap EngineEvent.dispatched? <+: events.filterMap EngineEvent.accepted?

section Engine

variable {size : Nat} {engine engine' : Engine} {event : EngineEvent} {events : List EngineEvent}
  {undelivered : List EventInfo}

/-- The event that the handler is about to pass on. -/
def Engine.inHand (engine : Engine) : List EventInfo :=
  if engine.place = .popped ∧ engine.eventInfo.id ≠ 0 then [engine.eventInfo] else []

/-- The accepted events that the dispatcher has not been called with. -/
def Engine.Owes (size : Nat) (engine : Engine) (undelivered : List EventInfo) : Prop :=
  ∃ queue, engine.ring.Holds size queue ∧ (∀ event ∈ queue, event.id ≠ 0) ∧
    undelivered = engine.inHand ++ queue

theorem Engine.start_owes {memory : List EventInfo} (room : 0 < memory.length) (garbage : EventInfo) :
    (Engine.start memory garbage).Owes memory.length [] :=
  ⟨[], Ring.init_holds 0 room, by simp, rfl⟩

/-- Nothing is in the hand of a handler at another place. -/
theorem Engine.inHand_of_ne (elsewhere : engine.place ≠ .popped) : engine.inHand = [] :=
  if_neg fun both => elsewhere both.1

theorem Engine.Owes.post {posted : EventInfo} {status : Status} (owes : engine.Owes size undelivered)
    (steps : engineStep size (.post posted status) engine = some engine') :
    Matches (fifo none) (fun engine undelivered => engine.Owes size undelivered)
      (EngineEvent.post posted status).shown engine' undelivered := by
  obtain ⟨queue, holds, ids, rfl⟩ := owes
  simp only [engineStep, eePostEvent] at steps
  by_cases bad : posted.object = 0 ∨ posted.id = 0
  · simp only [postEvent_invalid bad, Option.bind_eq_bind, Option.bind_some] at steps
    split at steps
    case isTrue same =>
      cases steps
      subst same
      exact ⟨queue, holds, ids, rfl⟩
    case isFalse => cases steps
  by_cases full : queue.length = size
  · simp only [holds.post_full full bad, Option.bind_eq_bind, Option.bind_some] at steps
    split at steps
    case isTrue same =>
      cases steps
      subst same
      exact ⟨queue, holds, ids, rfl⟩
    case isFalse => cases steps
  · obtain ⟨after, posts, kept⟩ := holds.post full bad
    simp only [posts, Option.bind_eq_bind, Option.bind_some] at steps
    split at steps
    case isTrue same =>
      cases steps
      subst same
      refine ⟨engine.inHand ++ queue ++ [posted], by simp [fifo], queue ++ [posted], kept, ?_, ?_⟩
      · intro event member
        rcases List.mem_append.mp member with earlier | last
        · exact ids event earlier
        · rw [List.mem_singleton.mp last]
          exact fun zero => bad (.inr zero)
      · exact List.append_assoc ..
    case isFalse => cases steps

/-- The handler passes on what it owes, one event after the other. -/
theorem Engine.Owes.handle {dispatched : Option EventInfo} (owes : engine.Owes size undelivered)
    (calm : Calm (.handle dispatched) engine)
    (steps : engineStep size (.handle dispatched) engine = some engine') :
    Matches (fifo none) (fun engine undelivered => engine.Owes size undelivered)
      (EngineEvent.handle dispatched).shown engine' undelivered := by
  obtain ⟨queue, holds, ids, rfl⟩ := owes
  obtain ⟨⟨dispatched', after⟩, handles, answers⟩ := Option.bind_eq_some_iff.mp steps
  obtain ⟨rfl, equal⟩ := Option.ite_none_right_eq_some.mp answers
  cases equal
  cases place : engine.place with
  | looping =>
      have empty : engine.inHand = [] := Engine.inHand_of_ne (by simp [place])
      simp only [eventEngineHandler, place] at handles
      split at handles <;> cases handles <;> exact ⟨queue, holds, ids, by rw [empty]; rfl⟩
  | popping =>
      have empty : engine.inHand = [] := Engine.inHand_of_ne (by simp [place])
      simp only [eventEngineHandler, place, eePopEvent] at handles
      cases queue with
      | nil =>
          rw [if_neg (by simp [holds.count])] at handles
          cases handles
          exact ⟨[], holds, ids, by rw [empty]; rfl⟩
      | cons event queue =>
          obtain ⟨ring, pops, kept⟩ := holds.pop 0
          rw [if_pos (by simp [holds.count])] at handles
          simp only [pops, Option.bind_eq_bind, Option.bind_some] at handles
          cases handles
          have id := ids event List.mem_cons_self
          refine ⟨queue, kept, fun e member => ids e (List.mem_cons_of_mem _ member), ?_⟩
          rw [empty]
          simp [Engine.inHand, id]
  | waiting =>
      have empty : engine.inHand = [] := Engine.inHand_of_ne (by simp [place])
      simp only [eventEngineHandler, place] at handles
      split at handles
      case isTrue seen =>
        have id := calm place seen
        cases handles
        exact ⟨queue, holds, ids, by rw [empty]; simp [Engine.inHand, id]⟩
      case isFalse =>
        cases handles
        exact ⟨queue, holds, ids, by rw [empty]; rfl⟩
  | popped =>
      simp only [eventEngineHandler, place] at handles
      split at handles
      case isTrue id =>
        cases handles
        exact ⟨queue, by simp [Engine.inHand, fifo, place, id], queue, holds, ids, rfl⟩
      case isFalse id =>
        cases handles
        exact ⟨queue, holds, ids, by simp [Engine.inHand, id]⟩
  | returned => simp [eventEngineHandler, place] at handles

theorem Engine.Owes.step (owes : engine.Owes size undelivered) (calm : Calm event engine)
    (steps : engineStep size event engine = some engine') :
    Matches (fifo none) (fun engine undelivered => engine.Owes size undelivered) event.shown engine'
      undelivered := by
  cases event with
  | post posted status => exact owes.post steps
  | terminate =>
      cases steps
      exact owes
  | handle dispatched => exact owes.handle calm steps

theorem eventEngineHandler_running {dispatched : Option EventInfo} (running : engine.isTerminated = false) (there : engine.place ≠ .returned)
    (handles : eventEngineHandler size engine = some (dispatched, engine')) :
    engine'.isTerminated = false ∧ engine'.place ≠ .returned := by
  unfold eventEngineHandler at handles
  cases place : engine.place with
  | looping =>
      simp only [place, running, Bool.false_eq_true, if_false] at handles
      cases handles
      exact ⟨rfl, by simp⟩
  | popping =>
      simp only [place] at handles
      split at handles
      · obtain ⟨⟨event, ring⟩, _, handles⟩ := Option.bind_eq_some_iff.mp handles
        cases handles
        exact ⟨running, by simp⟩
      · cases handles
        exact ⟨running, by simp⟩
  | waiting =>
      simp only [place, running, Bool.false_eq_true, if_false] at handles
      cases handles
      exact ⟨rfl, by simp⟩
  | popped =>
      simp only [place] at handles
      split at handles <;> cases handles <;> exact ⟨running, by simp⟩
  | returned => exact absurd place there

/-- The steps of the handler until it calls the dispatcher, if an event is there. -/
def stepsLeft (engine : Engine) : Nat :=
  match engine.place with
  | .popped => if engine.eventInfo.id ≠ 0 then 0 else 3
  | .popping => 1
  | .looping | .waiting => 2
  | .returned => 4

/-- The handler always goes on, and it comes to an event that is there. -/
theorem eventEngineHandler_goes (owes : engine.Owes size undelivered) (running : engine.isTerminated = false)
    (there : engine.place ≠ .returned) :
    ∃ dispatched engine', eventEngineHandler size engine = some (dispatched, engine') ∧
      (undelivered ≠ [] → dispatched = none → stepsLeft engine' < stepsLeft engine) := by
  obtain ⟨queue, holds, ids, rfl⟩ := owes
  unfold eventEngineHandler
  cases place : engine.place with
  | looping =>
      simp only [running, Bool.false_eq_true, if_false]
      exact ⟨none, _, rfl, fun _ _ => by simp [stepsLeft, place]⟩
  | popping =>
      have inHand : engine.inHand = [] := Engine.inHand_of_ne (by simp [place])
      cases queue with
      | nil =>
          simp only [holds.count, List.length_nil, Nat.lt_irrefl, if_false]
          exact ⟨none, _, rfl, fun holding => absurd (by rw [inHand]; rfl) holding⟩
      | cons event queue =>
          obtain ⟨ring, pops, _⟩ := holds.pop 0
          simp only [holds.count, List.length_cons, Nat.succ_pos, if_true, eePopEvent, pops, Option.bind_eq_bind,
            Option.bind_some]
          exact ⟨none, _, rfl, fun _ _ => by simp [stepsLeft, place, ids event List.mem_cons_self]⟩
  | waiting =>
      simp only [running, Bool.false_eq_true, if_false]
      exact ⟨none, _, rfl, fun _ _ => by simp [stepsLeft, place]⟩
  | popped =>
      by_cases id : engine.eventInfo.id ≠ 0
      · simp only [if_pos id]
        exact ⟨_, _, rfl, fun _ not => by cases not⟩
      · simp only [if_neg id]
        exact ⟨none, _, rfl, fun _ _ => by simp [stepsLeft, place, not_not.mp id]⟩
  | returned => exact absurd place there

/-- A call of the dispatcher takes the first event, and the other steps take none. -/
theorem Engine.Owes.dispatches {dispatched : Option EventInfo} (owes : engine.Owes size undelivered) (running : engine.isTerminated = false)
    (handles : eventEngineHandler size engine = some (dispatched, engine')) :
    (dispatched = none ∧ engine'.Owes size undelivered) ∨
      ∃ info rest, dispatched = some info ∧ undelivered = info :: rest ∧ engine'.Owes size rest := by
  have steps : engineStep size (.handle dispatched) engine = some engine' := by simp [engineStep, handles]
  have calm : Calm (.handle dispatched) engine := fun _ terminated => by
    rw [running] at terminated
    cases terminated
  have matched := owes.handle calm steps
  cases dispatched with
  | none => exact .inl ⟨rfl, matched⟩
  | some info =>
      obtain ⟨rest, pops, owes'⟩ := matched
      cases undelivered with
      | nil => cases pops
      | cons first others =>
          obtain ⟨rfl, same⟩ := Option.ite_none_right_eq_some.mp pops
          cases same
          exact .inr ⟨info, _, rfl, rfl, owes'⟩

/-- What shows of the engine is what is accepted and what the dispatcher is called with. -/
theorem EngineEvent.filterMap_shown (events : List EngineEvent) :
    (events.filterMap shown).filterMap QueueEvent.pushed? = events.filterMap accepted? ∧
      (events.filterMap shown).filterMap QueueEvent.popped? = events.filterMap dispatched? := by
  rw [List.filterMap_filterMap, List.filterMap_filterMap]
  constructor <;> congr 1 <;> funext event
  · rcases event with ⟨_, _ | _⟩ | _ | _ | _ <;> rfl
  · rcases event with ⟨_, _ | _⟩ | _ | _ | _ <;> rfl

/-- The dispatcher is called in order as long as `pop_event` does not return without an event
while the record is an event. -/
theorem dispatched_inOrder (memory : List EventInfo) (room : 0 < memory.length) (garbage : EventInfo)
    (events : List EngineEvent) (engine : Engine)
    (calm : Meets (engineStep memory.length) Calm events (Engine.start memory garbage))
    (runs : run (engineStep memory.length) events (Engine.start memory garbage) = some engine) :
    InOrder events := by
  obtain ⟨undelivered, shown, _⟩ := run_simulation_of_meets
    (fun _ _ _ _ owes calm steps => Engine.Owes.step owes calm steps) (Engine.start_owes room garbage)
    calm runs
  obtain ⟨accepted, dispatched⟩ := EngineEvent.filterMap_shown events
  have conserves := fifo_conserves shown
  rw [accepted, dispatched, List.nil_append] at conserves
  exact ⟨undelivered, conserves.symm⟩

end Engine

/-- One event, and the flag is set after its delivery. -/
theorem dispatched_inOrder_one : InOrder [.handle none, .post ⟨1, 2, 3, 4⟩ .ok, .handle none,
    .handle (some ⟨1, 2, 3, 4⟩), .handle none, .handle none, .terminate] := by
  have runs : run (engineStep 1) [.handle none, .post ⟨1, 2, 3, 4⟩ .ok, .handle none,
      .handle (some ⟨1, 2, 3, 4⟩), .handle none, .handle none, .terminate]
      (Engine.start [⟨0, 0, 0, 0⟩] ⟨9, 9, 9, 9⟩) =
        some ⟨⟨[⟨1, 2, 3, 0⟩], 0, 0, 0, 1⟩, true, .waiting, ⟨1, 2, 3, 4⟩⟩ := by
    decide
  exact dispatched_inOrder [⟨0, 0, 0, 0⟩] (by decide) ⟨9, 9, 9, 9⟩ _ _ (by decide) runs

/-- The flag is set while `pop_event` waits for a second event. -/
theorem dispatched_twice :
    let event : EventInfo := ⟨1, 2, 3, 4⟩
    let events : List EngineEvent := [.post event .ok, .handle none, .handle none, .handle (some event),
      .handle none, .handle none, .terminate, .handle none, .handle (some event)]
    (∃ engine, run (engineStep DEFAULT_EVENT_DB_SIZE) events
      (Engine.start (List.replicate DEFAULT_EVENT_DB_SIZE ⟨0, 0, 0, 0⟩) ⟨0, 0, 0, 0⟩) = some engine) ∧
    events.filterMap EngineEvent.accepted? = [event] ∧
    events.filterMap EngineEvent.dispatched? = [event, event] ∧ ¬ InOrder events := by
  refine ⟨Option.isSome_iff_exists.mp ?_, rfl, rfl, ?_⟩
  · decide +kernel
  · unfold InOrder
    decide

end GbfLibrary.Events
