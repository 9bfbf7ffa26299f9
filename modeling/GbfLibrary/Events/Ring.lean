import GbfLibrary.Errno
import GbfLibrary.Systems.Fifo

/-!
# Event queues

The queue of `event_engine.c`, and that of `enet_event.c`, which works the same way. All of it
happens under the lock of the queue. An index outside the array and an assertion that does not
hold are faults.
-/

set_option autoImplicit false

namespace GbfLibrary.Events

open Systems

/-- `EVENT_ENGINE_INFO` and `ENET_EVENT_INFO`. -/
structure EventInfo where
  object : Nat
  param1 : Nat
  param2 : Nat
  id : Nat
  deriving DecidableEq

structure Ring where
  db : List EventInfo
  head : Nat
  tail : Nat
  itemCount : Nat
  totalHandler : Nat
  deriving DecidableEq

def DEFAULT_EVENT_DB_SIZE : Nat := 2000

/-- The first member of `ENET_EVENT_ID`. -/
def ENET_EVENT_NOPE : Nat := 0

/-- The array as it comes from `malloc`. -/
def Ring.init (nope : Nat) (memory : List EventInfo) : Ring :=
  ⟨memory.modify 0 fun event => { event with id := nope }, 0, 0, 0, 0⟩

/-- The index after this one. -/
def advance (size index : Nat) : Nat :=
  if index < size - 1 then index + 1 else 0

def postEvent (nope size : Nat) (event : EventInfo) (ring : Ring) : Option (Status × Ring) :=
  if event.object = 0 ∨ event.id = nope then some (.invParam, ring)
  else if ring.itemCount = size then some (.internalErr, ring)
  else
    let tail := if ring.itemCount ≠ 0 then advance size ring.tail else ring.tail
    if tail < ring.db.length then
      some (.ok, ⟨ring.db.set tail event, ring.head, tail, ring.itemCount + 1, ring.totalHandler + 1⟩)
    else none

/-- The rest of a pop that has found `itemCount > 0`. -/
def popEvent (nope size : Nat) (ring : Ring) : Option (EventInfo × Ring) := do
  let event ← ring.db[ring.head]?
  let db := ring.db.set ring.head { event with id := nope }
  if 1 < ring.itemCount then
    return (event, { ring with db, head := advance size ring.head, itemCount := ring.itemCount - 1 })
  else if ring.head = ring.tail then return (event, { ring with db, itemCount := ring.itemCount - 1 })
  else none

def eePostEvent (size : Nat) : EventInfo → Ring → Option (Status × Ring) := postEvent 0 size

def eePopEvent (size : Nat) : Ring → Option (EventInfo × Ring) := popEvent 0 size

def enetPostEvent (size : Nat) : EventInfo → Ring → Option (Status × Ring) :=
  postEvent ENET_EVENT_NOPE size

def enetPopEvent (size : Nat) : Ring → Option (EventInfo × Ring) := popEvent ENET_EVENT_NOPE size

/-- Calls of posters and of the thread that pops, with what they return. -/
inductive QueueCall where
  | post (event : EventInfo) (status : Status)
  | pop (event : EventInfo)
  deriving DecidableEq

def QueueCall.shown : QueueCall → Option (QueueEvent EventInfo)
  | post event .ok => some (.pushed event)
  | post event .internalErr => some (.refused event)
  | post _ _ => none
  | pop event => some (.popped event)

/-- The calls in the order in which they get the lock. -/
def queueStep (post : EventInfo → Ring → Option (Status × Ring)) (pop : Ring → Option (EventInfo × Ring)) :
    QueueCall → Ring → Option Ring
  | .post event status, ring => do
      let (status', ring) ← post event ring
      if status = status' then some ring else none
  | .pop event, ring =>
      if 0 < ring.itemCount then do
        let (event', ring) ← pop ring
        if event = event' then some ring else none
      else none

section Holds

variable {nope size : Nat} {ring ring' : Ring} {queue : List EventInfo} {event : EventInfo}

/-- The ring holds these events, oldest first. Both indices stay where they are when the
queue runs through empty, so that `tail` is the place of the youngest event. -/
structure Ring.Holds (ring : Ring) (size : Nat) (queue : List EventInfo) : Prop where
  memory : ring.db.length = size
  inside : ring.head < size
  count : ring.itemCount = queue.length
  bounded : queue.length ≤ size
  slots : ∀ i, i < queue.length → ring.db[(ring.head + i) % size]? = queue[i]?
  youngest : ring.tail = (ring.head + (queue.length - 1)) % size

private theorem advance_eq {index : Nat} (inside : index < size) : advance size index = (index + 1) % size := by
  unfold advance
  split
  · rw [Nat.mod_eq_of_lt (by omega)]
  · have last : index + 1 = size := by omega
    rw [last, Nat.mod_self]

private theorem add_mod_ne (head : Nat) {i j : Nat} (less : i < j) (bounded : j < size) :
    (head + i) % size ≠ (head + j) % size := by
  intro same
  have divides : size ∣ head + j - (head + i) :=
    Nat.dvd_of_mod_eq_zero (Nat.sub_mod_eq_zero_of_mod_eq same.symm)
  have zero := Nat.eq_zero_of_dvd_of_lt divides (by omega)
  omega

theorem Ring.init_holds (nope : Nat) {memory : List EventInfo} (room : 0 < memory.length) :
    (Ring.init nope memory).Holds memory.length [] where
  memory := by simp [Ring.init]
  inside := room
  count := rfl
  bounded := Nat.zero_le _
  slots := by simp
  youngest := by simp [Ring.init]

theorem Ring.Holds.post (holds : ring.Holds size queue) (room : queue.length ≠ size)
    (good : ¬ (event.object = 0 ∨ event.id = nope)) :
    ∃ ring', postEvent nope size event ring = some (.ok, ring') ∧ ring'.Holds size (queue ++ [event]) := by
  obtain ⟨memory, inside, count, bounded, slots, youngest⟩ := holds
  have tail : (if ring.itemCount ≠ 0 then advance size ring.tail else ring.tail) =
      (ring.head + queue.length) % size := by
    cases length : queue.length with
    | zero => simp [count, length, youngest]
    | succ n =>
        rw [if_pos (by omega), advance_eq, youngest, length, Nat.add_sub_cancel, Nat.mod_add_mod,
          Nat.add_assoc]
        rw [youngest]
        exact Nat.mod_lt _ (by omega)
  have less : (ring.head + queue.length) % size < ring.db.length := by
    rw [memory]
    exact Nat.mod_lt _ (by omega)
  have full : ring.itemCount ≠ size := by omega
  have posted : postEvent nope size event ring = some (.ok,
      ⟨ring.db.set ((ring.head + queue.length) % size) event, ring.head, (ring.head + queue.length) % size,
        ring.itemCount + 1, ring.totalHandler + 1⟩) := by
    unfold postEvent
    rw [if_neg good, if_neg full]
    simp only [tail, if_pos less]
  refine ⟨_, posted, ?_⟩
  constructor
  case memory => simpa using memory
  case inside => exact inside
  case count => simp [count]
  case bounded =>
    simp only [List.length_append, List.length_singleton]
    omega
  case slots =>
    intro i within
    simp only [List.length_append, List.length_singleton] at within
    rcases Nat.lt_succ_iff_lt_or_eq.mp within with earlier | rfl
    · have other := add_mod_ne ring.head earlier (show queue.length < size by omega)
      rw [List.getElem?_set_ne (Ne.symm other), slots i earlier, List.getElem?_append_left earlier]
    · rw [List.getElem?_set_self less, List.getElem?_concat_length]
  case youngest => simp

theorem Ring.Holds.post_full (holds : ring.Holds size queue) (full : queue.length = size)
    (good : ¬ (event.object = 0 ∨ event.id = nope)) :
    postEvent nope size event ring = some (.internalErr, ring) := by
  unfold postEvent
  rw [if_neg good, if_pos (holds.count.trans full)]

theorem postEvent_invalid (bad : event.object = 0 ∨ event.id = nope) :
    postEvent nope size event ring = some (.invParam, ring) :=
  if_pos bad

/-- A pop that finds an event. The assertion holds, for a single event is at both indices. -/
theorem Ring.Holds.pop (nope : Nat) (holds : ring.Holds size (event :: queue)) :
    ∃ ring', popEvent nope size ring = some (event, ring') ∧ ring'.Holds size queue := by
  obtain ⟨memory, inside, count, bounded, slots, youngest⟩ := holds
  have first : ring.db[ring.head]? = some event := by
    have first := slots 0 (Nat.zero_lt_succ _)
    rwa [Nat.add_zero, Nat.mod_eq_of_lt inside] at first
  rw [List.length_cons] at count bounded youngest
  rw [Nat.add_sub_cancel] at youngest
  have others : ∀ i, i < queue.length → ∀ cleared,
      (ring.db.set ring.head cleared)[(ring.head + (i + 1)) % size]? = queue[i]? := by
    intro i within cleared
    have other := add_mod_ne ring.head (Nat.zero_lt_succ i) (show i + 1 < size by omega)
    rw [Nat.add_zero, Nat.mod_eq_of_lt inside] at other
    rw [List.getElem?_set_ne other, slots (i + 1) (Nat.succ_lt_succ within), List.getElem?_cons_succ]
  unfold popEvent
  simp only [first, Option.bind_eq_bind, Option.bind_some]
  by_cases more : 1 < ring.itemCount
  · rw [if_pos more]
    refine ⟨_, rfl, ?_⟩
    have moved : advance size ring.head = (ring.head + 1) % size := advance_eq inside
    constructor
    case memory => simpa using memory
    case inside =>
      rw [moved]
      exact Nat.mod_lt _ (by omega)
    case count => simp [count]
    case bounded => omega
    case slots =>
      intro i within
      simp only [moved]
      rw [Nat.mod_add_mod, Nat.add_assoc, Nat.add_comm 1]
      exact others i within _
    case youngest =>
      simp only [moved]
      rw [youngest, Nat.mod_add_mod]
      congr 1
      omega
  · have empty : queue = [] := List.eq_nil_of_length_eq_zero (by omega)
    have same : ring.head = ring.tail := by
      rw [youngest, empty, List.length_nil, Nat.add_zero, Nat.mod_eq_of_lt inside]
    rw [if_neg more, if_pos same]
    refine ⟨_, rfl, ?_⟩
    subst empty
    exact ⟨by simpa using memory, inside, by simp [count], Nat.zero_le _, by simp, by simpa using youngest⟩

end Holds

section Runs

variable {nope size : Nat} {ring ring' : Ring} {queue : List EventInfo} {call : QueueCall}

/-- A step of the ring is a step of a queue with this much room. -/
theorem Ring.Holds.step (holds : ring.Holds size queue)
    (steps : queueStep (postEvent nope size) (popEvent nope size) call ring = some ring') :
    Matches (fifo (some size)) (fun ring queue => ring.Holds size queue) call.shown ring' queue := by
  cases call with
  | post event status =>
      by_cases bad : event.object = 0 ∨ event.id = nope
      · simp only [queueStep, postEvent_invalid bad, Option.bind_eq_bind, Option.bind_some] at steps
        split at steps
        case isTrue same =>
          cases steps
          subst same
          exact holds
        case isFalse => cases steps
      by_cases full : queue.length = size
      · simp only [queueStep, holds.post_full full bad, Option.bind_eq_bind, Option.bind_some] at steps
        split at steps
        case isTrue same =>
          cases steps
          subst same
          exact ⟨queue, by simp [fifo, full], holds⟩
        case isFalse => cases steps
      · obtain ⟨after, posts, kept⟩ := holds.post full bad
        simp only [queueStep, posts, Option.bind_eq_bind, Option.bind_some] at steps
        split at steps
        case isTrue same =>
          cases steps
          subst same
          exact ⟨queue ++ [event], by simp [fifo, Ne.symm full], kept⟩
        case isFalse => cases steps
  | pop event =>
      simp only [queueStep] at steps
      split at steps
      case isTrue any =>
        cases queue with
        | nil => exact absurd any (by simp [holds.count])
        | cons first queue =>
            obtain ⟨after, pops, kept⟩ := holds.pop nope
            simp only [pops, Option.bind_eq_bind, Option.bind_some] at steps
            split at steps
            case isTrue same =>
              cases steps
              exact ⟨queue, by simp [fifo, same], kept⟩
            case isFalse => cases steps
      case isFalse => cases steps

/-- What a ring is after these calls: a queue with room for `size` events. A post is refused
if the event is not one or the queue is full, and then nothing changes. -/
structure RefinesFifo (nope size : Nat) (post : EventInfo → Ring → Option (Status × Ring))
    (pop : Ring → Option (EventInfo × Ring)) (calls : List QueueCall) (ring : Ring)
    (queue : List EventInfo) : Prop where
  runs : run (fifo (some size)) (calls.filterMap QueueCall.shown) [] = some queue
  conserves : (calls.filterMap QueueCall.shown).filterMap QueueEvent.pushed? =
    (calls.filterMap QueueCall.shown).filterMap QueueEvent.popped? ++ queue
  pending : ring.itemCount = queue.length
  single : ring.itemCount = 1 → ring.head = ring.tail
  posts : ∀ event, ∃ status ring', post event ring = some (status, ring') ∧
    (status ≠ .ok ↔ event.object = 0 ∨ event.id = nope ∨ queue.length = size) ∧
    (status ≠ .ok → ring' = ring)
  pops : ∀ event rest, queue = event :: rest → ∃ ring', pop ring = some (event, ring')

private theorem postEvent_refines (nope : Nat) {memory : List EventInfo} (room : 0 < memory.length)
    {calls : List QueueCall}
    (runs : run (queueStep (postEvent nope memory.length) (popEvent nope memory.length)) calls
      (Ring.init nope memory) = some ring) :
    ∃ queue, RefinesFifo nope memory.length (postEvent nope memory.length)
      (popEvent nope memory.length) calls ring queue := by
  obtain ⟨queue, shown, holds⟩ := run_simulation
    (fun _ _ _ _ holds steps => Ring.Holds.step holds steps) (Ring.init_holds nope room) runs
  refine ⟨queue, shown, by simpa using fifo_conserves shown, holds.count, ?_, ?_, ?_⟩
  · intro single
    rw [holds.youngest, ← holds.count, single, Nat.sub_self, Nat.add_zero, Nat.mod_eq_of_lt holds.inside]
  · intro event
    by_cases bad : event.object = 0 ∨ event.id = nope
    · exact ⟨_, _, postEvent_invalid bad, by simp [← or_assoc, bad], fun _ => rfl⟩
    by_cases full : queue.length = memory.length
    · exact ⟨_, _, holds.post_full full bad, by simp [full], fun _ => rfl⟩
    · obtain ⟨after, posts, _⟩ := holds.post full bad
      exact ⟨_, after, posts, by simp [bad, full], fun bad => absurd rfl bad⟩
  · rintro event rest rfl
    obtain ⟨after, pops, _⟩ := holds.pop nope
    exact ⟨after, pops⟩

/-- Both queues are bounded queues, first in and first out, after all posts and pops. -/
theorem eventQueues_refine (memory : List EventInfo) (room : 0 < memory.length)
    (calls : List QueueCall) (ring : Ring) :
    (run (queueStep (eePostEvent memory.length) (eePopEvent memory.length)) calls (Ring.init 0 memory) =
        some ring →
      ∃ queue, RefinesFifo 0 memory.length (eePostEvent memory.length) (eePopEvent memory.length)
        calls ring queue) ∧
    (run (queueStep (enetPostEvent memory.length) (enetPopEvent memory.length)) calls
        (Ring.init ENET_EVENT_NOPE memory) = some ring →
      ∃ queue, RefinesFifo ENET_EVENT_NOPE memory.length (enetPostEvent memory.length)
        (enetPopEvent memory.length) calls ring queue) :=
  ⟨postEvent_refines 0 room, postEvent_refines ENET_EVENT_NOPE room⟩

/-- An array of one, which is full after one post. -/
theorem eventQueues_refine_one :
    let memory : List EventInfo := [⟨0, 0, 0, 0⟩]
    let calls : List QueueCall := [.post ⟨1, 0, 0, 5⟩ .ok, .post ⟨2, 0, 0, 5⟩ .internalErr, .pop ⟨1, 0, 0, 5⟩]
    ∃ ring queue, run (queueStep (eePostEvent 1) (eePopEvent 1)) calls (Ring.init 0 memory) = some ring ∧
      RefinesFifo 0 1 (eePostEvent 1) (eePopEvent 1) calls ring queue := by
  refine ⟨⟨[⟨1, 0, 0, 0⟩], 0, 0, 0, 1⟩, ?_⟩
  have runs : run (queueStep (eePostEvent 1) (eePopEvent 1))
      [.post ⟨1, 0, 0, 5⟩ .ok, .post ⟨2, 0, 0, 5⟩ .internalErr, .pop ⟨1, 0, 0, 5⟩]
      (Ring.init 0 [⟨0, 0, 0, 0⟩]) = some ⟨[⟨1, 0, 0, 0⟩], 0, 0, 0, 1⟩ := by
    decide
  obtain ⟨queue, refines⟩ := (eventQueues_refine [⟨0, 0, 0, 0⟩] (by decide) _ _).1 runs
  exact ⟨queue, runs, refines⟩

end Runs

end GbfLibrary.Events
