import GbfLibrary.Systems.Run

/-!
# First in, first out

Queues with or without a bound on their length, as systems whose labels are
what a user of the queue sees.
-/

set_option autoImplicit false

namespace GbfLibrary.Systems

variable {X : Type}

/-- What happens at a queue. -/
inductive QueueEvent (X : Type) where
  | pushed (x : X)
  | popped (x : X)
  /-- Nothing was there to pop. -/
  | empty
  /-- There was no room. -/
  | refused (x : X)
  deriving DecidableEq, Repr

namespace QueueEvent

def pushed? : QueueEvent X → Option X
  | pushed x => some x
  | _ => none

def popped? : QueueEvent X → Option X
  | popped x => some x
  | _ => none

end QueueEvent

/-- A queue with room for `bound` elements, or for any number. -/
def fifo [DecidableEq X] (bound : Option Nat) : QueueEvent X → List X → Option (List X)
  | .pushed x, queue => if bound = some queue.length then none else some (queue ++ [x])
  | .refused _, queue => if bound = some queue.length then some queue else none
  | .popped x, y :: queue => if x = y then some queue else none
  | .popped _, [] => none
  | .empty, queue => if queue = [] then some [] else none

section Fifo

variable [DecidableEq X] {bound : Option Nat} {events : List (QueueEvent X)} {queue queue' : List X}

/-- What went in came out in this order, or is still in the queue: nothing is
lost, nothing is there twice. -/
theorem fifo_conserves (runs : run (fifo bound) events queue = some queue') :
    queue ++ events.filterMap QueueEvent.pushed? =
      events.filterMap QueueEvent.popped? ++ queue' := by
  induction events generalizing queue with
  | nil =>
      cases runs
      simp
  | cons event events ih =>
      obtain ⟨between, here, rest⟩ := run_cons.mp runs
      have later := ih rest
      cases event with
      | pushed x =>
          simp only [fifo] at here
          split at here
          · cases here
          · cases here
            simpa [List.filterMap_cons, QueueEvent.pushed?, QueueEvent.popped?] using later
      | refused x =>
          simp only [fifo] at here
          split at here
          · cases here
            simpa [List.filterMap_cons, QueueEvent.pushed?, QueueEvent.popped?] using later
          · cases here
      | popped x =>
          cases queue with
          | nil => cases here
          | cons y queue =>
              simp only [fifo] at here
              split at here
              · next same =>
                  cases here
                  subst same
                  simpa [List.filterMap_cons, QueueEvent.pushed?, QueueEvent.popped?] using later
              · cases here
      | empty =>
          simp only [fifo] at here
          split at here
          · next nothing =>
              cases here
              subst nothing
              simpa [List.filterMap_cons, QueueEvent.pushed?, QueueEvent.popped?] using later
          · cases here

end Fifo

end GbfLibrary.Systems
