import GbfLibrary.Enet.Traffic
import GbfLibrary.Systems.Custody
import Mathlib.Data.Multiset.MapFold

/-!
# Where packets and connections are

A packet in use is in the hands of a thread, in an event of the queue, or with the
event thread. A connection of a server is in the set of a worker, in a task, or in
a disconnect event.
-/

set_option autoImplicit false

namespace GbfLibrary.Enet

open Systems

inductive Place (E : Setup) where
  | worker (w : Fin E.workers)
  | receiver (c : Fin E.receivers)
  | tasks (server : Nat)
  | queue
  | handler
  deriving DecidableEq

def Event.packet : Event → Option Nat
  | .serverRecv _ packet _ => some packet
  | .clientRecv _ packet => some packet
  | _ => none

/-- The connection that the event is to end. -/
def Event.connection : Event → Option (Nat × Socket)
  | .serverDisconnect k fd _ => some (k, fd)
  | _ => none

def WorkerPoint.packets : WorkerPoint → Multiset Nat
  | .busy _ _ _ packet _ => {packet}
  | _ => 0

def ReceiverPoint.packets : ReceiverPoint → Multiset Nat
  | .top => 0
  | .filling packet => {packet}
  | .received packet => {packet}

def HandlerPoint.packets : HandlerPoint → Multiset Nat
  | .handling event => (event.packet.toList : Multiset Nat)
  | .releasing packet => {packet}
  | _ => 0

def HandlerPoint.connections : HandlerPoint → Multiset (Nat × Socket)
  | .handling event => (event.connection.toList : Multiset (Nat × Socket))
  | _ => 0

/-- The task in the worker's hands. -/
def WorkerPoint.task : WorkerPoint → Option Socket
  | .called task => task
  | .asking refused => refused
  | .selecting refused => refused
  | .scanning refused _ => refused
  | .busy refused _ _ _ _ => refused
  | .top | .ended => none

/-- The sockets a worker will read from. One for which it has posted the disconnect
event is in its set but will be taken out. -/
def Worker.monitored (worker : Worker) : List Socket :=
  match worker.point with
  | .busy _ fd _ _ .closing => worker.jobSet.erase fd
  | .ended => []
  | _ => worker.jobSet

/-- The sockets that a worker is in charge of. -/
def Worker.connections (worker : Worker) : List Socket :=
  worker.point.task.toList ++ worker.monitored

namespace Traffic

variable {E : Setup} {s s' : Traffic E} {w : Fin E.workers} {c : Fin E.receivers} {p : Place E}

def packetsAt (s : Traffic E) : Place E → Multiset Nat
  | .worker w => (s.workers w).point.packets
  | .receiver c => (s.receivers c).point.packets
  | .tasks _ => 0
  | .queue => (s.queue.filterMap Event.packet : List Nat)
  | .handler => s.handler.packets

def connectionsAt (s : Traffic E) : Place E → Multiset (Nat × Socket)
  | .worker w => ((s.workers w).connections.map (Prod.mk (E.serverOf w)) : List (Nat × Socket))
  | .receiver _ => 0
  | .tasks k => ((s.servers k).tasks.map (Prod.mk k) : List (Nat × Socket))
  | .queue => (s.queue.filterMap Event.connection : List (Nat × Socket))
  | .handler => s.handler.connections

/-- The packet is marked in `__packet_state`. -/
def PacketUsed (s : Traffic E) (packet : Nat) : Prop := s.packetState packet = true

/-- The server has a client for the descriptor. -/
def Connected (s : Traffic E) (connection : Nat × Socket) : Prop :=
  (s.servers connection.1).clientsTree connection.2 ≠ none

/-!
## What a step leaves alone
-/

theorem packetsAt_worker {worker : Worker} (workers : s'.workers = Function.update s.workers w worker)
    (receivers : s'.receivers = s.receivers) (handler : s'.handler = s.handler)
    (other : p ≠ .worker w) (notPosted : p ≠ .queue ∨ s'.queue = s.queue) :
    s'.packetsAt p = s.packetsAt p := by
  cases p with
  | worker v =>
      have different : v ≠ w := fun same => other (same ▸ rfl)
      simp only [packetsAt, workers, Function.update_of_ne different]
  | receiver c => simp only [packetsAt, receivers]
  | tasks k => rfl
  | queue => simp only [packetsAt, notPosted.resolve_left fun notQueue => notQueue rfl]
  | handler => simp only [packetsAt, handler]

theorem packetsAt_receiver {receiver : Receiver}
    (receivers : s'.receivers = Function.update s.receivers c receiver)
    (workers : s'.workers = s.workers) (handler : s'.handler = s.handler)
    (other : p ≠ .receiver c) (notPosted : p ≠ .queue ∨ s'.queue = s.queue) :
    s'.packetsAt p = s.packetsAt p := by
  cases p with
  | worker w => simp only [packetsAt, workers]
  | receiver d =>
      have different : d ≠ c := fun same => other (same ▸ rfl)
      simp only [packetsAt, receivers, Function.update_of_ne different]
  | tasks k => rfl
  | queue => simp only [packetsAt, notPosted.resolve_left fun notQueue => notQueue rfl]
  | handler => simp only [packetsAt, handler]

theorem packetsAt_handler (workers : s'.workers = s.workers) (receivers : s'.receivers = s.receivers)
    (other : p ≠ .handler) (notPopped : p ≠ .queue ∨ s'.queue = s.queue) :
    s'.packetsAt p = s.packetsAt p := by
  cases p with
  | worker w => simp only [packetsAt, workers]
  | receiver c => simp only [packetsAt, receivers]
  | tasks k => rfl
  | queue => simp only [packetsAt, notPopped.resolve_left fun notQueue => notQueue rfl]
  | handler => exact absurd rfl other

end Traffic

end GbfLibrary.Enet
