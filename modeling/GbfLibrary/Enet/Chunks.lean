import GbfLibrary.Enet.ConnectionOwners
import GbfLibrary.Enet.PacketOwners

/-!
# The chunks between a socket and its client

What `recv` returned for a descriptor of a server and was not processed yet is with
the event thread, in the queue of events, or in the hands of one worker, in this
order.
-/

set_option autoImplicit false

namespace GbfLibrary.Enet

open Systems

/-- The packet of a chunk for the descriptor. -/
def Event.chunkFor (k : Nat) (fd : Socket) : Event → Option Nat
  | .serverRecv j packet other => if j = k ∧ other = fd then some packet else none
  | _ => none

def HandlerPoint.chunkFor (k : Nat) (fd : Socket) : HandlerPoint → Option Nat
  | .handling event => event.chunkFor k fd
  | _ => none

/-- The chunk that a worker posts next: its socket and packet. -/
def WorkerPoint.unposted : WorkerPoint → Option (Socket × Nat)
  | .busy _ fd _ packet .received => some (fd, packet)
  | _ => none

def WorkerPoint.chunkFor (fd : Socket) (point : WorkerPoint) : Option Nat :=
  point.unposted.bind fun chunk => if chunk.1 = fd then some chunk.2 else none

private theorem Event.packet_of_chunkFor {k : Nat} {fd : Socket} {packet : Nat} {event : Event}
    (chunk : event.chunkFor k fd = some packet) : event.packet = some packet := by
  cases event with
  | serverRecv j held other =>
      simp only [chunkFor, Option.ite_none_right_eq_some] at chunk
      exact chunk.2
  | connectRequest j => cases chunk
  | serverDisconnect j other object => cases chunk
  | clientRecv client held => cases chunk

private theorem WorkerPoint.eq_of_chunkFor {fd : Socket} {packet : Nat} {point : WorkerPoint}
    (chunk : point.chunkFor fd = some packet) :
    ∃ refused readSet, point = .busy refused fd readSet packet .received := by
  obtain ⟨⟨other, held⟩, unposted, same⟩ := Option.bind_eq_some_iff.mp chunk
  simp only [Option.ite_none_right_eq_some, Option.some.injEq] at same
  obtain ⟨rfl, rfl⟩ := same
  unfold WorkerPoint.unposted at unposted
  split at unposted
  · cases unposted
    exact ⟨_, _, rfl⟩
  · cases unposted

/-- A list of options of which one member at most has a value. -/
theorem filterMap_eq_of_single {α β : Type} {f : α → Option β} {a : α} {l : List α} (distinct : l.Nodup)
    (member : a ∈ l) (others : ∀ b, b ≠ a → f b = none) : l.filterMap f = (f a).toList := by
  obtain ⟨front, back, rfl⟩ := List.append_of_mem member
  have empty : ∀ part : List α, a ∉ part → part.filterMap f = [] := fun part absent =>
    List.filterMap_eq_nil_iff.mpr fun b here => others b fun same => absent (same ▸ here)
  obtain ⟨-, rest, apart⟩ := List.nodup_append.mp distinct
  rw [List.filterMap_append, empty front fun here => apart a here a (List.mem_cons_self ..) rfl,
    List.filterMap_cons, empty back (List.nodup_cons.mp rest).1, List.nil_append]
  cases f a <;> rfl

namespace Traffic

variable {E : Setup} {s s' : Traffic E} {w : Fin E.workers} {k : Nat} {fd : Socket} {packet : Nat}

/-- The chunk of the descriptor in the hands of the server's workers. -/
def inHand (s : Traffic E) (k : Nat) (fd : Socket) : List Nat :=
  (List.finRange E.workers).filterMap fun w =>
    if E.serverOf w = k then (s.workers w).point.chunkFor fd else none

/-- The packets with what was received for the descriptor and not handed over. -/
def unhanded (s : Traffic E) (k : Nat) (fd : Socket) : List Nat :=
  (s.handler.chunkFor k fd).toList ++ s.queue.filterMap (Event.chunkFor k fd) ++ s.inHand k fd

/-- A worker that received a chunk finds the queue full. -/
def DropsChunk : TrafficStep E → Traffic E → Prop
  | .worker w .post, s => (s.workers w).point.unposted ≠ none ∧ s.queue.length = E.eventDbSize
  | _, _ => False

instance : (step : TrafficStep E) → (s : Traffic E) → Decidable (DropsChunk step s)
  | .worker w .post, s =>
      inferInstanceAs (Decidable ((s.workers w).point.unposted ≠ none ∧ s.queue.length = E.eventDbSize))
  | .worker _ (.select _), _ | .worker _ (.call _), _ | .worker _ .pop, _ | .worker _ .ask, _
  | .worker _ .alloc, _ | .worker _ (.recv _), _ | .worker _ .free, _ | .worker _ .done, _
  | .worker _ .quit, _ | .receiver _ _, _ | .handler _, _ | .listen _, _ | .disconnect _ _, _ | .stop _, _
  | .delete _, _ => .isFalse id

/-- What was received for a descriptor is what was handed over and what is under way. -/
def InOrder (s : Traffic E) : Prop :=
  ∀ k fd, s.received k fd = s.handed k fd ++ (s.unhanded k fd).map s.packetData

private theorem place_of_unhanded (under : packet ∈ s.unhanded k fd) :
    (∃ w, E.serverOf w = k ∧ (s.workers w).point.chunkFor fd = some packet) ∨
      packet ∈ s.packetsAt .queue ∨ packet ∈ s.packetsAt .handler := by
  simp only [unhanded, inHand, List.mem_append, Option.mem_toList, List.mem_filterMap] at under
  rcases under with (handler | ⟨event, queued, chunk⟩) | ⟨w, _, chunk⟩
  · right
    right
    unfold HandlerPoint.chunkFor at handler
    split at handler
    · next event handling =>
      simp [packetsAt, handling, HandlerPoint.packets, Event.packet_of_chunkFor handler]
    · cases handler
  · exact .inr (.inl (List.mem_filterMap.mpr ⟨event, queued, Event.packet_of_chunkFor chunk⟩))
  · simp only [Option.ite_none_right_eq_some] at chunk
    exact .inl ⟨w, chunk⟩

/-- The packet that a worker fills is not under way. -/
theorem notMem_unhanded (held : s.PacketsHeld) {p : Place E} (here : packet ∈ s.packetsAt p)
    (notQueue : p ≠ .queue) (notHandler : p ≠ .handler)
    (notReceived : ∀ w, p = .worker w → (s.workers w).point.unposted = none) : packet ∉ s.unhanded k fd := by
  intro under
  rcases place_of_unhanded under with ⟨w, _, chunk⟩ | queue | handler
  · obtain ⟨refused, readSet, point⟩ := WorkerPoint.eq_of_chunkFor chunk
    have there : packet ∈ s.packetsAt (.worker w) := by simp [packetsAt, point, WorkerPoint.packets]
    have noChunk := notReceived w (held.custody.alone p (.worker w) packet here there)
    rw [point] at noChunk
    cases noChunk
  · exact notQueue (held.custody.alone p .queue packet here queue)
  · exact notHandler (held.custody.alone p .handler packet here handler)

private theorem inHand_congr (same : ∀ v, E.serverOf v = k →
    (s'.workers v).point.chunkFor fd = (s.workers v).point.chunkFor fd) : s'.inHand k fd = s.inHand k fd := by
  refine List.filterMap_congr fun v _ => ?_
  split
  · next server => exact same v server
  · rfl

/-- Only one worker of a server can have a chunk of the descriptor. -/
theorem inHand_eq (server : E.serverOf w = k)
    (alone : ∀ v, v ≠ w → E.serverOf v = k → (s.workers v).point.chunkFor fd = none) :
    s.inHand k fd = ((s.workers w).point.chunkFor fd).toList := by
  rw [inHand, filterMap_eq_of_single (List.nodup_finRange E.workers) (List.mem_finRange w), if_pos server]
  intro v other
  split
  · next same => exact alone v other same
  · rfl

/-- A worker monitors the socket it reads from. -/
private theorem mem_monitored {refused : Option Socket} {readSet : List Socket} {stage : PacketStage}
    (set : (s.workers w).SetOk) (here : (s.workers w).point = .busy refused fd readSet packet stage)
    (reading : stage ≠ .closing) : fd ∈ (s.workers w).monitored := by
  have reads := set.reads
  rw [here] at reads
  have member : fd ∈ (s.workers w).jobSet := reads.subset (List.mem_cons_self ..)
  unfold Worker.monitored
  rw [here]
  split
  · next closing =>
    cases closing
    exact absurd rfl reading
  · next ended => cases ended
  · exact member

/-- While a worker reads from a socket that it alone monitors, no other worker of the
server has a chunk of it. -/
theorem alone_of_reads {refused : Option Socket} {readSet : List Socket} {stage : PacketStage}
    (once : s.MonitoredOnce) (sets : ∀ v, (s.workers v).SetOk)
    (here : (s.workers w).point = .busy refused fd readSet packet stage)
    (reading : stage ≠ .closing) (v : Fin E.workers) (other : v ≠ w) (server : E.serverOf v = E.serverOf w) :
    (s.workers v).point.chunkFor fd = none := by
  cases chunk : (s.workers v).point.chunkFor fd with
  | none => rfl
  | some held =>
      obtain ⟨refused', readSet', there⟩ := WorkerPoint.eq_of_chunkFor chunk
      have monitors := mem_monitored (sets v) there (by simp)
      exact absurd (once v w server fd monitors (mem_monitored (sets w) here reading)) other

theorem InOrder.keep (order : s.InOrder) (received : s'.received = s.received) (handed : s'.handed = s.handed)
    (unhanded : ∀ k fd, s'.unhanded k fd = s.unhanded k fd)
    (data : ∀ k fd, ∀ packet ∈ s.unhanded k fd, s'.packetData packet = s.packetData packet) :
    s'.InOrder := by
  intro k fd
  rw [received, handed, unhanded, order k fd, List.map_congr_left (data k fd)]

/-- A worker goes on without chunk, or with the one it has. -/
theorem inHand_same {worker : Worker} (workers : s'.workers = Function.update s.workers w worker)
    (same : worker.point.unposted = (s.workers w).point.unposted) (k : Nat) (fd : Socket) :
    s'.inHand k fd = s.inHand k fd := by
  refine inHand_congr fun v _ => ?_
  rw [workers]
  by_cases this : v = w
  · subst this
    simp only [Function.update_self, WorkerPoint.chunkFor, same]
  · rw [Function.update_of_ne this]

theorem InOrder.worker {worker : Worker} (order : s.InOrder)
    (workers : s'.workers = Function.update s.workers w worker) (queue : s'.queue = s.queue)
    (handler : s'.handler = s.handler) (received : s'.received = s.received) (handed : s'.handed = s.handed)
    (data : s'.packetData = s.packetData)
    (same : worker.point.unposted = (s.workers w).point.unposted) : s'.InOrder := by
  refine order.keep received handed (fun k fd => ?_) fun _ _ _ _ => by rw [data]
  simp only [unhanded, queue, handler, inHand_same workers same]

theorem InOrder.posted {event : Event} (order : s.InOrder) (nothing : ∀ k fd, event.chunkFor k fd = none)
    (hands : ∀ k fd, s'.inHand k fd = s.inHand k fd) (queue : s'.queue = s.queue ++ [event])
    (handler : s'.handler = s.handler) (received : s'.received = s.received) (handed : s'.handed = s.handed)
    (data : s'.packetData = s.packetData) : s'.InOrder := by
  refine order.keep received handed (fun k fd => ?_) fun _ _ _ _ => by rw [data]
  simp [unhanded, queue, handler, hands, nothing]

/-- A worker gets or posts a chunk of a socket: nothing changes for other sockets. -/
theorem inHand_other {worker : Worker} (workers : s'.workers = Function.update s.workers w worker)
    (before : ∀ chunk ∈ (s.workers w).point.unposted, chunk.1 = fd)
    (after : ∀ chunk ∈ worker.point.unposted, chunk.1 = fd) {j : Nat} {other : Socket}
    (different : (j, other) ≠ (E.serverOf w, fd)) : s'.inHand j other = s.inHand j other := by
  have nothing : ∀ point : WorkerPoint, (∀ chunk ∈ point.unposted, chunk.1 = fd) → other ≠ fd →
      point.chunkFor other = none := by
    intro point only elsewhere
    unfold WorkerPoint.chunkFor
    cases held : point.unposted with
    | none => rfl
    | some chunk =>
        have same : chunk.1 = fd := only chunk held
        simp [same, elsewhere.symm]
  refine inHand_congr fun v server => ?_
  rw [workers]
  by_cases this : v = w
  · subst this
    have elsewhere : other ≠ fd := by
      rintro rfl
      exact different (by rw [server])
    rw [Function.update_self, nothing _ after elsewhere, nothing _ before elsewhere]
  · rw [Function.update_of_ne this]

theorem InOrder.receive {refused : Option Socket} {readSet : List Socket} {chunk : Chunk} {worker : Worker}
    (order : s.InOrder) (packets : s.PacketsHeld) (once : s.MonitoredOnce) (sets : ∀ v, (s.workers v).SetOk)
    (here : (s.workers w).point = .busy refused fd readSet packet .filling)
    (workers : s'.workers = Function.update s.workers w worker)
    (point : worker.point = .busy refused fd readSet packet .received) (queue : s'.queue = s.queue)
    (handler : s'.handler = s.handler) (handed : s'.handed = s.handed)
    (data : s'.packetData = Function.update s.packetData packet chunk)
    (received : s'.received = Function.update s.received (E.serverOf w)
      (Function.update (s.received (E.serverOf w)) fd (s.received (E.serverOf w) fd ++ [chunk]))) :
    s'.InOrder := by
  have filled : s'.packetData packet = chunk := by rw [data, Function.update_self]
  have untouched : ∀ k other, (s.unhanded k other).map s'.packetData = (s.unhanded k other).map s.packetData := by
    intro k other
    refine List.map_congr_left fun under member => ?_
    rw [data]
    refine Function.update_of_ne ?_ _ _
    rintro rfl
    refine notMem_unhanded packets (p := .worker w) ?_ (by simp) (by simp) ?_ member
    · simp [packetsAt, here, WorkerPoint.packets]
    · rintro v ⟨⟩
      rw [here]
      rfl
  intro k other
  by_cases this : (k, other) = (E.serverOf w, fd)
  · cases this
    have alone := alone_of_reads once sets here (by simp)
    have before : s.inHand (E.serverOf w) fd = [] := by
      rw [inHand_eq rfl alone, here]
      rfl
    have after : s'.inHand (E.serverOf w) fd = [packet] := by
      have apart : ∀ v, v ≠ w → E.serverOf v = E.serverOf w →
          (s'.workers v).point.chunkFor fd = none := by
        intro v different server
        rw [workers, Function.update_of_ne different]
        exact alone v different server
      rw [inHand_eq rfl apart, workers, Function.update_self, point]
      simp [WorkerPoint.chunkFor, WorkerPoint.unposted]
    have longer : s'.unhanded (E.serverOf w) fd = s.unhanded (E.serverOf w) fd ++ [packet] := by
      simp only [unhanded, queue, handler, before, after, List.append_nil]
    rw [longer, List.map_append, untouched, List.map_singleton, filled, ← List.append_assoc, handed,
      ← order, received]
    simp
  · have same : s'.unhanded k other = s.unhanded k other := by
      simp only [unhanded, queue, handler,
        inHand_other workers (by simp [here, WorkerPoint.unposted]) (by simp [point, WorkerPoint.unposted])
          this]
    have others : s'.received k other = s.received k other := by
      rw [received]
      by_cases server : k = E.serverOf w
      · subst server
        have elsewhere : other ≠ fd := fun socket => this (socket ▸ rfl)
        simp [elsewhere]
      · simp [server]
    rw [others, handed, same, untouched, order]

theorem InOrder.post {refused : Option Socket} {readSet : List Socket} {worker : Worker}
    (order : s.InOrder) (once : s.MonitoredOnce) (sets : ∀ v, (s.workers v).SetOk)
    (here : (s.workers w).point = .busy refused fd readSet packet .received)
    (workers : s'.workers = Function.update s.workers w worker) (point : worker.point.unposted = none)
    (queue : s'.queue = s.queue ++ [.serverRecv (E.serverOf w) packet fd])
    (handler : s'.handler = s.handler) (received : s'.received = s.received) (handed : s'.handed = s.handed)
    (data : s'.packetData = s.packetData) : s'.InOrder := by
  refine order.keep received handed (fun k other => ?_) fun _ _ _ _ => by rw [data]
  by_cases this : (k, other) = (E.serverOf w, fd)
  · cases this
    have alone := alone_of_reads once sets here (by simp)
    have before : s.inHand (E.serverOf w) fd = [packet] := by
      rw [inHand_eq rfl alone, here]
      simp [WorkerPoint.chunkFor, WorkerPoint.unposted]
    have after : s'.inHand (E.serverOf w) fd = [] := by
      have apart : ∀ v, v ≠ w → E.serverOf v = E.serverOf w →
          (s'.workers v).point.chunkFor fd = none := by
        intro v different server
        rw [workers, Function.update_of_ne different]
        exact alone v different server
      rw [inHand_eq rfl apart, workers, Function.update_self, WorkerPoint.chunkFor, point]
      rfl
    simp [unhanded, queue, handler, before, after, Event.chunkFor]
  · have hands := inHand_other workers (by simp [here, WorkerPoint.unposted]) (by simp [point]) this
    have notThis : ¬ (E.serverOf w = k ∧ fd = other) := fun same => this (same.1 ▸ same.2 ▸ rfl)
    simp [unhanded, queue, handler, hands, Event.chunkFor, notThis]

private theorem WorkerSteps.inOrder {action : WorkerAction} (steps : WorkerSteps w s action s') (order : s.InOrder)
    (packets : s.PacketsHeld) (once : s.MonitoredOnce) (sets : ∀ v, (s.workers v).SetOk)
    (room : ¬ DropsChunk (.worker w action) s) : s'.InOrder := by
  cases steps with
  | recvData here => exact order.receive packets once sets here rfl rfl rfl rfl rfl rfl rfl
  | postRecv here space => exact order.post once sets here rfl rfl rfl rfl rfl rfl rfl
  | postRecvFull here full =>
      exact absurd ⟨by rw [here]; simp [WorkerPoint.unposted], full⟩ room
  | popNone here => exact order.worker rfl rfl rfl rfl rfl rfl (by rw [here]; rfl)
  | popTask here tasks => exact order.worker rfl rfl rfl rfl rfl rfl (by rw [here]; rfl)
  | quit here stopped => exact order.worker rfl rfl rfl rfl rfl rfl (by rw [here]; rfl)
  | callEnded here missing => exact order.worker rfl rfl rfl rfl rfl rfl (by rw [here]; rfl)
  | callIdle here => exact order.worker rfl rfl rfl rfl rfl rfl (by rw [here]; rfl)
  | callRefused here => exact order.worker rfl rfl rfl rfl rfl rfl (by rw [here]; rfl)
  | callTaken here => exact order.worker rfl rfl rfl rfl rfl rfl (by rw [here]; rfl)
  | ask here => exact order.worker rfl rfl rfl rfl rfl rfl (by rw [here]; rfl)
  | askDead here dead => exact order.worker rfl rfl rfl rfl rfl rfl (by rw [here]; rfl)
  | selectFailed here => exact order.worker rfl rfl rfl rfl rfl rfl (by rw [here]; rfl)
  | select here subset => exact order.worker rfl rfl rfl rfl rfl rfl (by rw [here]; rfl)
  | alloc here free => exact order.worker rfl rfl rfl rfl rfl rfl (by rw [here]; rfl)
  | done here => exact order.worker rfl rfl rfl rfl rfl rfl (by rw [here]; rfl)
  | pushBack here => exact order.worker rfl rfl rfl rfl rfl rfl (by rw [here]; rfl)
  | recvError here => exact order.worker rfl rfl rfl rfl rfl rfl (by rw [here]; rfl)
  | postDisconnect here space =>
      exact order.posted (fun _ _ => rfl) (inHand_same rfl (by rw [here]; rfl)) rfl rfl rfl rfl rfl
  | postDisconnectFull here full => exact order.worker rfl rfl rfl rfl rfl rfl (by rw [here]; rfl)
  | freeRejected here => exact order.worker rfl rfl rfl rfl rfl rfl (by rw [here]; rfl)
  | freeClosing here => exact order.worker rfl rfl rfl rfl rfl rfl (by rw [here]; rfl)

private theorem ReceiverSteps.inOrder {c : Fin E.receivers} {action : ReceiverAction}
    (steps : ReceiverSteps c s action s') (order : s.InOrder) (packets : s.PacketsHeld) : s'.InOrder := by
  cases steps with
  | @recvData packet first more here =>
      refine order.keep rfl rfl (fun _ _ => rfl) fun k fd under member => ?_
      refine Function.update_of_ne ?_ _ _
      rintro rfl
      refine notMem_unhanded packets (p := .receiver c) ?_ (by simp) (by simp) (fun v same => ?_) member
      · simp [packetsAt, here, ReceiverPoint.packets]
      · cases same
  | post here space => exact order.posted (fun _ _ => rfl) (fun _ _ => rfl) rfl rfl rfl rfl rfl
  | alloc here free => exact order.keep rfl rfl (fun _ _ => rfl) fun _ _ _ _ => rfl
  | recvError here => exact order.keep rfl rfl (fun _ _ => rfl) fun _ _ _ _ => rfl
  | postFull here full => exact order.keep rfl rfl (fun _ _ => rfl) fun _ _ _ _ => rfl

theorem InOrder.idle {before : HandlerPoint} (order : s.InOrder) (here : s.handler = before)
    (nothing : ∀ k fd, before.chunkFor k fd = none) (done : ∀ k fd, s'.handler.chunkFor k fd = none)
    (workers : s'.workers = s.workers) (queue : s'.queue = s.queue) (received : s'.received = s.received)
    (handed : s'.handed = s.handed) (data : s'.packetData = s.packetData) : s'.InOrder := by
  refine order.keep received handed (fun k fd => ?_) fun _ _ _ _ => by rw [data]
  have hands : s'.inHand k fd = s.inHand k fd := inHand_congr fun v _ => by rw [workers]
  simp only [unhanded, done, here, nothing, queue, hands]

private theorem HandlerSteps.inOrder {action : HandlerAction} (steps : HandlerSteps s action s')
    (order : s.InOrder) : s'.InOrder := by
  cases steps with
  | @pop event rest here queue =>
      refine order.keep rfl rfl (fun k fd => ?_) fun _ _ _ _ => rfl
      have hands : Traffic.inHand { s with handler := .handling event, queue := rest } k fd = s.inHand k fd :=
        rfl
      simp only [unhanded, hands, queue, here, HandlerPoint.chunkFor, List.filterMap_cons]
      cases event.chunkFor k fd <;> rfl
  | @processServer k packet fd isOpen here =>
      intro j other
      have hands : Traffic.inHand { s with
          handler := .releasing packet
          isOpen
          handed := Function.update s.handed k
            (Function.update (s.handed k) fd (s.handed k fd ++ [s.packetData packet])) } j other =
          s.inHand j other := rfl
      have before := order j other
      simp only [unhanded, here, HandlerPoint.chunkFor, Event.chunkFor] at before
      simp only [unhanded, HandlerPoint.chunkFor, hands, Option.toList_none, List.nil_append]
      rw [before]
      by_cases server : j = k
      · subst server
        by_cases this : other = fd
        · subst this
          simp
        · simp [this, Ne.symm this]
      · simp [server, Ne.symm server]
  | acceptNone here =>
      exact order.idle here (fun _ _ => rfl) (fun _ _ => rfl) rfl rfl rfl rfl rfl
  | accept here alive unused =>
      exact order.idle here (fun _ _ => rfl) (fun _ _ => rfl) rfl rfl rfl rfl rfl
  | addFailed here fails =>
      exact order.idle here (fun _ _ => rfl) (fun _ _ => rfl) rfl rfl rfl rfl rfl
  | replace here present =>
      exact order.idle here (fun _ _ => rfl) (fun _ _ => rfl) rfl rfl rfl rfl rfl
  | add here absent =>
      exact order.idle here (fun _ _ => rfl) (fun _ _ => rfl) rfl rfl rfl rfl rfl
  | addUnbound here alive absent empty =>
      exact order.idle here (fun _ _ => rfl) (fun _ _ => rfl) rfl rfl rfl rfl rfl
  | addCrash here absent =>
      exact order.idle here (fun _ _ => rfl) (fun _ _ => rfl) rfl rfl rfl rfl rfl
  | processClient here =>
      exact order.idle here (fun _ _ => rfl) (fun _ _ => rfl) rfl rfl rfl rfl rfl
  | removeDead here dead =>
      exact order.idle here (fun _ _ => rfl) (fun _ _ => rfl) rfl rfl rfl rfl rfl
  | crash here alive missing =>
      exact order.idle here (fun _ _ => rfl) (fun _ _ => rfl) rfl rfl rfl rfl rfl
  | remove here present =>
      exact order.idle here (fun _ _ => rfl) (fun _ _ => rfl) rfl rfl rfl rfl rfl
  | free here =>
      exact order.idle here (fun _ _ => rfl) (fun _ _ => rfl) rfl rfl rfl rfl rfl

private theorem Steps.inOrder {step : TrafficStep E} (steps : Steps s step s') (order : s.InOrder)
    (packets : s.PacketsHeld) (once : s.MonitoredOnce) (sets : ∀ v, (s.workers v).SetOk) (room : ¬ DropsChunk step s) :
    s'.InOrder := by
  cases steps with
  | worker steps => exact steps.inOrder order packets once sets room
  | receiver steps => exact steps.inOrder order packets
  | handler steps => exact steps.inOrder order
  | listen =>
      by_cases full : s.queue.length = E.eventDbSize
      · rwa [postEvent_full full]
      · rw [postEvent_room full]
        exact order.posted (fun _ _ => rfl) (fun _ _ => rfl) rfl rfl rfl rfl rfl
  | disconnect => exact order.keep rfl rfl (fun _ _ => rfl) fun _ _ _ _ => rfl
  | stop => exact order.keep rfl rfl (fun _ _ => rfl) fun _ _ _ _ => rfl
  | delete => exact order.keep rfl rfl (fun _ _ => rfl) fun _ _ _ _ => rfl

private theorem start_inOrder (packets : Nat) : (start E packets).InOrder := by
  intro k fd
  have nothing : (start E packets).inHand k fd = [] := List.filterMap_eq_nil_iff.mpr fun w _ => by
    simp [start, WorkerPoint.chunkFor, WorkerPoint.unposted]
  have allHanded : (start E packets).unhanded k fd = [] := nothing
  rw [allHanded]
  rfl

/-- In every run in which each socket is monitored by one worker, and no worker finds the
queue full with a chunk in its hands, the chunks handed over are the ones received, in
order, without those under way. -/
theorem chunks_handed {packets : Nat} {steps : List (TrafficStep E)}
    (room : Meets next (fun step s => s.MonitoredOnce ∧ ¬ DropsChunk step s) steps (start E packets))
    (runs : run next steps (start E packets) = some s) (k : Nat) (fd : Socket) :
    s.received k fd = s.handed k fd ++ (s.unhanded k fd).map s.packetData := by
  have invariant : s.InOrder ∧ s.PacketsHeld ∧ ∀ w, (s.workers w).SetOk := by
    refine run_invariant_of_meets (P := fun s => s.InOrder ∧ s.PacketsHeld ∧ ∀ w, (s.workers w).SetOk) ?_
      ⟨start_inOrder packets, start_packetsHeld packets, start_setOk packets⟩ room runs
    rintro step s s' ⟨order, held, sets⟩ ⟨once, kept⟩ step
    have steps := next_cases step
    exact ⟨steps.inOrder order held once sets kept, steps.packetsHeld held, steps.setOk sets⟩
  exact invariant.1 k fd

/-- A client connects, is given to the worker, and sends a chunk. -/
def untilReceived : List (TrafficStep oneServer) :=
  untilFailure.dropLast ++ [.worker only (.recv (.data 5 []))]

theorem chunks_handed_received :
    ∃ s, run next untilReceived (start oneServer 100) = some s ∧ s.received 0 7 = s.handed 0 7 ++ [[5]] := by
  have room : Meets next (fun step s => s.MonitoredOnce ∧ ¬ DropsChunk step s) untilReceived
      (start oneServer 100) := by
    decide
  exact ⟨_, rfl, chunks_handed room rfl 0 7⟩

/-- Where that leaves the worker, and the same with a thousand requests in the queue. -/
def receivedState : Traffic oneServer := (run next untilReceived (start oneServer 100)).get rfl

def receivedFullState : Traffic oneServer :=
  { receivedState with queue := List.replicate 1000 (Event.connectRequest 0) }

/-- Afterwards nobody has the chunk. -/
def droppedState : Traffic oneServer :=
  ((receivedFullState.moveWorker only (.busy none 7 [] 99 .rejected)).freePacketUnit 99).moveWorker only
    (.scanning none [])

private theorem unhanded_droppedState : droppedState.unhanded 0 7 = [] := by
  have requests : (List.replicate 1000 (Event.connectRequest 0)).filterMap (Event.chunkFor 0 7) = [] :=
    List.filterMap_eq_nil_iff.mpr fun event member => by
      rw [List.eq_of_mem_replicate member]
      rfl
  have hands : droppedState.inHand 0 7 = [] := by rfl
  have queue : droppedState.queue = List.replicate 1000 (Event.connectRequest 0) := rfl
  have idle : droppedState.handler = .idle := rfl
  rw [unhanded, queue, requests, hands, idle]
  rfl

/-- The chunk finds the queue full, and is dropped. -/
theorem chunks_dropped :
    ∃ s, run next (untilReceived ++ (List.replicate 1000 (.listen 0) ++ [.worker 0 .post, .worker 0 .free]))
        (start oneServer 100) = some s ∧
      (s.servers 0).clientsTree 7 ≠ none ∧
      s.received 0 7 ≠ s.handed 0 7 ++ (s.unhanded 0 7).map s.packetData := by
  have fills : run next (List.replicate 1000 (.listen 0)) receivedState = some receivedFullState :=
    run_listen 1000 (Nat.le_of_eq rfl) ⟨rfl, rfl⟩
  have fails : next (.worker 0 .post) receivedFullState =
      receivedFullState.workerPosts 0 none 7 [] 99 .received := rfl
  have full : receivedFullState.queue.length = oneServer.eventDbSize := List.length_replicate
  rw [workerPosts, if_pos full] at fails
  have frees : run next [.worker 0 .free]
      (receivedFullState.moveWorker 0 (.busy none 7 [] 99 .rejected)) = some droppedState := rfl
  refine ⟨droppedState, run_append.mpr ⟨receivedState, rfl,
    run_append.mpr ⟨_, fills, run_cons.mpr ⟨_, fails, frees⟩⟩⟩, by decide, ?_⟩
  rw [unhanded_droppedState]
  decide

end Traffic

end GbfLibrary.Enet
