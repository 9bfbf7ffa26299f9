import GbfLibrary.Enet.Places
import GbfLibrary.Enet.TrafficSteps
import GbfLibrary.Systems.Shares

/-!
# The owners of packets

A packet in use has one owner: a receiving thread in the middle of an iteration, an
event in the queue, or the event thread. The receive threads of clients forget
packets; nobody else does.
-/

set_option autoImplicit false

namespace GbfLibrary.Enet

open Systems

/-- How often a thread has a packet. -/
def Worker.has (packet : Nat) (worker : Worker) : Nat :=
  worker.point.packets.count packet

def Receiver.has (packet : Nat) (receiver : Receiver) : Nat :=
  receiver.point.packets.count packet

namespace Traffic

variable {E : Setup} {s s' : Traffic E} {w : Fin E.workers} {c : Fin E.receivers} {packet : Nat}

/-- The free list holds packets that are not in use, each once. -/
structure FreeListOk (freeList : List Nat) (packetState : Nat → Bool) : Prop where
  distinct : freeList.Nodup
  free : ∀ packet ∈ freeList, packetState packet = false

structure PacketsHeld (s : Traffic E) : Prop where
  custody : Custody s.PacketUsed s.packetsAt
  pool : FreeListOk s.freeList s.packetState

/-- A step in which a receive thread forgets its packet. -/
def ForgetsPacket : TrafficStep E → Traffic E → Prop
  | .receiver _ (.recv .error), _ => True
  | .receiver _ .post, s => s.queue.length = E.eventDbSize
  | _, _ => False

instance : (step : TrafficStep E) → (s : Traffic E) → Decidable (ForgetsPacket step s)
  | .receiver _ (.recv .error), _ => .isTrue trivial
  | .receiver _ .post, s => inferInstanceAs (Decidable (s.queue.length = E.eventDbSize))
  | .receiver _ (.recv (.data _ _)), _ | .receiver _ .alloc, _ | .worker _ _, _ | .handler _, _
  | .listen _, _ | .disconnect _ _, _ | .stop _, _ | .delete _, _ => .isFalse id

/-- What a step does with the packets. -/
abbrev PacketTransfer (lost : Prop) (s s' : Traffic E) : Prop :=
  Transfer (fun _ => lost) s.PacketUsed s'.PacketUsed s.packetsAt s'.packetsAt

private theorem keep_worker {lost : Prop} {worker : Worker}
    (workers : s'.workers = Function.update s.workers w worker)
    (receivers : s'.receivers = s.receivers) (handler : s'.handler = s.handler) (queue : s'.queue = s.queue)
    (states : s'.packetState = s.packetState)
    (same : worker.point.packets = (s.workers w).point.packets) : PacketTransfer lost s s' := by
  refine .keep (fun packet => by simp only [PacketUsed, states]) fun p => ?_
  by_cases here : p = .worker w
  · subst here
    simp only [packetsAt, workers, Function.update_self, same]
  · exact packetsAt_worker workers receivers handler here (.inr queue)

/-- A packet that is marked and one that is not are marked differently afterwards. -/
theorem used_update_true (states : s'.packetState = Function.update s.packetState packet true) (other : Nat) :
    s'.PacketUsed other ↔ other = packet ∨ s.PacketUsed other := by
  simp only [PacketUsed, states]
  by_cases same : other = packet
  · simp [same]
  · simp [same]

private theorem used_update_false (states : s'.packetState = Function.update s.packetState packet false)
    (other : Nat) : s'.PacketUsed other ↔ other ≠ packet ∧ s.PacketUsed other := by
  simp only [PacketUsed, states]
  by_cases same : other = packet
  · simp [same]
  · simp [same]

theorem WorkerSteps.packets {action : WorkerAction} {lost : Prop} (steps : WorkerSteps w s action s')
    (held : s.PacketsHeld) : PacketTransfer lost s s' := by
  cases steps with
  | popNone here => exact keep_worker rfl rfl rfl rfl rfl (by rw [here]; rfl)
  | popTask here tasks => exact keep_worker rfl rfl rfl rfl rfl (by rw [here]; rfl)
  | quit here stopped => exact keep_worker rfl rfl rfl rfl rfl (by rw [here]; rfl)
  | callEnded here missing => exact keep_worker rfl rfl rfl rfl rfl (by rw [here]; rfl)
  | callIdle here => exact keep_worker rfl rfl rfl rfl rfl (by rw [here]; rfl)
  | callRefused here => exact keep_worker rfl rfl rfl rfl rfl (by rw [here]; rfl)
  | callTaken here => exact keep_worker rfl rfl rfl rfl rfl (by rw [here]; rfl)
  | ask here => exact keep_worker rfl rfl rfl rfl rfl (by rw [here]; rfl)
  | askDead here dead => exact keep_worker rfl rfl rfl rfl rfl (by rw [here]; rfl)
  | selectFailed here => exact keep_worker rfl rfl rfl rfl rfl (by rw [here]; rfl)
  | select here subset => exact keep_worker rfl rfl rfl rfl rfl (by rw [here]; rfl)
  | done here => exact keep_worker rfl rfl rfl rfl rfl (by rw [here]; rfl)
  | pushBack here => exact keep_worker rfl rfl rfl rfl rfl (by rw [here]; rfl)
  | recvError here => exact keep_worker rfl rfl rfl rfl rfl (by rw [here]; rfl)
  | recvData here => exact keep_worker rfl rfl rfl rfl rfl (by rw [here]; rfl)
  | postDisconnectFull here full => exact keep_worker rfl rfl rfl rfl rfl (by rw [here]; rfl)
  | postRecvFull here full => exact keep_worker rfl rfl rfl rfl rfl (by rw [here]; rfl)
  | @alloc refused fd readSet packet rest here free =>
      have unused : s.packetState packet = false := held.pool.free packet (by simp [free])
      refine .gain (.worker w) packet (by simp [PacketUsed, unused]) (used_update_true rfl) ?_ ?_
      · simp [packetsAt, moveWorker, setWorker, here, WorkerPoint.packets]
      · exact fun p other => packetsAt_worker rfl rfl rfl other (.inr rfl)
  | @postDisconnect refused fd readSet packet object here room =>
      refine .keep (fun _ => Iff.rfl) fun p => ?_
      by_cases atWorker : p = .worker w
      · subst atWorker
        simp [packetsAt, moveWorker, setWorker, here, WorkerPoint.packets]
      · by_cases atQueue : p = .queue
        · subst atQueue
          simp [packetsAt, moveWorker, setWorker, List.filterMap_cons, Event.packet]
        · exact packetsAt_worker rfl rfl rfl atWorker (.inl atQueue)
  | @postRecv refused fd readSet packet here room =>
      refine .hand (.worker w) .queue packet (by simp) (fun _ => Iff.rfl) ?_ ?_ ?_
      · simp [packetsAt, moveWorker, setWorker, here, WorkerPoint.packets]
      · simp only [packetsAt, moveWorker, setWorker, List.filterMap_append]
        exact coe_append_singleton _ packet
      · exact fun p notWorker notQueue => packetsAt_worker rfl rfl rfl notWorker (.inl notQueue)
  | @freeRejected refused fd readSet packet here =>
      refine .lose (.worker w) packet (used_update_false rfl) ?_ ?_
      · simp [packetsAt, freePacketUnit, moveWorker, setWorker, here, WorkerPoint.packets]
      · exact fun p other => packetsAt_worker rfl rfl rfl other (.inr rfl)
  | @freeClosing refused fd readSet packet here =>
      refine .lose (.worker w) packet (used_update_false rfl) ?_ ?_
      · simp [packetsAt, freePacketUnit, setWorker, here, WorkerPoint.packets]
      · exact fun p other => packetsAt_worker rfl rfl rfl other (.inr rfl)

/-- A receive thread forgets its packet if `recv` or the post fails. -/
theorem ReceiverSteps.packets {action : ReceiverAction} (steps : ReceiverSteps c s action s')
    (held : s.PacketsHeld) : PacketTransfer (ForgetsPacket (.receiver c action) s) s s' := by
  cases steps with
  | @alloc packet rest here free =>
      have unused : s.packetState packet = false := held.pool.free packet (by simp [free])
      refine .gain (.receiver c) packet (by simp [PacketUsed, unused]) (used_update_true rfl) ?_ ?_
      · simp [packetsAt, setReceiver, here, ReceiverPoint.packets]
      · exact fun p other => packetsAt_receiver rfl rfl rfl other (.inr rfl)
  | @recvError packet here =>
      refine .leak (.receiver c) (fun _ => Iff.rfl) ?_ (fun _ _ => .inr trivial) ?_
      · simp [packetsAt, setReceiver, here, ReceiverPoint.packets]
      · exact fun p other => packetsAt_receiver rfl rfl rfl other (.inr rfl)
  | @recvData packet first more here =>
      refine .keep (fun _ => Iff.rfl) fun p => ?_
      by_cases atReceiver : p = .receiver c
      · subst atReceiver
        simp [packetsAt, setReceiver, here, ReceiverPoint.packets]
      · exact packetsAt_receiver rfl rfl rfl atReceiver (.inr rfl)
  | @post packet here room =>
      refine .hand (.receiver c) .queue packet (by simp) (fun _ => Iff.rfl) ?_ ?_ ?_
      · simp [packetsAt, setReceiver, here, ReceiverPoint.packets]
      · simp only [packetsAt, setReceiver, List.filterMap_append]
        exact coe_append_singleton _ packet
      · exact fun p notReceiver notQueue => packetsAt_receiver rfl rfl rfl notReceiver (.inl notQueue)
  | @postFull packet here full =>
      refine .leak (.receiver c) (fun _ => Iff.rfl) ?_ (fun _ _ => .inr full) ?_
      · simp [packetsAt, setReceiver, here, ReceiverPoint.packets]
      · exact fun p other => packetsAt_receiver rfl rfl rfl other (.inr rfl)

/-- The event thread goes on with the packet it has. -/
theorem keep_handler {lost : Prop} (workers : s'.workers = s.workers)
    (receivers : s'.receivers = s.receivers) (queue : s'.queue = s.queue)
    (states : s'.packetState = s.packetState) (same : s'.handler.packets = s.handler.packets) :
    PacketTransfer lost s s' := by
  refine .keep (fun packet => by simp only [PacketUsed, states]) fun p => ?_
  by_cases here : p = .handler
  · subst here
    exact same
  · exact packetsAt_handler workers receivers here (.inr queue)

theorem HandlerSteps.packets {action : HandlerAction} {lost : Prop} (steps : HandlerSteps s action s') :
    PacketTransfer lost s s' := by
  cases steps with
  | @pop event rest here queue =>
      cases carries : event.packet with
      | none =>
          refine .keep (fun _ => Iff.rfl) fun p => ?_
          by_cases atHandler : p = .handler
          · subst atHandler
            simp [packetsAt, here, HandlerPoint.packets, carries]
          · by_cases atQueue : p = .queue
            · subst atQueue
              simp [packetsAt, queue, carries]
            · exact packetsAt_handler rfl rfl atHandler (.inl atQueue)
      | some packet =>
          refine .hand .queue .handler packet (by simp) (fun _ => Iff.rfl) ?_ ?_ ?_
          · simp [packetsAt, queue, carries]
          · simp [packetsAt, here, HandlerPoint.packets, carries]
          · exact fun p notQueue notHandler => packetsAt_handler rfl rfl notHandler (.inl notQueue)
  | acceptNone here => exact keep_handler rfl rfl rfl rfl (by rw [here]; rfl)
  | accept here alive unused => exact keep_handler rfl rfl rfl rfl (by rw [here]; rfl)
  | addFailed here fails => exact keep_handler rfl rfl rfl rfl (by rw [here]; rfl)
  | replace here present => exact keep_handler rfl rfl rfl rfl (by rw [here]; rfl)
  | add here absent => exact keep_handler rfl rfl rfl rfl (by rw [here]; rfl)
  | addUnbound here alive absent empty => exact keep_handler rfl rfl rfl rfl (by rw [here]; rfl)
  | addCrash here absent => exact keep_handler rfl rfl rfl rfl (by rw [here]; rfl)
  | processServer isOpen here => exact keep_handler rfl rfl rfl rfl (by rw [here]; rfl)
  | processClient here => exact keep_handler rfl rfl rfl rfl (by rw [here]; rfl)
  | removeDead here dead => exact keep_handler rfl rfl rfl rfl (by rw [here]; rfl)
  | crash here alive missing => exact keep_handler rfl rfl rfl rfl (by rw [here]; rfl)
  | remove here present => exact keep_handler rfl rfl rfl rfl (by rw [here]; rfl)
  | @free packet here =>
      refine .lose .handler packet (used_update_false rfl) ?_ ?_
      · simp [packetsAt, here, HandlerPoint.packets]
      · exact fun p other => packetsAt_handler rfl rfl other (.inr rfl)

private theorem postEvent_packets {lost : Prop} {event : Event} (nothing : event.packet = none) :
    PacketTransfer lost s (s.postEvent event) := by
  unfold postEvent
  split
  · exact .keep (fun _ => Iff.rfl) fun p => rfl
  · refine .keep (fun _ => Iff.rfl) fun p => ?_
    cases p with
    | queue => simp [packetsAt, nothing]
    | worker w => rfl
    | receiver c => rfl
    | tasks k => rfl
    | handler => rfl

theorem Steps.packets {step : TrafficStep E} (steps : Steps s step s') (held : s.PacketsHeld) :
    PacketTransfer (ForgetsPacket step s) s s' := by
  cases steps with
  | worker steps => exact steps.packets held
  | receiver steps => exact steps.packets held
  | handler steps => exact steps.packets
  | listen => exact postEvent_packets rfl
  | disconnect => exact .keep (fun _ => Iff.rfl) fun p => by cases p <;> rfl
  | stop => exact .keep (fun _ => Iff.rfl) fun p => by cases p <;> rfl
  | delete => exact .keep (fun _ => Iff.rfl) fun p => by cases p <;> rfl

theorem FreeListOk.alloc {rest : List Nat} {packetState : Nat → Bool}
    (pool : FreeListOk (packet :: rest) packetState) :
    FreeListOk rest (Function.update packetState packet true) := by
  obtain ⟨notIn, distinct⟩ := List.nodup_cons.mp pool.distinct
  refine ⟨distinct, fun other member => ?_⟩
  have different : other ≠ packet := fun same => notIn (same ▸ member)
  rw [Function.update_of_ne different]
  exact pool.free other (List.mem_cons_of_mem packet member)

private theorem FreeListOk.free_packet {freeList : List Nat} {packetState : Nat → Bool}
    (pool : FreeListOk freeList packetState) (used : packetState packet = true) :
    FreeListOk (packet :: freeList) (Function.update packetState packet false) := by
  have notIn : packet ∉ freeList := fun member => by simp [pool.free packet member] at used
  refine ⟨List.nodup_cons.mpr ⟨notIn, pool.distinct⟩, fun other member => ?_⟩
  by_cases same : other = packet
  · simp [same]
  · rw [Function.update_of_ne same]
    exact pool.free other ((List.mem_cons.mp member).resolve_left same)

/-- Packets are allocated from the free list, and freed by those that have them. -/
theorem Steps.pool {step : TrafficStep E} (steps : Steps s step s') (held : s.PacketsHeld) :
    FreeListOk s'.freeList s'.packetState := by
  have pool := held.pool
  cases steps with
  | @worker w action s' steps =>
      cases steps with
      | alloc here free =>
          rw [free] at pool
          exact pool.alloc
      | @freeRejected refused fd readSet packet here =>
          refine pool.free_packet (held.custody.used (.worker w) packet ?_)
          simp [packetsAt, here, WorkerPoint.packets]
      | @freeClosing refused fd readSet packet here =>
          refine pool.free_packet (held.custody.used (.worker w) packet ?_)
          simp [packetsAt, here, WorkerPoint.packets]
      | _ => exact pool
  | receiver steps =>
      cases steps with
      | alloc here free =>
          rw [free] at pool
          exact pool.alloc
      | _ => exact pool
  | handler steps =>
      cases steps with
      | @free packet here =>
          refine pool.free_packet (held.custody.used .handler packet ?_)
          simp [packetsAt, here, HandlerPoint.packets]
      | _ => exact pool
  | @listen k =>
      unfold postEvent
      split
      · exact pool
      · exact pool
  | disconnect => exact pool
  | stop => exact pool
  | delete => exact pool

theorem Steps.packetsHeld {step : TrafficStep E} (steps : Steps s step s') (held : s.PacketsHeld) :
    s'.PacketsHeld :=
  ⟨(steps.packets held).custody held.custody, steps.pool held⟩

theorem start_packetsHeld (packets : Nat) : (start E packets).PacketsHeld where
  custody := by
    have nowhere : ∀ p, (start E packets).packetsAt p = 0 := by
      intro p
      cases p <;> rfl
    exact ⟨fun p => by simp [nowhere p], fun p q t here => by simp [nowhere p] at here,
      fun p t here => by simp [nowhere p] at here⟩
  pool := ⟨List.nodup_reverse.mpr List.nodup_range, fun _ _ => rfl⟩

/-- In the middle of no iteration of a receiving thread. -/
def BetweenIterations (s : Traffic E) : Prop :=
  (∀ w, (s.workers w).point.packets = 0) ∧ ∀ c, (s.receivers c).point.packets = 0

/-- The number of receiving threads that have a packet in the middle of an
iteration. -/
def inIterations (s : Traffic E) (packet : Nat) : Nat :=
  total (Worker.has packet) s.workers + total (Receiver.has packet) s.receivers

/-- The number of its owners otherwise: the events of the queue that carry it, and
the event thread. -/
def owners (s : Traffic E) (packet : Nat) : Nat :=
  (s.queue.filterMap Event.packet).count packet + s.handler.packets.count packet

private theorem inIterations_of_between (between : s.BetweenIterations) : s.inIterations packet = 0 := by
  have workers : total (Worker.has packet) s.workers = 0 :=
    total_eq_zero.mpr fun w => by simp [Worker.has, between.1 w]
  have receivers : total (Receiver.has packet) s.receivers = 0 :=
    total_eq_zero.mpr fun c => by simp [Receiver.has, between.2 c]
  rw [inIterations, workers, receivers]

private theorem count_places (p : Place E) (others : ∀ q, q ≠ p → (s.packetsAt q).count packet = 0) :
    s.inIterations packet + s.owners packet = (s.packetsAt p).count packet := by
  have atQueue : (s.queue.filterMap Event.packet).count packet = (s.packetsAt .queue).count packet :=
    (Multiset.coe_count packet _).symm
  have atHandler : s.handler.packets = s.packetsAt .handler := rfl
  have workers : (∀ w, Place.worker w ≠ p) → total (Worker.has packet) s.workers = 0 :=
    fun notHere => total_eq_zero.mpr fun w => others (.worker w) (notHere w)
  have receivers : (∀ c, Place.receiver c ≠ p) → total (Receiver.has packet) s.receivers = 0 :=
    fun notHere => total_eq_zero.mpr fun c => others (.receiver c) (notHere c)
  rw [inIterations, owners, atQueue, atHandler]
  cases p with
  | worker w =>
      have one : total (Worker.has packet) s.workers = (s.packetsAt (.worker w)).count packet :=
        total_eq_single w fun v other => others (.worker v) (by simpa using other)
      rw [one, receivers (by simp), others .queue (by simp), others .handler (by simp)]
      rfl
  | receiver c =>
      have one : total (Receiver.has packet) s.receivers = (s.packetsAt (.receiver c)).count packet :=
        total_eq_single c fun d other => others (.receiver d) (by simpa using other)
      rw [workers (by simp), one, others .queue (by simp), others .handler (by simp), Nat.zero_add]
      rfl
  | tasks k =>
      rw [workers (by simp), receivers (by simp), others .queue (by simp), others .handler (by simp)]
      rfl
  | queue =>
      rw [workers (by simp), receivers (by simp), others .handler (by simp)]
      simp
  | handler =>
      rw [workers (by simp), receivers (by simp), others .queue (by simp)]
      simp

/-- Where no packet is forgotten, every packet in use is somewhere. -/
theorem packets_accounted {packets : Nat} {steps : List (TrafficStep E)}
    (remembers : Meets next (fun step s => ¬ ForgetsPacket step s) steps (start E packets))
    (runs : run next steps (start E packets) = some s) :
    s.PacketsHeld ∧ Accounted s.PacketUsed s.packetsAt := by
  refine run_invariant_of_meets (P := fun s => s.PacketsHeld ∧ Accounted s.PacketUsed s.packetsAt) ?_
    ⟨start_packetsHeld packets, fun packet used => by simp [PacketUsed, start] at used⟩ remembers runs
  rintro step s s' ⟨held, accounted⟩ kept step
  have steps := next_cases step
  exact ⟨steps.packetsHeld held,
    fun packet used => (steps.packets held).accounted kept used (accounted packet)⟩

/-- In every run in which no receive thread of a client forgets a packet, each packet
that is marked has one owner, and no other has one. Between iterations the owner is
an event of the queue or the event thread. -/
theorem packets_owned {packets : Nat} {steps : List (TrafficStep E)}
    (remembers : Meets next (fun step s => ¬ ForgetsPacket step s) steps (start E packets))
    (runs : run next steps (start E packets) = some s) (packet : Nat) :
    s.inIterations packet + s.owners packet = (if s.packetState packet = true then 1 else 0) ∧
      (s.BetweenIterations → s.inIterations packet = 0) := by
  refine ⟨?_, inIterations_of_between⟩
  obtain ⟨⟨custody, _⟩, accounted⟩ := packets_accounted remembers runs
  by_cases used : s.packetState packet = true
  · obtain ⟨p, one, others⟩ := custody.existsUnique accounted used
    rw [if_pos used, count_places p others, one]
  · have nowhere : ∀ p, (s.packetsAt p).count packet = 0 := fun p =>
      Multiset.count_eq_zero_of_notMem fun here => used (custody.used p packet here)
    rw [if_neg used, count_places .queue fun q _ => nowhere q, nowhere .queue]

/-- One client with its receive thread. -/
abbrev oneClient : Setup := ⟨0, 1, Fin.elim0, fun _ => 5, 1000, 64⟩

def oneReceive : List (TrafficStep oneClient) :=
  [.receiver only .alloc, .receiver only (.recv (.data 1 [2, 3])), .receiver only .post, .receiver only .alloc,
    .handler .pop]

theorem packets_owned_oneReceive :
    ∃ s, run next oneReceive (start oneClient 100) = some s ∧
      s.inIterations 99 + s.owners 99 = (if s.packetState 99 = true then 1 else 0) ∧
      (s.BetweenIterations → s.inIterations 99 = 0) := by
  have remembers : Meets next (fun step s => ¬ ForgetsPacket step s) oneReceive (start oneClient 100) := by
    decide
  exact ⟨_, rfl, packets_owned remembers rfl 99⟩

/-- The packet of a `recv` that fails has no owner any more. -/
theorem packets_forgotten :
    ∃ s, run next [.receiver 0 .alloc, .receiver 0 (.recv .error)] (start oneClient 100) = some s ∧
      s.BetweenIterations ∧ s.packetState 99 = true ∧ s.owners 99 = 0 := by
  refine ⟨_, rfl, ⟨fun w => w.elim0, ?_⟩, rfl, rfl⟩
  decide

end Traffic

end GbfLibrary.Enet
