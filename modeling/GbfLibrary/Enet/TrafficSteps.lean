import GbfLibrary.Enet.Traffic
import Mathlib.Data.Finset.Card

/-!
# What a step can do

Every way in which a thread of the network library steps, once, for the invariants
to be proved case by case.
-/

set_option autoImplicit false

namespace GbfLibrary.Enet

open Systems

namespace Traffic

variable {E : Setup}

/-- The steps of a worker. -/
inductive WorkerSteps (w : Fin E.workers) (s : Traffic E) : WorkerAction → Traffic E → Prop where
  | popNone (here : (s.workers w).point = .top) :
      WorkerSteps w s .pop (s.moveWorker w (.called none))
  | popTask {fd : Socket} {rest : List Socket} (here : (s.workers w).point = .top)
      (tasks : (s.servers (E.serverOf w)).tasks = fd :: rest) :
      WorkerSteps w s .pop
        ((s.setServer (E.serverOf w) { s.servers (E.serverOf w) with tasks := rest }).moveWorker w
          (.called (some fd)))
  | quit (here : (s.workers w).point = .top) (stopped : (s.servers (E.serverOf w)).stopped = true) :
      WorkerSteps w s .quit (s.moveWorker w .ended)
  | callEnded {task : Option Socket} (here : (s.workers w).point = .called task)
      (missing : (s.workers w).customized = none) :
      WorkerSteps w s (.call false) (s.moveWorker w .ended)
  | callIdle {allocated : Bool} (here : (s.workers w).point = .called none) :
      WorkerSteps w s (.call allocated) (s.setWorker w ⟨some (s.workers w).jobSet, .asking none⟩)
  | callRefused {allocated : Bool} {fd : Socket} (here : (s.workers w).point = .called (some fd)) :
      WorkerSteps w s (.call allocated) (s.setWorker w ⟨some (s.workers w).jobSet, .asking (some fd)⟩)
  | callTaken {allocated : Bool} {fd : Socket} (here : (s.workers w).point = .called (some fd)) :
      WorkerSteps w s (.call allocated)
        (s.setWorker w ⟨some (fdSet fd (s.workers w).jobSet), .asking none⟩)
  | ask {refused : Option Socket} (here : (s.workers w).point = .asking refused) :
      WorkerSteps w s .ask (s.moveWorker w (.selecting refused))
  | askDead {refused : Option Socket} (here : (s.workers w).point = .asking refused)
      (dead : (s.servers (E.serverOf w)).alive = false) :
      WorkerSteps w s .ask (s.moveWorker w .ended)
  | selectFailed {refused : Option Socket} (here : (s.workers w).point = .selecting refused) :
      WorkerSteps w s (.select none) (s.moveWorker w .top)
  | select {refused : Option Socket} {ready : List Socket}
      (here : (s.workers w).point = .selecting refused)
      (subset : ready.Sublist (s.workers w).jobSet) :
      WorkerSteps w s (.select (some ready)) (s.moveWorker w (.scanning refused ready))
  | alloc {refused : Option Socket} {fd : Socket} {readSet : List Socket} {packet : Nat} {rest : List Nat}
      (here : (s.workers w).point = .scanning refused (fd :: readSet))
      (free : s.freeList = packet :: rest) :
      WorkerSteps w s .alloc
        ({ s with
          freeList := rest
          packetState := Function.update s.packetState packet true }.moveWorker w
          (.busy refused fd readSet packet .filling))
  | done (here : (s.workers w).point = .scanning none []) :
      WorkerSteps w s .done (s.moveWorker w .top)
  | pushBack {fd : Socket} (here : (s.workers w).point = .scanning (some fd) []) :
      WorkerSteps w s .done
        ((s.setServer (E.serverOf w)
          { s.servers (E.serverOf w) with tasks := (s.servers (E.serverOf w)).tasks ++ [fd] }).moveWorker w
          .top)
  | recvError {refused : Option Socket} {fd : Socket} {readSet : List Socket} {packet : Nat}
      (here : (s.workers w).point = .busy refused fd readSet packet .filling) :
      WorkerSteps w s (.recv .error)
        (s.moveWorker w (.busy refused fd readSet packet
          (.failed (s.latest fd).2)))
  | recvData {refused : Option Socket} {fd : Socket} {readSet : List Socket} {packet : Nat}
      {first : UInt8} {more : Chunk}
      (here : (s.workers w).point = .busy refused fd readSet packet .filling) :
      WorkerSteps w s (.recv (.data first more))
        ({ s with
          packetData := Function.update s.packetData packet (first :: more)
          received := Function.update s.received (E.serverOf w)
            (Function.update (s.received (E.serverOf w)) fd
              (s.received (E.serverOf w) fd ++ [first :: more])) }.moveWorker w
          (.busy refused fd readSet packet .received))
  | postDisconnect {refused : Option Socket} {fd : Socket} {readSet : List Socket} {packet object : Nat}
      (here : (s.workers w).point = .busy refused fd readSet packet (.failed object))
      (room : s.queue.length ≠ E.eventDbSize) :
      WorkerSteps w s .post
        ({ s with queue := s.queue ++ [Event.serverDisconnect (E.serverOf w) fd object] }.moveWorker w
          (.busy refused fd readSet packet .closing))
  | postDisconnectFull {refused : Option Socket} {fd : Socket} {readSet : List Socket}
      {packet object : Nat}
      (here : (s.workers w).point = .busy refused fd readSet packet (.failed object))
      (full : s.queue.length = E.eventDbSize) :
      WorkerSteps w s .post (s.moveWorker w (.busy refused fd readSet packet .closing))
  | postRecv {refused : Option Socket} {fd : Socket} {readSet : List Socket} {packet : Nat}
      (here : (s.workers w).point = .busy refused fd readSet packet .received)
      (room : s.queue.length ≠ E.eventDbSize) :
      WorkerSteps w s .post
        ({ s with queue := s.queue ++ [Event.serverRecv (E.serverOf w) packet fd] }.moveWorker w
          (.scanning refused readSet))
  | postRecvFull {refused : Option Socket} {fd : Socket} {readSet : List Socket} {packet : Nat}
      (here : (s.workers w).point = .busy refused fd readSet packet .received)
      (full : s.queue.length = E.eventDbSize) :
      WorkerSteps w s .post (s.moveWorker w (.busy refused fd readSet packet .rejected))
  | freeRejected {refused : Option Socket} {fd : Socket} {readSet : List Socket} {packet : Nat}
      (here : (s.workers w).point = .busy refused fd readSet packet .rejected) :
      WorkerSteps w s .free ((s.freePacketUnit packet).moveWorker w (.scanning refused readSet))
  | freeClosing {refused : Option Socket} {fd : Socket} {readSet : List Socket} {packet : Nat}
      (here : (s.workers w).point = .busy refused fd readSet packet .closing) :
      WorkerSteps w s .free
        ((s.freePacketUnit packet).setWorker w
          ⟨some ((s.workers w).jobSet.erase fd), .scanning refused readSet⟩)

/-- The steps of a receive thread. -/
inductive ReceiverSteps (c : Fin E.receivers) (s : Traffic E) : ReceiverAction → Traffic E → Prop where
  | alloc {packet : Nat} {rest : List Nat} (here : (s.receivers c).point = .top)
      (free : s.freeList = packet :: rest) :
      ReceiverSteps c s .alloc
        ({ s with
          freeList := rest
          packetState := Function.update s.packetState packet true }.setReceiver c
          { s.receivers c with point := .filling packet })
  | recvError {packet : Nat} (here : (s.receivers c).point = .filling packet) :
      ReceiverSteps c s (.recv .error) (s.setReceiver c ⟨(s.receivers c).endurance - 1, .top⟩)
  | recvData {packet : Nat} {first : UInt8} {more : Chunk}
      (here : (s.receivers c).point = .filling packet) :
      ReceiverSteps c s (.recv (.data first more))
        ({ s with packetData := Function.update s.packetData packet (first :: more) }.setReceiver c
          { s.receivers c with point := .received packet })
  | post {packet : Nat} (here : (s.receivers c).point = .received packet)
      (room : s.queue.length ≠ E.eventDbSize) :
      ReceiverSteps c s .post
        ({ s with queue := s.queue ++ [Event.clientRecv (E.clientOf c) packet] }.setReceiver c
          { s.receivers c with point := .top })
  | postFull {packet : Nat} (here : (s.receivers c).point = .received packet)
      (full : s.queue.length = E.eventDbSize) :
      ReceiverSteps c s .post (s.setReceiver c { s.receivers c with point := .top })

/-- The steps of the event thread. -/
inductive HandlerSteps (s : Traffic E) : HandlerAction → Traffic E → Prop where
  | pop {event : Event} {rest : List Event} (here : s.handler = .idle) (queue : s.queue = event :: rest) :
      HandlerSteps s .pop { s with handler := .handling event, queue := rest }
  | acceptNone {k : Nat} {socket : Option Socket} (here : s.handler = .handling (.connectRequest k)) :
      HandlerSteps s (.accept socket) { s with handler := .idle }
  | accept {k : Nat} {fd : Socket} (here : s.handler = .handling (.connectRequest k))
      (alive : (s.servers k).alive = true) (unused : s.isOpen fd = false) :
      HandlerSteps s (.accept (some fd))
        { s with
          handler := .adding k fd (s.objects + 1)
          isOpen := Function.update s.isOpen fd true
          latest := Function.update s.latest fd (k, s.objects + 1)
          objects := s.objects + 1 }
  | addFailed {k object : Nat} {fd : Socket} {inserted delivered : Bool}
      (here : s.handler = .adding k fd object)
      (fails : (s.servers k).alive = false ∨
        (s.servers k).clientsTree fd = none ∧ (delivered = true → (s.servers k).nodes ≠ 0)) :
      HandlerSteps s (.add inserted delivered) ({ s with handler := .idle }.closesocket fd)
  | replace {k object : Nat} {fd : Socket} {inserted delivered : Bool}
      (here : s.handler = .adding k fd object)
      (present : (s.servers k).clientsTree fd ≠ none) :
      HandlerSteps s (.add inserted delivered)
        ({ s with handler := .idle }.setServer k
          { s.servers k with
            clientsTree := Function.update (s.servers k).clientsTree fd (some object) })
  | add {k object : Nat} {fd : Socket} (here : s.handler = .adding k fd object)
      (absent : (s.servers k).clientsTree fd = none) :
      HandlerSteps s (.add true true)
        ({ s with handler := .idle }.setServer k
          { s.servers k with
            clientsTree := Function.update (s.servers k).clientsTree fd (some object)
            nodes := (s.servers k).nodes + 1
            tasks := (s.servers k).tasks ++ [fd] })
  | addUnbound {k object : Nat} {fd : Socket} (here : s.handler = .adding k fd object)
      (alive : (s.servers k).alive = true) (absent : (s.servers k).clientsTree fd = none)
      (empty : (s.servers k).nodes = 0) :
      HandlerSteps s (.add false true)
        ({ s with handler := .idle }.setServer k
          { s.servers k with tasks := (s.servers k).tasks ++ [fd] })
  | addCrash {k object : Nat} {fd : Socket} (here : s.handler = .adding k fd object)
      (absent : (s.servers k).clientsTree fd = none) :
      HandlerSteps s (.add true false) { s.closesocket fd with handler := .crashed }
  | processServer {k packet : Nat} {fd : Socket} (isOpen : Socket → Bool)
      (here : s.handler = .handling (.serverRecv k packet fd)) :
      HandlerSteps s .process
        { s with
          handler := .releasing packet
          isOpen
          handed := Function.update s.handed k
            (Function.update (s.handed k) fd (s.handed k fd ++ [s.packetData packet])) }
  | processClient {client packet : Nat} (here : s.handler = .handling (.clientRecv client packet)) :
      HandlerSteps s .process { s with handler := .releasing packet }
  | removeDead {k object : Nat} {fd : Socket}
      (here : s.handler = .handling (.serverDisconnect k fd object))
      (dead : (s.servers k).alive = false) :
      HandlerSteps s .remove { s with handler := .idle }
  | crash {k object : Nat} {fd : Socket}
      (here : s.handler = .handling (.serverDisconnect k fd object))
      (alive : (s.servers k).alive = true) (missing : (s.servers k).clientsTree fd = none) :
      HandlerSteps s .remove { s with handler := .crashed }
  | remove {k object : Nat} {fd : Socket}
      (here : s.handler = .handling (.serverDisconnect k fd object))
      (present : (s.servers k).clientsTree fd ≠ none) :
      HandlerSteps s .remove
        (({ s with handler := .idle }.closesocket fd).setServer k
          { s.servers k with
            clientsTree := Function.update (s.servers k).clientsTree fd none
            nodes := (s.servers k).nodes - 1 })
  | free {packet : Nat} (here : s.handler = .releasing packet) :
      HandlerSteps s .free { s.freePacketUnit packet with handler := .idle }

/-- The steps of a thread, of a listener and of the user. -/
inductive Steps (s : Traffic E) : TrafficStep E → Traffic E → Prop where
  | worker {w : Fin E.workers} {action : WorkerAction} {s' : Traffic E}
      (steps : WorkerSteps w s action s') : Steps s (.worker w action) s'
  | receiver {c : Fin E.receivers} {action : ReceiverAction} {s' : Traffic E}
      (steps : ReceiverSteps c s action s') : Steps s (.receiver c action) s'
  | handler {action : HandlerAction} {s' : Traffic E}
      (steps : HandlerSteps s action s') : Steps s (.handler action) s'
  | listen {k : Nat} : Steps s (.listen k) (s.postEvent (.connectRequest k))
  | disconnect {k : Nat} {fd : Socket} : Steps s (.disconnect k fd) (s.closesocket fd)
  | stop {k : Nat} : Steps s (.stop k) (s.setServer k { s.servers k with stopped := true })
  | delete {k : Nat} :
      Steps s (.delete k) (s.setServer k { s.servers k with alive := false, stopped := true })

private theorem allocPacketUnit_eq_some {s s' : Traffic E} {packet : Nat}
    (allocates : s.allocPacketUnit = some (packet, s')) :
    ∃ rest, s.freeList = packet :: rest ∧
      s' = { s with freeList := rest, packetState := Function.update s.packetState packet true } := by
  unfold allocPacketUnit at allocates
  split at allocates
  · cases allocates
  · next first rest free =>
    cases allocates
    exact ⟨rest, free, rfl⟩

theorem postEvent_full {s : Traffic E} {event : Event} (full : s.queue.length = E.eventDbSize) :
    s.postEvent event = s := if_pos full

theorem postEvent_room {s : Traffic E} {event : Event} (room : s.queue.length ≠ E.eventDbSize) :
    s.postEvent event = { s with queue := s.queue ++ [event] } := if_neg room

private theorem workerStep_cases {w : Fin E.workers} {s s' : Traffic E} {action : WorkerAction}
    (step : s.workerStep w action (s.workers w).point = some s') : WorkerSteps w s action s' := by
  unfold workerStep at step
  split at step
  · next here =>
    simp only at step
    split at step
    · cases step
      exact .popNone here
    · next tasks =>
      cases step
      exact .popTask here tasks
  · next here =>
    split at step
    · next stopped =>
      cases step
      exact .quit here stopped
    · cases step
  · next allocated task here =>
    cases step
    unfold callWorker
    split
    · next missing =>
      obtain ⟨noTask, rfl⟩ := missing
      exact .callEnded here noTask
    · cases task with
      | none => exact .callIdle here
      | some fd =>
          simp only
          split
          · exact .callRefused here
          · exact .callTaken here
  · next refused here =>
    split at step
    · cases step
      exact .ask here
    · next dead =>
      cases step
      exact .askDead here (by simpa using dead)
  · next refused here =>
    cases step
    exact .selectFailed here
  · next ready refused here =>
    split at step
    · next subset =>
      cases step
      exact .select here subset
    · cases step
  · next refused fd readSet here =>
    split at step
    · cases step
    · next allocated allocates =>
      obtain ⟨rest, free, after⟩ := allocPacketUnit_eq_some allocates
      cases step
      rw [after]
      exact .alloc here free
  · next here =>
    cases step
    exact .done here
  · next fd here =>
    cases step
    exact .pushBack here
  · next result refused fd readSet packet here =>
    cases step
    cases result with
    | error => exact .recvError here
    | data first more => exact .recvData here
  · next refused fd readSet packet stage here =>
    cases stage with
    | failed object =>
        cases step
        by_cases full : s.queue.length = E.eventDbSize
        · rw [postEvent_full full]
          exact .postDisconnectFull here full
        · rw [postEvent_room full]
          exact .postDisconnect here full
    | received =>
        simp only [workerPosts] at step
        split at step
        · next full =>
          cases step
          exact .postRecvFull here full
        · next room =>
          cases step
          rw [postEvent_room room]
          exact .postRecv here room
    | filling => cases step
    | rejected => cases step
    | closing => cases step
  · next refused fd readSet packet stage here =>
    cases stage with
    | rejected =>
        cases step
        exact .freeRejected here
    | closing =>
        cases step
        exact .freeClosing here
    | filling => cases step
    | failed object => cases step
    | received => cases step
  · cases step

private theorem receiverStep_cases {c : Fin E.receivers} {s s' : Traffic E} {action : ReceiverAction}
    (step : s.receiverStep c action (s.receivers c).point = some s') : ReceiverSteps c s action s' := by
  unfold receiverStep at step
  split at step
  · next here =>
    split at step
    · split at step
      · cases step
      · next allocated allocates =>
        obtain ⟨rest, free, after⟩ := allocPacketUnit_eq_some allocates
        cases step
        rw [after]
        exact .alloc here free
    · cases step
  · next packet here =>
    cases step
    exact .recvError here
  · next first more packet here =>
    cases step
    exact .recvData here
  · next packet here =>
    cases step
    by_cases full : s.queue.length = E.eventDbSize
    · rw [postEvent_full full]
      exact .postFull here full
    · rw [postEvent_room full]
      exact .post here full
  · cases step

private theorem addClientToServer_steps {s : Traffic E} {k object : Nat} {fd : Socket} {inserted delivered : Bool}
    (here : s.handler = .adding k fd object) :
    HandlerSteps s (.add inserted delivered) (s.addClientToServer k fd object inserted delivered) := by
  simp only [addClientToServer]
  by_cases dead : (s.servers k).alive = false
  · rw [if_pos dead]
    exact .addFailed here (.inl dead)
  · rw [if_neg dead]
    by_cases present : (s.servers k).clientsTree fd ≠ none
    · rw [if_pos present]
      exact .replace here present
    · rw [if_neg present]
      have absent : (s.servers k).clientsTree fd = none := not_not.mp present
      cases inserted with
      | true =>
          cases delivered with
          | true => exact .add here absent
          | false => exact .addCrash here absent
      | false =>
          simp only [Bool.false_eq_true, if_false]
          split
          · next unbound =>
            obtain ⟨empty, rfl⟩ := unbound
            exact .addUnbound here (by simpa using dead) absent empty
          · next bound => exact .addFailed here (.inr ⟨absent, fun delivers empty => bound ⟨empty, delivers⟩⟩)

private theorem handlerStep_cases {s s' : Traffic E} {action : HandlerAction}
    (step : s.handlerStep action s.handler = some s') : HandlerSteps s action s' := by
  unfold handlerStep at step
  split at step
  · next here =>
    split at step
    · cases step
    · next event rest queue =>
      cases step
      exact .pop here queue
  · next socket k here =>
    cases socket with
    | none =>
        cases step
        exact .acceptNone here
    | some fd =>
        simp only [Traffic.accept] at step
        split at step
        · cases step
          exact .acceptNone here
        · next dead =>
          split at step
          · next unused =>
            cases step
            exact .accept here (by simpa using dead) unused.2
          · cases step
  · next inserted delivered k fd object here =>
    cases step
    exact addClientToServer_steps here
  · next k packet fd here =>
    cases step
    simp only [processRecv]
    split
    · exact .processServer _ here
    · exact .processServer s.isOpen here
  · next client packet here =>
    cases step
    exact .processClient here
  · next k fd object here =>
    cases step
    simp only [removeClient]
    split
    · next dead => exact .removeDead here dead
    · next alive =>
      split
      · next missing => exact .crash here (by simpa using alive) missing
      · next present => exact .remove here present
  · next packet here =>
    cases step
    exact .free here
  · cases step

theorem next_cases {s s' : Traffic E} {step : TrafficStep E} (steps : next step s = some s') :
    Steps s step s' := by
  cases step with
  | worker w action => exact .worker (workerStep_cases steps)
  | receiver c action => exact .receiver (receiverStep_cases steps)
  | handler action => exact .handler (handlerStep_cases steps)
  | listen k =>
      simp only [next] at steps
      split at steps
      · cases steps
        exact .listen
      · cases steps
  | disconnect k fd =>
      simp only [next] at steps
      split at steps
      · cases steps
        exact .disconnect
      · cases steps
  | stop k =>
      cases steps
      exact .stop
  | delete k =>
      cases steps
      exact .delete

end Traffic

/-!
## The trees of the servers
-/

/-- The entries of a server's tree are as many as its nodes. -/
def Server.Counted (server : Server) : Prop :=
  ∃ keys : Finset Socket, keys.card = server.nodes ∧ ∀ fd, fd ∈ keys ↔ server.clientsTree fd ≠ none

theorem Server.Counted.insert {server server' : Server} {fd : Socket} {object : Nat} (counted : Server.Counted server)
    (absent : server.clientsTree fd = none) (nodes : server'.nodes = server.nodes + 1)
    (tree : server'.clientsTree = Function.update server.clientsTree fd (some object)) : Server.Counted server' := by
  obtain ⟨keys, card, member⟩ := counted
  have fresh : fd ∉ keys := fun here => (member fd).mp here absent
  refine ⟨keys.cons fd fresh, by rw [Finset.card_cons, card, nodes], fun other => ?_⟩
  rw [Finset.mem_cons, member, tree]
  by_cases same : other = fd
  · simp [same]
  · simp [same]

theorem Server.Counted.replace {server server' : Server} {fd : Socket} {object : Nat} (counted : Server.Counted server)
    (present : server.clientsTree fd ≠ none) (nodes : server'.nodes = server.nodes)
    (tree : server'.clientsTree = Function.update server.clientsTree fd (some object)) : Server.Counted server' := by
  obtain ⟨keys, card, member⟩ := counted
  refine ⟨keys, card.trans nodes.symm, fun other => ?_⟩
  rw [member, tree]
  by_cases same : other = fd
  · simp [same, present]
  · simp [same]

theorem Server.Counted.erase {server server' : Server} {fd : Socket} (counted : Server.Counted server)
    (present : server.clientsTree fd ≠ none) (nodes : server'.nodes = server.nodes - 1)
    (tree : server'.clientsTree = Function.update server.clientsTree fd none) : Server.Counted server' := by
  obtain ⟨keys, card, member⟩ := counted
  refine ⟨keys.erase fd, by rw [Finset.card_erase_of_mem ((member fd).mpr present), card, nodes], fun other => ?_⟩
  rw [Finset.mem_erase, member, tree]
  by_cases same : other = fd
  · simp [same]
  · simp [same]

namespace Traffic

variable {E : Setup}

private theorem counted_setServer {s : Traffic E} {k : Nat} {server : Server} (counted : ∀ j, (s.servers j).Counted)
    (after : server.Counted) (j : Nat) : (Function.update s.servers k server j).Counted := by
  by_cases same : j = k
  · simpa [same] using after
  · simpa [same] using counted j

theorem Steps.counted {s s' : Traffic E} {step : TrafficStep E} (steps : Steps s step s')
    (counted : ∀ j, (s.servers j).Counted) : ∀ j, (s'.servers j).Counted := by
  cases steps with
  | worker steps =>
      cases steps with
      | popTask here tasks => exact counted_setServer counted (counted _)
      | pushBack here => exact counted_setServer counted (counted _)
      | _ => exact counted
  | receiver steps => cases steps <;> exact counted
  | handler steps =>
      cases steps with
      | add here absent => exact counted_setServer counted ((counted _).insert absent rfl rfl)
      | replace here present => exact counted_setServer counted ((counted _).replace present rfl rfl)
      | remove here present => exact counted_setServer counted ((counted _).erase present rfl rfl)
      | addUnbound here alive absent empty => exact counted_setServer counted (counted _)
      | _ => exact counted
  | listen =>
      unfold postEvent
      split <;> exact counted
  | disconnect => exact counted
  | stop => exact counted_setServer counted (counted _)
  | delete => exact counted_setServer counted (counted _)

/-- In every run a tree without nodes is one without clients. -/
theorem nodes_eq_zero_iff {packets : Nat} {steps : List (TrafficStep E)} {s : Traffic E}
    (runs : run next steps (start E packets) = some s) (k : Nat) :
    (s.servers k).nodes = 0 ↔ ∀ fd, (s.servers k).clientsTree fd = none := by
  have counted : ∀ j, (s.servers j).Counted := by
    refine run_invariant (P := fun s => ∀ j, (s.servers j).Counted) ?_ ?_ runs
    · exact fun step s s' counted steps => (next_cases steps).counted counted
    · exact fun j => ⟨∅, rfl, by simp [start]⟩
  obtain ⟨keys, card, member⟩ := counted k
  rw [← card, Finset.card_eq_zero, Finset.eq_empty_iff_forall_notMem]
  exact forall_congr' fun fd => (not_congr (member fd)).trans not_not

end Traffic

end GbfLibrary.Enet
