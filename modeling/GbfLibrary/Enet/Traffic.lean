import GbfLibrary.Systems.Run
import Mathlib.Data.Fintype.Basic

/-!
# Sockets, packets and events

The threads of the network library between the sockets and the user's callbacks:
the workers of the servers (`server_worker_thread` in the loop of
`worker_thread`), the receive threads of the clients (`tcp_client_recv_thread`)
and the event thread (`enet_event_handler`). They share the packet pool and the
event queue. What is done under one lock is one step; a label carries what the
operating system answers.
-/

set_option autoImplicit false

namespace GbfLibrary.Enet

open Systems

/-- `SOCKET`. -/
abbrev Socket := Nat

/-- What one `recv` returned. -/
abbrev Chunk := List UInt8

/-- `ENET_EVENT_INFO` by its id. A server or client is its handle; a packet is its
index. `object` is not in the program: it tells for which connection the event is
posted, by the number of the client object that was made for it. -/
inductive Event where
  | connectRequest (server : Nat)
  | serverRecv (server : Nat) (packet : Nat) (fd : Socket)
  | serverDisconnect (server : Nat) (fd : Socket) (object : Nat)
  | clientRecv (client : Nat) (packet : Nat)
  deriving DecidableEq, Repr

/-- `ENET_TCP_SERVER`. The tree is the map that a red-black tree is, and the number of
its nodes; the queue of tasks is the one of the worker pool. -/
structure Server where
  alive : Bool
  /-- `enet_stop_tcp_server` was called. -/
  stopped : Bool
  clientsTree : Socket → Option Nat
  nodes : Nat
  tasks : List Socket

/-- What a worker does with the packet it allocated. -/
inductive PacketStage where
  /-- Before `enet_tcp_socket_recv`. -/
  | filling
  /-- The socket failed; before the disconnect event is posted. -/
  | failed (object : Nat)
  /-- Before the event with the packet is posted. -/
  | received
  /-- The event was not posted; before the packet is freed. -/
  | rejected
  /-- Before the packet is freed and the descriptor is taken out of the set. -/
  | closing
  deriving DecidableEq, Repr

/-- How far a worker is. `refused` is the task for which there is no room. -/
inductive WorkerPoint where
  /-- Before `thp_pop_task`. -/
  | top
  | called (task : Option Socket)
  /-- Before `enet_get_tcp_server_attr`. -/
  | asking (refused : Option Socket)
  /-- Before `select`. -/
  | selecting (refused : Option Socket)
  | scanning (refused : Option Socket) (readSet : List Socket)
  | busy (refused : Option Socket) (fd : Socket) (readSet : List Socket) (packet : Nat)
      (stage : PacketStage)
  | ended
  deriving DecidableEq, Repr

/-- `customized` is the worker's `FD_SET`. -/
structure Worker where
  customized : Option (List Socket)
  point : WorkerPoint
  deriving DecidableEq, Repr

/-- The set, which is empty when it is made. -/
def Worker.jobSet (worker : Worker) : List Socket := worker.customized.getD []

/-- How far `tcp_client_recv_thread` is. -/
inductive ReceiverPoint where
  | top
  | filling (packet : Nat)
  | received (packet : Nat)
  deriving DecidableEq, Repr

structure Receiver where
  endurance : Nat
  point : ReceiverPoint
  deriving DecidableEq, Repr

/-- How far `enet_event_handler` is. -/
inductive HandlerPoint where
  /-- Before `enet_pop_event`. -/
  | idle
  | handling (event : Event)
  /-- `accept` returned a socket; before `enet_add_client_to_server`. -/
  | adding (server : Nat) (fd : Socket) (object : Nat)
  /-- Before `enet_free_packet_unit`. -/
  | releasing (packet : Nat)
  /-- A null client was copied, or a client deleted that was deleted before. -/
  | crashed
  deriving DecidableEq, Repr

/-- The workers and receive threads there are, which server and client they belong
to, and the sizes of the event queue and of a set of sockets. -/
structure Setup where
  workers : Nat
  receivers : Nat
  serverOf : Fin workers → Nat
  clientOf : Fin receivers → Nat
  eventDbSize : Nat
  fdSetSize : Nat

variable (E : Setup)

/-- Everything the threads share and are doing. `latest`, `received` and `handed` are
not in the program: which server accepted a descriptor last and which object it made,
what `recv` returned for a server's descriptor, and what was handed to
`enet_tcp_server_process_recv`. -/
structure Traffic where
  servers : Nat → Server
  workers : Fin E.workers → Worker
  receivers : Fin E.receivers → Receiver
  queue : List Event
  handler : HandlerPoint
  /-- `__packet_free_list` from the iterator down. -/
  freeList : List Nat
  packetState : Nat → Bool
  packetData : Nat → Chunk
  /-- The sockets of clients that are open. A descriptor is one of the process. -/
  isOpen : Socket → Bool
  latest : Socket → Nat × Nat
  /-- The number of client objects made so far. -/
  objects : Nat
  received : Nat → Socket → List Chunk
  handed : Nat → Socket → List Chunk

/-- What `recv` returns; a connection that was closed is an error. -/
inductive RecvResult where
  | error
  | data (first : UInt8) (more : Chunk)
  deriving DecidableEq, Repr

inductive WorkerAction where
  | pop
  /-- `calloc` of the set succeeds, where it is called. -/
  | call (allocated : Bool)
  | ask
  /-- `none` is -1. -/
  | select (ready : Option (List Socket))
  | alloc
  | recv (result : RecvResult)
  | post
  | free
  | done
  | quit
  deriving DecidableEq, Repr

inductive ReceiverAction where
  | alloc
  | recv (result : RecvResult)
  | post
  deriving DecidableEq, Repr

inductive HandlerAction where
  | pop
  /-- `none` if no memory, no request or no socket is there. -/
  | accept (socket : Option Socket)
  /-- A new node and the task get memory. -/
  | add (inserted delivered : Bool)
  | process
  | remove
  | free
  deriving DecidableEq, Repr

inductive TrafficStep where
  | worker (w : Fin E.workers) (action : WorkerAction)
  | receiver (c : Fin E.receivers) (action : ReceiverAction)
  | handler (action : HandlerAction)
  /-- `server_listen_thread`. -/
  | listen (server : Nat)
  /-- `enet_disconnect_client_from_tcp_server`. -/
  | disconnect (server : Nat) (fd : Socket)
  /-- `enet_stop_tcp_server` and `enet_delete_tcp_server`. -/
  | stop (server : Nat)
  | delete (server : Nat)
  deriving DecidableEq

namespace Traffic

variable {E}

def setServer (k : Nat) (server : Server) (s : Traffic E) : Traffic E :=
  { s with servers := Function.update s.servers k server }

def setWorker (w : Fin E.workers) (worker : Worker) (s : Traffic E) : Traffic E :=
  { s with workers := Function.update s.workers w worker }

def setReceiver (c : Fin E.receivers) (receiver : Receiver) (s : Traffic E) : Traffic E :=
  { s with receivers := Function.update s.receivers c receiver }

/-- A worker goes on at another point with the same set. -/
def moveWorker (w : Fin E.workers) (point : WorkerPoint) (s : Traffic E) : Traffic E :=
  s.setWorker w { s.workers w with point }

/-- `enet_post_event`, which does nothing when the queue is full. -/
def postEvent (event : Event) (s : Traffic E) : Traffic E :=
  if s.queue.length = E.eventDbSize then s else { s with queue := s.queue ++ [event] }

/-- `enet_alloc_packet_unit`; a thread that gets no packet tries again. -/
def allocPacketUnit (s : Traffic E) : Option (Nat × Traffic E) :=
  match s.freeList with
  | [] => none
  | packet :: rest => some (packet,
      { s with freeList := rest, packetState := Function.update s.packetState packet true })

/-- `enet_free_packet_unit`. -/
def freePacketUnit (packet : Nat) (s : Traffic E) : Traffic E :=
  { s with
    freeList := packet :: s.freeList
    packetState := Function.update s.packetState packet false }

def closesocket (fd : Socket) (s : Traffic E) : Traffic E :=
  { s with isOpen := Function.update s.isOpen fd false }

/-- `FD_SET`. -/
def fdSet (fd : Socket) (set : List Socket) : List Socket := if fd ∈ set then set else set ++ [fd]

/-- The beginning of `server_worker_thread`: the set is made, and the task taken or
refused. -/
def callWorker (w : Fin E.workers) (allocated : Bool) (task : Option Socket) (s : Traffic E) :
    Traffic E :=
  if (s.workers w).customized = none ∧ allocated = false then s.moveWorker w .ended
  else
    let jobSet := (s.workers w).jobSet
    match task with
    | none => s.setWorker w ⟨some jobSet, .asking none⟩
    | some fd =>
        if E.fdSetSize ≤ jobSet.length then s.setWorker w ⟨some jobSet, .asking (some fd)⟩
        else s.setWorker w ⟨some (fdSet fd jobSet), .asking none⟩

/-- What follows `enet_tcp_socket_recv` in a worker. -/
def workerReceived (w : Fin E.workers) (refused : Option Socket) (fd : Socket) (readSet : List Socket)
    (packet : Nat) (s : Traffic E) : RecvResult → Traffic E
  | .error =>
      s.moveWorker w (.busy refused fd readSet packet (.failed (s.latest fd).2))
  | .data first more =>
      let k := E.serverOf w
      let chunk := first :: more
      { s with
        packetData := Function.update s.packetData packet chunk
        received := Function.update s.received k
          (Function.update (s.received k) fd (s.received k fd ++ [chunk])) }.moveWorker w
        (.busy refused fd readSet packet .received)

/-- Posting in a worker: a disconnect event is posted or not, and a packet that
could not be posted is freed next. -/
def workerPosts (w : Fin E.workers) (refused : Option Socket) (fd : Socket) (readSet : List Socket)
    (packet : Nat) (s : Traffic E) : PacketStage → Option (Traffic E)
  | .failed object =>
      some ((s.postEvent (.serverDisconnect (E.serverOf w) fd object)).moveWorker w
        (.busy refused fd readSet packet .closing))
  | .received =>
      if s.queue.length = E.eventDbSize then
        some (s.moveWorker w (.busy refused fd readSet packet .rejected))
      else
        some ((s.postEvent (.serverRecv (E.serverOf w) packet fd)).moveWorker w (.scanning refused readSet))
  | _ => none

/-- The end of an iteration of the loop over the sockets in which a packet is
freed. -/
def workerFrees (w : Fin E.workers) (refused : Option Socket) (fd : Socket) (readSet : List Socket)
    (packet : Nat) (s : Traffic E) : PacketStage → Option (Traffic E)
  | .rejected => some ((s.freePacketUnit packet).moveWorker w (.scanning refused readSet))
  | .closing =>
      some ((s.freePacketUnit packet).setWorker w
        ⟨some ((s.workers w).jobSet.erase fd), .scanning refused readSet⟩)
  | _ => none

/-- One step of a worker. -/
def workerStep (w : Fin E.workers) (s : Traffic E) : WorkerAction → WorkerPoint → Option (Traffic E)
  | .pop, .top =>
      let server := s.servers (E.serverOf w)
      match server.tasks with
      | [] => some (s.moveWorker w (.called none))
      | fd :: rest =>
          some ((s.setServer (E.serverOf w) { server with tasks := rest }).moveWorker w (.called (some fd)))
  | .quit, .top => if (s.servers (E.serverOf w)).stopped then some (s.moveWorker w .ended) else none
  | .call allocated, .called task => some (s.callWorker w allocated task)
  | .ask, .asking refused =>
      if (s.servers (E.serverOf w)).alive then some (s.moveWorker w (.selecting refused))
      else some (s.moveWorker w .ended)
  | .select none, .selecting _ => some (s.moveWorker w .top)
  | .select (some ready), .selecting refused =>
      if ready.Sublist (s.workers w).jobSet then
        some (s.moveWorker w (.scanning refused ready))
      else none
  | .alloc, .scanning refused (fd :: readSet) =>
      match s.allocPacketUnit with
      | none => none
      | some allocated =>
          some (allocated.2.moveWorker w (.busy refused fd readSet allocated.1 .filling))
  | .done, .scanning none [] => some (s.moveWorker w .top)
  | .done, .scanning (some fd) [] =>
      let server := s.servers (E.serverOf w)
      some ((s.setServer (E.serverOf w) { server with tasks := server.tasks ++ [fd] }).moveWorker w .top)
  | .recv result, .busy refused fd readSet packet .filling =>
      some (s.workerReceived w refused fd readSet packet result)
  | .post, .busy refused fd readSet packet stage => s.workerPosts w refused fd readSet packet stage
  | .free, .busy refused fd readSet packet stage => s.workerFrees w refused fd readSet packet stage
  | _, _ => none

/-- One step of `tcp_client_recv_thread`. The packet of a failed `recv` and of a
post that fails is forgotten. -/
def receiverStep (c : Fin E.receivers) (s : Traffic E) : ReceiverAction → ReceiverPoint → Option (Traffic E)
  | .alloc, .top =>
      if 0 < (s.receivers c).endurance then
        match s.allocPacketUnit with
        | none => none
        | some allocated =>
            some (allocated.2.setReceiver c { s.receivers c with point := .filling allocated.1 })
      else none
  | .recv .error, .filling _ =>
      some (s.setReceiver c ⟨(s.receivers c).endurance - 1, .top⟩)
  | .recv (.data first more), .filling packet =>
      some ({ s with packetData := Function.update s.packetData packet (first :: more) }.setReceiver c
        { s.receivers c with point := .received packet })
  | .post, .received packet =>
      some ((s.postEvent (.clientRecv (E.clientOf c) packet)).setReceiver c
        { s.receivers c with point := .top })
  | _, _ => none

/-- `enet_new_tcp_server_client_object` up to `accept`. -/
def accept (k : Nat) (s : Traffic E) : Option Socket → Option (Traffic E)
  | none => some { s with handler := .idle }
  | some fd =>
      if (s.servers k).alive = false then some { s with handler := .idle }
      else if fd ≠ 0 ∧ s.isOpen fd = false then
        some { s with
          handler := .adding k fd (s.objects + 1)
          isOpen := Function.update s.isOpen fd true
          latest := Function.update s.latest fd (k, s.objects + 1)
          objects := s.objects + 1 }
      else none

/-- `enet_add_client_to_server` and what its caller does then: the socket of a client
that was not added is closed. A client whose task is not delivered is taken out of the
tree and deleted, and deleted once more by the caller. Where the first node of a tree
gets no memory, `rbt_insert` returns no error: the task is delivered and the client is
not in the tree. -/
def addClientToServer (k : Nat) (fd : Socket) (object : Nat) (inserted delivered : Bool)
    (s : Traffic E) : Traffic E :=
  let server := s.servers k
  let done := { s with handler := .idle }
  let tree := Function.update server.clientsTree fd (some object)
  if server.alive = false then done.closesocket fd
  else if server.clientsTree fd ≠ none then done.setServer k { server with clientsTree := tree }
  else if inserted = true then
    if delivered = true then
      done.setServer k
        { server with clientsTree := tree, nodes := server.nodes + 1, tasks := server.tasks ++ [fd] }
    else { s.closesocket fd with handler := .crashed }
  else if server.nodes = 0 ∧ delivered = true then
    done.setServer k { server with tasks := server.tasks ++ [fd] }
  else done.closesocket fd

/-- `enet_tcp_server_process_recv` closes a socket without client. -/
def processRecv (k packet : Nat) (fd : Socket) (s : Traffic E) : Traffic E :=
  let server := s.servers k
  let handed := { s with
    handler := .releasing packet
    handed := Function.update s.handed k
      (Function.update (s.handed k) fd (s.handed k fd ++ [s.packetData packet])) }
  if server.alive ∧ server.clientsTree fd = none then handed.closesocket fd else handed

/-- `enet_tcp_server_remove_client`. -/
def removeClient (k : Nat) (fd : Socket) (s : Traffic E) : Traffic E :=
  let server := s.servers k
  if server.alive = false then { s with handler := .idle }
  else if server.clientsTree fd = none then { s with handler := .crashed }
  else ({ s with handler := .idle }.closesocket fd).setServer k
    { server with
      clientsTree := Function.update server.clientsTree fd none
      nodes := server.nodes - 1 }

/-- One step of `enet_event_handler`. -/
def handlerStep (s : Traffic E) : HandlerAction → HandlerPoint → Option (Traffic E)
  | .pop, .idle =>
      match s.queue with
      | [] => none
      | event :: rest => some { s with handler := .handling event, queue := rest }
  | .accept socket, .handling (.connectRequest k) => s.accept k socket
  | .add inserted delivered, .adding k fd object => some (s.addClientToServer k fd object inserted delivered)
  | .process, .handling (.serverRecv k packet fd) => some (s.processRecv k packet fd)
  | .process, .handling (.clientRecv _ packet) => some { s with handler := .releasing packet }
  | .remove, .handling (.serverDisconnect k fd _) => some (s.removeClient k fd)
  | .free, .releasing packet => some { s.freePacketUnit packet with handler := .idle }
  | _, _ => none

/-- One step of any thread. -/
def next : TrafficStep E → Traffic E → Option (Traffic E)
  | .worker w action, s => s.workerStep w action (s.workers w).point
  | .receiver c action, s => s.receiverStep c action (s.receivers c).point
  | .handler action, s => s.handlerStep action s.handler
  | .listen k, s =>
      if (s.servers k).alive ∧ (s.servers k).stopped = false then some (s.postEvent (.connectRequest k))
      else none
  | .disconnect k fd, s =>
      if (s.servers k).alive ∧ (s.servers k).clientsTree fd ≠ none then some (s.closesocket fd) else none
  | .stop k, s => some (s.setServer k { s.servers k with stopped := true })
  | .delete k, s => some (s.setServer k { s.servers k with alive := false, stopped := true })

/-- Nothing was received yet, no client is connected and no packet in use. -/
def start (E : Setup) (packets : Nat) : Traffic E where
  servers := fun _ => ⟨true, false, fun _ => none, 0, []⟩
  workers := fun _ => ⟨none, .top⟩
  receivers := fun _ => ⟨2, .top⟩
  queue := []
  handler := .idle
  freeList := (List.range packets).reverse
  packetState := fun _ => false
  packetData := fun _ => []
  isOpen := fun _ => false
  latest := fun _ => (0, 0)
  objects := 0
  received := fun _ _ => []
  handed := fun _ _ => []

end Traffic

end GbfLibrary.Enet
