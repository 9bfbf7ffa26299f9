import GbfLibrary.Enet.Handle
import GbfLibrary.Enet.Traffic

/-!
# Clients and their handles

`tcp_client.c`: users that make and delete clients, the receive threads of the
clients, and the event thread in `enet_process_client_receive`. Handles, socket
numbers and memory are given away again after they were given back. Packets are
left out: an event carries what is in its packet.
-/

set_option autoImplicit false

namespace GbfLibrary.Enet

open Systems

/-- `ENET_TCP_CLIENT`. `client` is not in the program: it tells apart the objects
that are at one address one after the other. -/
structure ClientObject where
  client : Nat
  fd : Socket
  usePacket : Bool
  recvCb : Bool
  deriving DecidableEq, Repr

/-- `enet_handle_t` of a client. -/
structure ClientHandle where
  allocated : Bool
  alive : Bool
  obj : Nat
  refcnt : Int
  deriving DecidableEq, Repr

/-- `ENET_EVENT_TCP_CLIENT_RECV`. `owner` is not in the program: the client from
whose socket the chunk is. -/
structure ClientEvent where
  handle : Nat
  chunk : Chunk
  owner : Nat
  deriving DecidableEq, Repr

/-- How far a thread is between `enet_handle_rlock` and `enet_handle_unlock`. -/
inductive ReadPoint where
  /-- `refcnt` is raised. -/
  | counted
  | locked
  | fetched (object : Nat)
  /-- Before `enet_handle_unlock`, with the attributes that were copied. -/
  | leaving (result : Option (Nat × ClientObject))
  deriving DecidableEq, Repr

/-- How far `tcp_client_recv_thread` is. -/
inductive ThreadPoint where
  | unused
  | starting (handle : Nat)
  | reading (handle : Nat) (point : ReadPoint)
  | running (handle : Nat) (fd : Socket) (endurance : Nat)
  | received (handle : Nat) (fd : Socket) (endurance : Nat) (chunk : Chunk) (owner : Nat)
  deriving DecidableEq, Repr

/-- How far a user is in `enet_new_tcp_client` or `enet_delete_tcp_client`. -/
inductive UserPoint where
  | idle
  /-- The object is made, the handle is not. -/
  | creating (object : Nat)
  | reading (handle : Nat) (point : ReadPoint)
  /-- `obj` was set to 0. -/
  | detached (handle : Nat) (object : Nat)
  deriving DecidableEq, Repr

/-- How far the event thread is with an event. -/
inductive ProcessPoint where
  | idle
  | handling (event : ClientEvent)
  | reading (event : ClientEvent) (point : ReadPoint)
  /-- The attributes were copied; `object` is still used. -/
  | processing (event : ClientEvent) (object : Nat) (attributes : ClientObject)
  deriving DecidableEq, Repr

/-- Where received data goes: the reassembly buffer of the object that is at an
address, or a callback. -/
inductive Target where
  | buffer (client : Option Nat)
  | callback (client : Nat)
  deriving DecidableEq, Repr

/-- All clients. `sockets` has the open sockets. Not in the program are whose they
are, the number of clients made so far, the client that a handle was given to last
(`named`), and what was passed where. -/
structure Clients (n m : Nat) where
  handles : Nat → ClientHandle
  objects : Nat → Option ClientObject
  sockets : Socket → Option Nat
  reuseTable : List Nat
  threads : Fin n → ThreadPoint
  users : Fin m → UserPoint
  queue : List ClientEvent
  process : ProcessPoint
  made : Nat
  named : Nat → Nat
  passed : List (Nat × Target)

inductive UserAction where
  /-- `enet_new_tcp_client_object`: `calloc` and `socket` return these. -/
  | create (object : Nat) (fd : Socket) (usePacket recvCb : Bool)
  /-- `enet_new_handle_ex`: `handle` is what `calloc` returns, if it is called. -/
  | register (handle : Nat)
  /-- `enet_delete_tcp_client`; `found` is whether the handle is in the registry. -/
  | delete (handle : Nat) (found : Bool)
  | read
  /-- Setting `obj` to 0. -/
  | detach
  /-- `enet_delete_tcp_client_object`, also when there is no memory for a handle. -/
  | free
  deriving DecidableEq, Repr

inductive ThreadAction where
  | lookup (found : Bool)
  | read
  /-- `none` is an error. -/
  | recv (chunk : Option Chunk)
  | post
  deriving DecidableEq, Repr

inductive ProcessAction where
  | pop
  | lookup (found : Bool)
  | read
  /-- `enet_unpack_data`, where it is called, has a whole packet. -/
  | process (whole : Bool)
  deriving DecidableEq, Repr

inductive ClientStep (n m : Nat) where
  | user (u : Fin m) (action : UserAction)
  | thread (c : Fin n) (action : ThreadAction)
  | process (action : ProcessAction)
  /-- `enet_tcp_client_connect` makes a new socket. -/
  | socket (handle : Nat) (fd : Socket)
  /-- `enet_tcp_client_create_recv_thread`. -/
  | start (handle : Nat) (c : Fin n)
  /-- `enet_tcp_client_disconnect`, and the end of a connect that failed. -/
  | disconnect (handle : Nat)
  | terminate (c : Fin n)
  /-- `enet_delete_handle`, at the end of `enet_delete_tcp_client` or in
  `enet_handle_unlock`. -/
  | deleteHandle (handle : Nat)
  deriving DecidableEq, Repr

namespace Clients

variable {n m : Nat}

def setThread (c : Fin n) (point : ThreadPoint) (s : Clients n m) : Clients n m :=
  { s with threads := Function.update s.threads c point }

def setUser (u : Fin m) (point : UserPoint) (s : Clients n m) : Clients n m :=
  { s with users := Function.update s.users u point }

def setHandle (h : Nat) (handle : ClientHandle) (s : Clients n m) : Clients n m :=
  { s with handles := Function.update s.handles h handle }

/-- `refcnt++` in `enet_handle_rlock`. -/
def reference (h : Nat) (s : Clients n m) : Clients n m :=
  s.setHandle h { s.handles h with refcnt := (s.handles h).refcnt + 1 }

/-- `refcnt--` in `enet_handle_unlock`. -/
def dereference (h : Nat) (s : Clients n m) : Clients n m :=
  s.setHandle h { s.handles h with refcnt := HandleState.dropReference (s.handles h).refcnt }

/-- The next point under the lock of the handle. Null and freed objects are not
read. -/
def readNext (h : Nat) (s : Clients n m) : ReadPoint → Option ReadPoint
  | .counted =>
      some (if (s.handles h).alive = false ∨ (s.handles h).obj = 0 then .leaving none else .locked)
  | .locked => if (s.handles h).obj = 0 then none else some (.fetched (s.handles h).obj)
  | .fetched object => (s.objects object).map fun attributes => .leaving (some (object, attributes))
  | .leaving _ => none

/-- `enet_new_tcp_client_object`. -/
def create (u : Fin m) (object : Nat) (fd : Socket) (usePacket recvCb : Bool) (s : Clients n m) :
    Option (Clients n m) :=
  if object ≠ 0 ∧ s.objects object = none ∧ fd ≠ 0 ∧ s.sockets fd = none then
    some ({ s with
      objects := Function.update s.objects object (some ⟨s.made + 1, fd, usePacket, recvCb⟩)
      sockets := Function.update s.sockets fd (some (s.made + 1))
      made := s.made + 1 }.setUser u (.creating object))
  else none

/-- The handle that `enet_new_handle` returns. -/
def newHandle (allocated : Nat) (s : Clients n m) : Nat := s.reuseTable.getLast?.getD allocated

/-- The client whose object is there. -/
def clientAt (s : Clients n m) (object : Nat) : Option Nat := (s.objects object).map ClientObject.client

/-- `enet_new_handle_ex`. Until `obj` is set nobody can use the handle. -/
def register (u : Fin m) (object allocated : Nat) (s : Clients n m) : Option (Clients n m) :=
  if s.reuseTable = [] ∧ (s.handles allocated).allocated = true then none
  else
    let h := s.newHandle allocated
    some ({ s.setHandle h ⟨true, true, object, 0⟩ with
      reuseTable := s.reuseTable.dropLast
      named := Function.update s.named h ((s.clientAt object).getD 0) }.setUser u .idle)

/-- `enet_delete_tcp_client_object`. -/
def freeObject (u : Fin m) (object : Nat) (point : UserPoint) (s : Clients n m) : Option (Clients n m) :=
  (s.objects object).map fun attributes =>
    { s with
      objects := Function.update s.objects object none
      sockets := Function.update s.sockets attributes.fd none }.setUser u point

def userStep (u : Fin m) (s : Clients n m) : UserAction → UserPoint → Option (Clients n m)
  | .create object fd usePacket recvCb, .idle => s.create u object fd usePacket recvCb
  | .register allocated, .creating object => s.register u object allocated
  | .delete h found, .idle =>
      some (if found then (s.reference h).setUser u (.reading h .counted) else s)
  | .read, .reading h (.leaving _) => some ((s.dereference h).setUser u .idle)
  | .read, .reading h .counted => (s.readNext h .counted).map fun point => s.setUser u (.reading h point)
  | .read, .reading h .locked => (s.readNext h .locked).map fun point => s.setUser u (.reading h point)
  | .detach, .reading h (.fetched object) =>
      some ((s.setHandle h { s.handles h with obj := 0 }).setUser u (.detached h object))
  | .free, .detached h object => s.freeObject u object (.reading h (.leaving none))
  | .free, .creating object => s.freeObject u object .idle
  | _, _ => none

/-- What `enet_get_tcp_client_attr` leaves the receive thread with. -/
def afterRead (h : Nat) : Option (Nat × ClientObject) → ThreadPoint
  | none => .unused
  | some (_, attributes) => .running h attributes.fd 2

/-- A closed socket has no data. A thread whose endurance is at its end returns. -/
def threadStep (size : Nat) (c : Fin n) (s : Clients n m) : ThreadAction → ThreadPoint → Option (Clients n m)
  | .lookup found, .starting h =>
      some (if found then (s.reference h).setThread c (.reading h .counted) else s.setThread c .unused)
  | .read, .reading h (.leaving result) => some ((s.dereference h).setThread c (afterRead h result))
  | .read, .reading h point => (s.readNext h point).map fun point => s.setThread c (.reading h point)
  | .recv none, .running h fd endurance =>
      some (s.setThread c (if endurance ≤ 1 then .unused else .running h fd (endurance - 1)))
  | .recv (some chunk), .running h fd endurance =>
      (s.sockets fd).map fun owner => s.setThread c (.received h fd endurance chunk owner)
  | .post, .received h fd endurance chunk owner =>
      let posted := if s.queue.length = size then s else { s with queue := s.queue ++ [⟨h, chunk, owner⟩] }
      some (posted.setThread c (.running h fd endurance))
  | _, _ => none

/-- The rest of `enet_process_client_receive`. -/
def processReceive (event : ClientEvent) (object : Nat) (attributes : ClientObject) (whole : Bool)
    (s : Clients n m) : Clients n m :=
  let buffered := if attributes.usePacket then [(event.owner, Target.buffer (s.clientAt object))] else []
  let called :=
    if attributes.recvCb ∧ (attributes.usePacket = false ∨ whole) then
      [(event.owner, Target.callback attributes.client)]
    else []
  { s with process := .idle, passed := s.passed ++ buffered ++ called }

/-- What `enet_get_tcp_client_attr` leaves the event thread with. -/
def afterAttributes (event : ClientEvent) : Option (Nat × ClientObject) → ProcessPoint
  | none => .idle
  | some (object, attributes) => .processing event object attributes

def processStep (s : Clients n m) : ProcessAction → ProcessPoint → Option (Clients n m)
  | .pop, .idle =>
      match s.queue with
      | [] => none
      | event :: rest => some { s with process := .handling event, queue := rest }
  | .lookup found, .handling event =>
      some (if found then { s.reference event.handle with process := .reading event .counted }
        else { s with process := .idle })
  | .read, .reading event (.leaving result) =>
      some { s.dereference event.handle with process := afterAttributes event result }
  | .read, .reading event point =>
      (s.readNext event.handle point).map fun point => { s with process := .reading event point }
  | .process whole, .processing event object attributes => some (s.processReceive event object attributes whole)
  | _, _ => none

/-- `enet_delete_handle`. -/
def deleteHandle (h : Nat) (s : Clients n m) : Clients n m :=
  let handle := s.handles h
  if handle.alive = false then s
  else if handle.refcnt ≠ 0 then s.setHandle h { handle with alive := false }
  else if maxReuseTable ≤ s.reuseTable.length then
    s.setHandle h { handle with alive := false, allocated := false }
  else { s.setHandle h { handle with alive := false } with reuseTable := s.reuseTable ++ [h] }

/-- The object of a client is used under the lock of its handle, by a user who keeps
it from being deleted. -/
def setFd (h : Nat) (fd : Socket) (s : Clients n m) : Option (Clients n m) :=
  if (s.handles h).alive then
    (s.objects (s.handles h).obj).map fun attributes =>
      { s with
        objects := Function.update s.objects (s.handles h).obj (some { attributes with fd })
        sockets :=
          if fd = 0 then Function.update s.sockets attributes.fd none
          else Function.update s.sockets fd (some attributes.client) }
  else none

/-- The descriptor of the handle's client. -/
def fdOf (s : Clients n m) (h : Nat) : Option Socket :=
  (s.objects (s.handles h).obj).map ClientObject.fd

/-- One step; `size` is that of the event queue. -/
def next (size : Nat) : ClientStep n m → Clients n m → Option (Clients n m)
  | .user u action, s => s.userStep u action (s.users u)
  | .thread c action, s => s.threadStep size c action (s.threads c)
  | .process action, s => s.processStep action s.process
  | .socket h fd, s =>
      if s.fdOf h = some 0 ∧ fd ≠ 0 ∧ s.sockets fd = none then s.setFd h fd else none
  | .start h c, s =>
      if (s.handles h).alive ∧ s.threads c = .unused then some (s.setThread c (.starting h)) else none
  | .disconnect h, s => s.setFd h 0
  | .terminate c, s => some (s.setThread c .unused)
  | .deleteHandle h, s => some (s.deleteHandle h)

/-- No client was made yet. -/
def init : Clients n m where
  handles := fun _ => ⟨false, false, 0, 0⟩
  objects := fun _ => none
  sockets := fun _ => none
  reuseTable := []
  threads := fun _ => .unused
  users := fun _ => .idle
  queue := []
  process := .idle
  made := 0
  named := fun _ => 0
  passed := []

end Clients

end GbfLibrary.Enet
