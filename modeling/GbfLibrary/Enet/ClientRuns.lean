import GbfLibrary.Enet.Clients
import GbfLibrary.Systems.Custody

/-!
# Whom received data goes to

What a thread knows of a client is a handle, a socket number or an address. Data goes
to the client it is for as long as none of them is given away again while a thread or
an event still has it.
-/

set_option autoImplicit false

namespace GbfLibrary.Enet

open Systems

/-- The handle and the object that a receive thread is about to read. -/
def ThreadPoint.fetching : ThreadPoint → Option (Nat × Nat)
  | .reading h (.fetched object) => some (h, object)
  | _ => none

/-- The handle and the socket number that a receive thread goes on with. -/
def ThreadPoint.reads : ThreadPoint → Option (Nat × Socket)
  | .reading h (.leaving (some (_, attributes))) => some (h, attributes.fd)
  | .running h fd _ => some (h, fd)
  | .received h fd _ _ _ => some (h, fd)
  | _ => none

/-- The handle under which a chunk is to be posted, and whose chunk it is. -/
def ThreadPoint.carries : ThreadPoint → Option (Nat × Nat)
  | .received h _ _ _ owner => some (h, owner)
  | _ => none

/-- The event whose client was not looked up yet. -/
def ProcessPoint.awaits : ProcessPoint → Option ClientEvent
  | .handling event => some event
  | .reading event .counted => some event
  | .reading event .locked => some event
  | _ => none

/-- The event and the object that is used for it. -/
def ProcessPoint.uses : ProcessPoint → Option (ClientEvent × Nat)
  | .reading event (.fetched object) => some (event, object)
  | .reading event (.leaving (some (object, _))) => some (event, object)
  | .processing event object _ => some (event, object)
  | _ => none

/-- The attributes that were copied for an event. -/
def ProcessPoint.copied : ProcessPoint → Option (ClientEvent × ClientObject)
  | .reading event (.leaving (some (_, attributes))) => some (event, attributes)
  | .processing event _ attributes => some (event, attributes)
  | _ => none

/-- The object that a user has to give to a handle or to free. -/
def UserPoint.object : UserPoint → Option Nat
  | .creating object => some object
  | .detached _ object => some object
  | _ => none

def ClientHandle.object (handle : ClientHandle) : Option Nat :=
  if handle.obj = 0 then none else some handle.obj

/-- The target belongs to the client. -/
def Target.Of (client : Nat) : Target → Prop
  | .buffer owner => owner = some client
  | .callback owner => owner = client

instance (client : Nat) : (target : Target) → Decidable (target.Of client)
  | .buffer owner => inferInstanceAs (Decidable (owner = some client))
  | .callback owner => inferInstanceAs (Decidable (owner = client))

/-- Where the object of a client is. -/
inductive ObjectPlace (m : Nat) where
  | handle (h : Nat)
  | user (u : Fin m)
  deriving DecidableEq

namespace Clients

variable {n m : Nat} {s s' : Clients n m} {c : Fin n} {u : Fin m} {h object : Nat} {fd : Socket}

/-- An event for the handle is to come: it is in the queue or with the event thread, or
a receive thread has a chunk for it or can receive one. -/
def Referred (s : Clients n m) (h : Nat) : Prop :=
  (∃ event ∈ s.queue, event.handle = h) ∨ s.process.awaits.map ClientEvent.handle = some h ∨
    ∃ c, (s.threads c).fetching.map Prod.fst = some h ∨ (s.threads c).carries.map Prod.fst = some h ∨
      ∃ source ∈ (s.threads c).reads, source.1 = h ∧ s.sockets source.2 ≠ none

instance (s : Clients n m) (h : Nat) : Decidable (s.Referred h) :=
  inferInstanceAs (Decidable ((∃ event ∈ s.queue, event.handle = h) ∨
    s.process.awaits.map ClientEvent.handle = some h ∨
    ∃ c, (s.threads c).fetching.map Prod.fst = some h ∨ (s.threads c).carries.map Prod.fst = some h ∨
      ∃ source ∈ (s.threads c).reads, source.1 = h ∧ s.sockets source.2 ≠ none))

/-- A thread other than the handle's own goes on with the socket number. -/
def NumberInUse (s : Clients n m) (fd : Socket) (own : Option Nat) : Prop :=
  ∃ c, ∃ source ∈ (s.threads c).reads, source.2 = fd ∧ some source.1 ≠ own

instance (s : Clients n m) (fd : Socket) (own : Option Nat) : Decidable (s.NumberInUse fd own) :=
  inferInstanceAs (Decidable (∃ c, ∃ source ∈ (s.threads c).reads, source.2 = fd ∧ some source.1 ≠ own))

/-- The event thread or a receive thread has the address. -/
def AddressInUse (s : Clients n m) (object : Nat) : Prop :=
  s.process.uses.map Prod.snd = some object ∨ ∃ c, (s.threads c).fetching.map Prod.snd = some object

instance (s : Clients n m) (object : Nat) : Decidable (s.AddressInUse object) :=
  inferInstanceAs (Decidable (s.process.uses.map Prod.snd = some object ∨
    ∃ c, (s.threads c).fetching.map Prod.snd = some object))

/-- A user that is to clear `obj` does not find the object there that it fetched. -/
def DeletedTwice (s : Clients n m) : UserPoint → Prop
  | .reading h (.fetched object) => (s.handles h).obj ≠ object
  | _ => False

instance (s : Clients n m) : (point : UserPoint) → Decidable (s.DeletedTwice point)
  | .reading h (.fetched object) => inferInstanceAs (Decidable ((s.handles h).obj ≠ object))
  | .reading _ .counted | .reading _ .locked | .reading _ (.leaving _) | .idle | .creating _
  | .detached _ _ => .isFalse id

/-- A handle, a socket number or memory is given away or given back too early. -/
def RecyclesClient : ClientStep n m → Clients n m → Prop
  | .user _ (.register allocated), s => s.Referred (s.newHandle allocated)
  | .user _ (.create _ fd _ _), s => s.NumberInUse fd none
  | .user u .free, s => ∃ object ∈ (s.users u).object, s.AddressInUse object
  | .user u .detach, s => s.DeletedTwice (s.users u)
  | .socket h fd, s => s.NumberInUse fd (some h)
  | _, _ => False

instance : (step : ClientStep n m) → (s : Clients n m) → Decidable (RecyclesClient step s)
  | .user _ (.register allocated), s => inferInstanceAs (Decidable (s.Referred (s.newHandle allocated)))
  | .user _ (.create _ fd _ _), s => inferInstanceAs (Decidable (s.NumberInUse fd none))
  | .user u .free, s => inferInstanceAs (Decidable (∃ object ∈ (s.users u).object, s.AddressInUse object))
  | .user u .detach, s => inferInstanceAs (Decidable (s.DeletedTwice (s.users u)))
  | .socket h fd, s => inferInstanceAs (Decidable (s.NumberInUse fd (some h)))
  | .user _ (.delete _ _), _ | .user _ .read, _ | .thread _ _, _ | .process _, _ | .start _ _, _
  | .disconnect _, _ | .terminate _, _ | .deleteHandle _, _ => .isFalse id

/-- The address that a place has. -/
def addressAt (s : Clients n m) : ObjectPlace m → Option Nat
  | .handle h => (s.handles h).object
  | .user u => (s.users u).object

def held (s : Clients n m) (p : ObjectPlace m) : Multiset Nat := ((s.addressAt p).toList : Multiset Nat)

def Allocated (s : Clients n m) (object : Nat) : Prop := s.objects object ≠ none

/-- What a receive thread has belongs to the client that its handle was given to
last. -/
structure ThreadOwned (s : Clients n m) (point : ThreadPoint) : Prop where
  fetching : ∀ h object, point.fetching = some (h, object) → s.clientAt object = some (s.named h)
  reads : ∀ h fd, point.reads = some (h, fd) → ∀ owner, s.sockets fd = some owner → owner = s.named h
  carries : ∀ h owner, point.carries = some (h, owner) → owner = s.named h

/-- What the event thread has belongs to the client whose chunk it is. -/
structure ProcessOwned (s : Clients n m) (point : ProcessPoint) : Prop where
  awaits : ∀ event, point.awaits = some event → event.owner = s.named event.handle
  uses : ∀ event object, point.uses = some (event, object) → s.clientAt object = some event.owner
  copied : ∀ event attributes, point.copied = some (event, attributes) → attributes.client = event.owner

/-- The objects and their sockets: one object a client, one socket an object. -/
structure ObjectsOk (objects : Nat → Option ClientObject) (sockets : Socket → Option Nat) (made : Nat) :
    Prop where
  null : objects 0 = none
  closed : sockets 0 = none
  socket : ∀ a attributes, objects a = some attributes → attributes.fd ≠ 0 →
    sockets attributes.fd = some attributes.client
  distinct : ∀ a b left right, objects a = some left → objects b = some right →
    left.client = right.client → a = b
  bounded : ∀ a attributes, objects a = some attributes → attributes.client ≤ made

structure Owned (s : Clients n m) : Prop where
  custody : Custody s.Allocated s.held
  objects : ObjectsOk s.objects s.sockets s.made
  handles : ∀ h object, (s.handles h).object = some object → s.clientAt object = some (s.named h)
  users : ∀ u h, s.users u ≠ .reading h (.fetched 0)
  queue : ∀ event ∈ s.queue, event.owner = s.named event.handle
  threads : ∀ c, s.ThreadOwned (s.threads c)
  process : s.ProcessOwned s.process
  passed : ∀ entry ∈ s.passed, entry.2.Of entry.1

private theorem threadOwned_nothing {point : ThreadPoint} (fetching : point.fetching = none)
    (reads : point.reads = none) (carries : point.carries = none) : s.ThreadOwned point where
  fetching := by simp [fetching]
  reads := by simp [reads]
  carries := by simp [carries]

theorem ThreadOwned.keep {point : ThreadPoint} (owned : s.ThreadOwned point)
    (clients : ∀ object, s'.clientAt object = s.clientAt object) (named : s'.named = s.named)
    (sockets : ∀ fd owner, s'.sockets fd = some owner → s.sockets fd = some owner) :
    s'.ThreadOwned point where
  fetching := by
    intro h object fetches
    rw [clients, named]
    exact owned.fetching h object fetches
  reads := by
    intro h fd reads owner socket
    rw [named]
    exact owned.reads h fd reads owner (sockets fd owner socket)
  carries := by
    intro h owner carries
    rw [named]
    exact owned.carries h owner carries

theorem ProcessOwned.keep {point : ProcessPoint} (owned : s.ProcessOwned point)
    (clients : ∀ object, s'.clientAt object = s.clientAt object) (named : s'.named = s.named) :
    s'.ProcessOwned point where
  awaits := by
    intro event awaits
    rw [named]
    exact owned.awaits event awaits
  uses := by
    intro event object uses
    rw [clients]
    exact owned.uses event object uses
  copied := owned.copied

/-- Steps that change no object and give nothing away. -/
theorem Owned.keep (owned : s.Owned) (objects : s'.objects = s.objects) (sockets : s'.sockets = s.sockets)
    (made : s'.made = s.made) (named : s'.named = s.named) (addresses : s'.addressAt = s.addressAt)
    (users : ∀ u h, s'.users u ≠ .reading h (.fetched 0))
    (queue : ∀ event ∈ s'.queue, event.owner = s.named event.handle)
    (threads : ∀ c, s.ThreadOwned (s'.threads c)) (process : s.ProcessOwned s'.process)
    (passed : ∀ entry ∈ s'.passed, entry.2.Of entry.1) : s'.Owned := by
  have clients : ∀ object, s'.clientAt object = s.clientAt object := by
    intro object
    simp only [clientAt, objects]
  refine ⟨?_, ?_, ?_, users, ?_, ?_, process.keep clients named, passed⟩
  · have places : s'.held = s.held := by
      funext p
      simp only [held, addresses]
    have used : s'.Allocated = s.Allocated := by
      funext object
      simp only [Allocated, objects]
    rw [places, used]
    exact owned.custody
  · rw [objects, sockets, made]
    exact owned.objects
  · intro h object here
    have same : s'.addressAt (.handle h) = s.addressAt (.handle h) := by rw [addresses]
    rw [clients, named]
    exact owned.handles h object (same.symm.trans here)
  · rw [named]
    exact queue
  · exact fun c => (threads c).keep clients named fun fd owner socket => sockets ▸ socket

/-- Another reference count, or a handle that is dead from now on. -/
theorem Owned.setHandle {handle : ClientHandle} (owned : s.Owned) (same : handle.obj = (s.handles h).obj) :
    (s.setHandle h handle).Owned := by
  refine owned.keep rfl rfl rfl rfl ?_ owned.users owned.queue owned.threads owned.process owned.passed
  funext p
  cases p with
  | user u => rfl
  | handle k =>
      by_cases here : k = h
      · subst here
        simp [addressAt, Clients.setHandle, ClientHandle.object, same]
      · simp [addressAt, Clients.setHandle, here]

theorem Owned.reference (owned : s.Owned) : (s.reference h).Owned := owned.setHandle rfl

theorem Owned.dereference (owned : s.Owned) : (s.dereference h).Owned := owned.setHandle rfl

theorem Owned.setThread {point : ThreadPoint} (owned : s.Owned) (thread : s.ThreadOwned point) :
    (s.setThread c point).Owned := by
  refine owned.keep rfl rfl rfl rfl rfl owned.users owned.queue (fun d => ?_) owned.process owned.passed
  by_cases here : d = c
  · subst here
    simpa [Clients.setThread] using thread
  · simpa [Clients.setThread, here] using owned.threads d

/-- A user goes on with the same object in its hands. -/
theorem Owned.setUser {point : UserPoint} (owned : s.Owned) (same : point.object = (s.users u).object)
    (notNull : ∀ h, point ≠ .reading h (.fetched 0)) : (s.setUser u point).Owned := by
  refine owned.keep rfl rfl rfl rfl ?_ (fun v k => ?_) owned.queue owned.threads owned.process owned.passed
  · funext p
    cases p with
    | handle h => rfl
    | user v =>
        by_cases here : v = u
        · subst here
          simp [addressAt, Clients.setUser, same]
        · simp [addressAt, Clients.setUser, here]
  · by_cases here : v = u
    · subst here
      simpa [Clients.setUser] using notNull k
    · simpa [Clients.setUser, here] using owned.users v k

private theorem Owned.setProcess {point : ProcessPoint} (owned : s.Owned) (process : s.ProcessOwned point) :
    Owned { s with process := point } :=
  owned.keep rfl rfl rfl rfl rfl owned.users owned.queue owned.threads process owned.passed

/-- The object that a handle has belongs to the client it was given to. -/
theorem Owned.clientAt_obj (owned : s.Owned) (notNull : (s.handles h).obj ≠ 0) :
    s.clientAt (s.handles h).obj = some (s.named h) := by
  apply owned.handles
  simp [ClientHandle.object, notNull]

/-- A socket that is open under the number in an object is that of its client. -/
theorem ObjectsOk.owner {objects : Nat → Option ClientObject} {sockets : Socket → Option Nat} {made a : Nat}
    {attributes : ClientObject} {owner : Nat} (ok : ObjectsOk objects sockets made)
    (here : objects a = some attributes) (socket : sockets attributes.fd = some owner) :
    owner = attributes.client := by
  by_cases closed : attributes.fd = 0
  · rw [closed, ok.closed] at socket
    cases socket
  · rw [ok.socket a attributes here closed] at socket
    cases socket
    rfl

/-!
## The receive threads and the event thread
-/

/-- What `readNext` gives a receive thread. -/
theorem threadOwned_readNext {before after : ReadPoint} (owned : s.Owned)
    (thread : s.ThreadOwned (.reading h before)) (reads : s.readNext h before = some after) :
    s.ThreadOwned (.reading h after) := by
  cases before with
  | counted =>
      simp only [readNext, Option.some.injEq] at reads
      subst reads
      split
      · exact threadOwned_nothing rfl rfl rfl
      · exact threadOwned_nothing rfl rfl rfl
  | locked =>
      simp only [readNext] at reads
      split at reads
      · cases reads
      · next notNull =>
        cases reads
        refine ⟨?_, (fun _ _ impossible => by cases impossible), (fun _ _ impossible => by cases impossible)⟩
        rintro k a ⟨⟩
        exact owned.clientAt_obj notNull
  | fetched object =>
      obtain ⟨attributes, here, rfl⟩ := Option.map_eq_some_iff.mp reads
      refine ⟨(fun _ _ impossible => by cases impossible), ?_, (fun _ _ impossible => by cases impossible)⟩
      rintro k fd ⟨⟩ owner socket
      have client : s.clientAt object = some (s.named h) := thread.fetching h object rfl
      simp only [clientAt, here, Option.map_some, Option.some.injEq] at client
      rw [owned.objects.owner here socket, client]
  | leaving result => cases reads

theorem Owned.threadStep {size : Nat} {action : ThreadAction} (owned : s.Owned)
    (step : s.threadStep size c action (s.threads c) = some s') : s'.Owned := by
  have thread := owned.threads c
  unfold Clients.threadStep at step
  split at step
  · next found h here =>
    cases step
    split
    · exact owned.reference.setThread (threadOwned_nothing rfl rfl rfl)
    · exact owned.setThread (threadOwned_nothing rfl rfl rfl)
  · next h result here =>
    cases step
    rw [here] at thread
    refine owned.dereference.setThread ?_
    cases result with
    | none => exact threadOwned_nothing rfl rfl rfl
    | some found =>
        refine ⟨(fun _ _ impossible => by cases impossible), ?_, (fun _ _ impossible => by cases impossible)⟩
        rintro k fd ⟨⟩ owner socket
        exact thread.reads h _ rfl owner socket
  · next h point _ here =>
    obtain ⟨after, reads, rfl⟩ := Option.map_eq_some_iff.mp step
    rw [here] at thread
    exact owned.setThread (threadOwned_readNext owned thread reads)
  · next h fd endurance here =>
    cases step
    rw [here] at thread
    refine owned.setThread ?_
    split
    · exact threadOwned_nothing rfl rfl rfl
    · refine ⟨(fun _ _ impossible => by cases impossible), ?_, (fun _ _ impossible => by cases impossible)⟩
      rintro k other ⟨⟩ owner socket
      exact thread.reads h fd rfl owner socket
  · next chunk h fd endurance here =>
    obtain ⟨owner, socket, rfl⟩ := Option.map_eq_some_iff.mp step
    rw [here] at thread
    refine owned.setThread ⟨(fun _ _ impossible => by cases impossible), ?_, ?_⟩
    · rintro k other ⟨⟩ owner socket
      exact thread.reads h fd rfl owner socket
    · rintro k other ⟨⟩
      exact thread.reads h fd rfl owner socket
  · next h fd endurance chunk owner here =>
    cases step
    rw [here] at thread
    have goes : s.ThreadOwned (.running h fd endurance) := by
      refine ⟨(fun _ _ impossible => by cases impossible), ?_, (fun _ _ impossible => by cases impossible)⟩
      rintro k other ⟨⟩ owner socket
      exact thread.reads h fd rfl owner socket
    split
    · exact owned.setThread goes
    · refine Owned.setThread ?_ (goes.keep (fun _ => rfl) rfl fun _ _ socket => socket)
      refine owned.keep rfl rfl rfl rfl rfl owned.users ?_ owned.threads owned.process owned.passed
      intro event member
      rcases List.mem_append.mp member with before | new
      · exact owned.queue event before
      · obtain rfl := List.mem_singleton.mp new
        exact thread.carries h owner rfl
  · cases step

/-- What `readNext` gives the event thread. -/
theorem processOwned_readNext {event : ClientEvent} {before after : ReadPoint} (owned : s.Owned)
    (process : s.ProcessOwned (.reading event before))
    (reads : s.readNext event.handle before = some after) : s.ProcessOwned (.reading event after) := by
  cases before with
  | counted =>
      simp only [readNext, Option.some.injEq] at reads
      subst reads
      split
      · exact ⟨(fun _ impossible => by cases impossible), (fun _ _ impossible => by cases impossible), fun _ _ impossible => by cases impossible⟩
      · refine ⟨?_, (fun _ _ impossible => by cases impossible), fun _ _ impossible => by cases impossible⟩
        rintro _ ⟨⟩
        exact process.awaits event rfl
  | locked =>
      simp only [readNext] at reads
      split at reads
      · cases reads
      · next notNull =>
        cases reads
        refine ⟨(fun _ impossible => by cases impossible), ?_, fun _ _ impossible => by cases impossible⟩
        rintro _ _ ⟨⟩
        rw [process.awaits event rfl]
        exact owned.clientAt_obj notNull
  | fetched object =>
      obtain ⟨attributes, here, rfl⟩ := Option.map_eq_some_iff.mp reads
      have client : s.clientAt object = some event.owner := process.uses event object rfl
      refine ⟨(fun _ impossible => by cases impossible), ?_, ?_⟩
      · rintro _ _ ⟨⟩
        exact client
      · rintro _ _ ⟨⟩
        simpa [clientAt, here] using client
  | leaving result => cases reads

/-- Only the client's own buffer and callback get the chunk. -/
theorem Owned.processReceive {event : ClientEvent} {attributes : ClientObject} {whole : Bool}
    (owned : s.Owned) (here : s.process = .processing event object attributes) :
    (s.processReceive event object attributes whole).Owned := by
  have process := owned.process
  rw [here] at process
  refine owned.keep rfl rfl rfl rfl rfl owned.users owned.queue owned.threads ?_ ?_
  · exact ⟨(fun _ impossible => by cases impossible), (fun _ _ impossible => by cases impossible), fun _ _ impossible => by cases impossible⟩
  · intro entry member
    simp only [Clients.processReceive, List.mem_append, List.mem_ite_nil_right,
      List.mem_singleton] at member
    rcases member with (before | ⟨_, rfl⟩) | ⟨_, rfl⟩
    · exact owned.passed entry before
    · exact process.uses event object rfl
    · exact process.copied event attributes rfl

theorem Owned.processStep {action : ProcessAction} (owned : s.Owned)
    (step : s.processStep action s.process = some s') : s'.Owned := by
  have process := owned.process
  unfold Clients.processStep at step
  split at step
  · next here =>
    split at step
    · cases step
    · next event rest queue =>
      cases step
      refine owned.keep rfl rfl rfl rfl rfl owned.users ?_ owned.threads ?_ owned.passed
      · exact fun later member => owned.queue later (queue ▸ List.mem_cons_of_mem _ member)
      · refine ⟨?_, (fun _ _ impossible => by cases impossible), fun _ _ impossible => by cases impossible⟩
        rintro _ ⟨⟩
        exact owned.queue event (queue ▸ List.mem_cons_self ..)
  · next found event here =>
    cases step
    rw [here] at process
    split
    · refine owned.reference.setProcess ⟨?_, (fun _ _ impossible => by cases impossible), fun _ _ impossible => by cases impossible⟩
      rintro _ ⟨⟩
      exact process.awaits event rfl
    · exact owned.setProcess
        ⟨(fun _ impossible => by cases impossible), (fun _ _ impossible => by cases impossible), fun _ _ impossible => by cases impossible⟩
  · next event result here =>
    cases step
    rw [here] at process
    refine owned.dereference.setProcess ?_
    cases result with
    | none =>
        exact ⟨(fun _ impossible => by cases impossible), (fun _ _ impossible => by cases impossible), fun _ _ impossible => by cases impossible⟩
    | some found =>
        refine ⟨(fun _ impossible => by cases impossible), ?_, ?_⟩
        · rintro _ _ ⟨⟩
          exact process.uses event found.1 rfl
        · rintro _ _ ⟨⟩
          exact process.copied event found.2 rfl
  · next event point _ here =>
    obtain ⟨after, reads, rfl⟩ := Option.map_eq_some_iff.mp step
    rw [here] at process
    exact owned.setProcess (processOwned_readNext owned process reads)
  · next whole event object attributes here =>
    cases step
    exact owned.processReceive here
  · cases step

/-!
## The users
-/

private theorem held_setUser (point : UserPoint) :
    (s.setUser u point).held (.user u) = (point.object.toList : Multiset Nat) := by
  simp [held, addressAt, Clients.setUser]

private theorem held_setUser_other {point : UserPoint} {p : ObjectPlace m} (other : p ≠ .user u) :
    (s.setUser u point).held p = s.held p := by
  cases p with
  | handle h => rfl
  | user v =>
      have different : v ≠ u := fun same => other (same ▸ rfl)
      simp [held, addressAt, Clients.setUser, different]

/-- Objects of other addresses have other clients. -/
theorem ObjectsOk.create {objects : Nat → Option ClientObject} {sockets : Socket → Option Nat} {made : Nat}
    {usePacket recvCb : Bool} (ok : ObjectsOk objects sockets made) (notNull : object ≠ 0) (number : fd ≠ 0)
    (closed : sockets fd = none) :
    ObjectsOk (Function.update objects object (some ⟨made + 1, fd, usePacket, recvCb⟩))
      (Function.update sockets fd (some (made + 1))) (made + 1) where
  null := by rw [Function.update_of_ne notNull.symm, ok.null]
  closed := by rw [Function.update_of_ne number.symm, ok.closed]
  socket := by
    intro a attributes here connected
    by_cases new : a = object
    · subst new
      simp only [Function.update_self, Option.some.injEq] at here
      subst here
      simp
    · rw [Function.update_of_ne new] at here
      have socket := ok.socket a attributes here connected
      have different : attributes.fd ≠ fd := by
        rintro same
        rw [same, closed] at socket
        cases socket
      rw [Function.update_of_ne different, socket]
  distinct := by
    have bound : ∀ a attributes, Function.update objects object (some ⟨made + 1, fd, usePacket, recvCb⟩) a =
        some attributes → a = object ∧ attributes.client = made + 1 ∨
          objects a = some attributes ∧ attributes.client ≤ made := by
      intro a attributes here
      by_cases new : a = object
      · subst new
        simp only [Function.update_self, Option.some.injEq] at here
        exact .inl ⟨rfl, here ▸ rfl⟩
      · rw [Function.update_of_ne new] at here
        exact .inr ⟨here, ok.bounded a attributes here⟩
    intro a b left right hereA hereB same
    rcases bound a left hereA with ⟨rfl, newA⟩ | ⟨oldA, belowA⟩
    · rcases bound b right hereB with ⟨rfl, _⟩ | ⟨oldB, belowB⟩
      · rfl
      · omega
    · rcases bound b right hereB with ⟨rfl, newB⟩ | ⟨oldB, belowB⟩
      · omega
      · exact ok.distinct a b left right oldA oldB same
  bounded := by
    intro a attributes here
    by_cases new : a = object
    · subst new
      simp only [Function.update_self, Option.some.injEq] at here
      subst here
      exact Nat.le_refl _
    · rw [Function.update_of_ne new] at here
      exact Nat.le_succ_of_le (ok.bounded a attributes here)

theorem Owned.create {usePacket recvCb : Bool} (owned : s.Owned) (idle : s.users u = .idle)
    (step : s.create u object fd usePacket recvCb = some s') (unused : ¬ s.NumberInUse fd none) :
    s'.Owned := by
  unfold Clients.create at step
  split at step
  · next free =>
    obtain ⟨notNull, free, number, closed⟩ := free
    cases step
    have clients : ∀ a client, s.clientAt a = some client →
        (Function.update s.objects object (some ⟨s.made + 1, fd, usePacket, recvCb⟩) a).map
          ClientObject.client = some client := by
      intro a client here
      have different : a ≠ object := by
        rintro rfl
        simp [clientAt, free] at here
      rw [Function.update_of_ne different]
      exact here
    constructor
    · refine Transfer.custody (?_ : Transfer (fun _ => False) s.Allocated _ s.held _) owned.custody
      refine .gain (.user u) object (fun used => used free) (fun a => ?_) ?_ fun p other => ?_
      · by_cases here : a = object
        · subst here
          simp [Allocated, Clients.setUser]
        · simp [Allocated, Clients.setUser, here]
      · rw [held_setUser]
        simp [held, addressAt, idle, UserPoint.object]
      · rw [held_setUser_other other]
        rfl
    · exact owned.objects.create notNull number closed
    · exact fun h a here => clients a _ (owned.handles h a here)
    · intro v h
      by_cases here : v = u
      · subst here
        simp [Clients.setUser]
      · simpa [Clients.setUser, here] using owned.users v h
    · exact owned.queue
    · intro c
      refine ⟨fun h a fetches => ?_, fun h other reads owner socket => ?_, (owned.threads c).carries⟩
      · exact clients a _ ((owned.threads c).fetching h a fetches)
      · have different : other ≠ fd := by
          rintro rfl
          exact unused ⟨c, (h, other), reads, rfl, by simp⟩
        simp only [Clients.setUser, Function.update_of_ne different] at socket
        exact (owned.threads c).reads h other reads owner socket
    · refine ⟨owned.process.awaits, fun event a uses => ?_, owned.process.copied⟩
      exact clients a _ (owned.process.uses event a uses)
    · exact owned.passed
  · cases step

/-- What a handle had is nowhere when the handle is given to another object. -/
theorem custody_register {handle : ClientHandle} (owned : s.Owned) (creating : s.users u = .creating object)
    (notNull : handle.object = some object) :
    Custody s.Allocated ((s.setHandle h handle).setUser u .idle).held := by
  have emptied : Custody s.Allocated (Function.update s.held (.handle h) 0) := by
    refine Transfer.custody (?_ : Transfer (fun _ => True) s.Allocated _ s.held _) owned.custody
    have nothing : Function.update s.held (.handle h) 0 (.handle h) ≤ s.held (.handle h) := by
      rw [Function.update_self]
      exact Multiset.zero_le _
    exact .leak (.handle h) (fun _ => Iff.rfl) nothing (fun _ _ => .inr trivial) fun p other => by
      simp [other]
  refine Transfer.custody (?_ : Transfer (fun _ => False) s.Allocated _ _ _) emptied
  refine .hand (.user u) (.handle h) object (by simp) (fun _ => Iff.rfl) ?_ ?_ fun p notUser notHandle => ?_
  · rw [held_setUser]
    simp [held, addressAt, creating, UserPoint.object]
  · rw [held_setUser_other (by simp)]
    simp [held, addressAt, Clients.setHandle, notNull]
  · rw [held_setUser_other notUser, Function.update_of_ne notHandle]
    cases p with
    | user v => rfl
    | handle k =>
        have different : k ≠ h := fun same => notHandle (same ▸ rfl)
        simp [held, addressAt, Clients.setHandle, different]

/-- What it means that nothing refers to a handle. -/
theorem not_referred : ¬ s.Referred h ↔ (∀ event ∈ s.queue, event.handle ≠ h) ∧
    (∀ event, s.process.awaits = some event → event.handle ≠ h) ∧
    ∀ c, (∀ object, (s.threads c).fetching ≠ some (h, object)) ∧
      (∀ owner, (s.threads c).carries ≠ some (h, owner)) ∧
      ∀ fd, (s.threads c).reads = some (h, fd) → s.sockets fd = none := by
  simp [Referred]

theorem Owned.register {allocated : Nat} (owned : s.Owned) (creating : s.users u = .creating object)
    (step : s.register u object allocated = some s')
    (unreferred : ¬ s.Referred (s.newHandle allocated)) : s'.Owned := by
  unfold Clients.register at step
  split at step
  · cases step
  · cases step
    have used : s.Allocated object := owned.custody.used (.user u) object (by
      simp [held, addressAt, creating, UserPoint.object])
    obtain ⟨attributes, there⟩ := Option.ne_none_iff_exists'.mp used
    have notNull : object ≠ 0 := by
      rintro rfl
      exact used owned.objects.null
    obtain ⟨noEvent, notAwaited, noThread⟩ := not_referred.mp unreferred
    constructor
    · exact custody_register owned creating (by simp [ClientHandle.object, notNull])
    · exact owned.objects
    · intro h a here
      by_cases same : h = s.newHandle allocated
      · subst same
        simp only [Clients.setUser, Clients.setHandle, Function.update_self, ClientHandle.object, notNull,
          if_false, Option.some.injEq] at here
        subst here
        simp [Clients.setUser, Clients.setHandle, clientAt, there]
      · simp only [Clients.setUser, Clients.setHandle, Function.update_of_ne same] at here ⊢
        exact owned.handles h a here
    · intro v h
      by_cases here : v = u
      · subst here
        simp [Clients.setUser]
      · simpa [Clients.setUser, Clients.setHandle, here] using owned.users v h
    · intro event member
      have other := noEvent event member
      simpa [Clients.setUser, other] using owned.queue event member
    · intro c
      obtain ⟨notFetching, notCarrying, closed⟩ := noThread c
      refine ⟨fun h a fetches => ?_, fun h fd reads owner socket => ?_, fun h owner carries => ?_⟩
      · have other : h ≠ s.newHandle allocated := fun same => notFetching a (same ▸ fetches)
        simpa [Clients.setUser, Clients.setHandle, clientAt, other] using
          (owned.threads c).fetching h a fetches
      · have other : h ≠ s.newHandle allocated := by
          intro same
          have shut : s.sockets fd = none := closed fd (same ▸ reads)
          exact absurd (shut.symm.trans socket) (by simp)
        simpa [Clients.setUser, other] using (owned.threads c).reads h fd reads owner socket
      · have other : h ≠ s.newHandle allocated := fun same => notCarrying owner (same ▸ carries)
        simpa [Clients.setUser, other] using (owned.threads c).carries h owner carries
    · refine ⟨fun event awaits => ?_, owned.process.uses, owned.process.copied⟩
      have other : event.handle ≠ s.newHandle allocated := notAwaited event awaits
      simpa [Clients.setUser, other] using owned.process.awaits event awaits
    · exact owned.passed

theorem Owned.detach (owned : s.Owned) (fetched : s.users u = .reading h (.fetched object))
    (once : (s.handles h).obj = object) :
    ((s.setHandle h { s.handles h with obj := 0 }).setUser u (.detached h object)).Owned := by
  have notNull : object ≠ 0 := by
    rintro rfl
    exact owned.users u h fetched
  constructor
  · refine Transfer.custody (?_ : Transfer (fun _ => False) s.Allocated _ s.held _) owned.custody
    refine .hand (.handle h) (.user u) object (by simp) (fun _ => Iff.rfl) ?_ ?_ fun p notHandle notUser => ?_
    · rw [held_setUser_other (by simp)]
      simp [held, addressAt, Clients.setHandle, ClientHandle.object, once, notNull]
    · rw [held_setUser]
      simp [held, addressAt, fetched, UserPoint.object]
    · rw [held_setUser_other notUser]
      cases p with
      | user v => rfl
      | handle k =>
          have different : k ≠ h := fun same => notHandle (same ▸ rfl)
          simp [held, addressAt, Clients.setHandle, different]
  · exact owned.objects
  · intro k a here
    by_cases same : k = h
    · subst same
      simp [Clients.setUser, Clients.setHandle, ClientHandle.object] at here
    · simp only [Clients.setUser, Clients.setHandle, Function.update_of_ne same] at here
      exact owned.handles k a here
  · intro v k
    by_cases here : v = u
    · subst here
      simp [Clients.setUser]
    · simpa [Clients.setUser, Clients.setHandle, here] using owned.users v k
  · exact owned.queue
  · exact fun c => (owned.threads c).keep (fun _ => rfl) rfl fun _ _ socket => socket
  · exact owned.process.keep (fun _ => rfl) rfl
  · exact owned.passed

/-- The socket of an object that is freed was only its own. -/
theorem ObjectsOk.free {objects : Nat → Option ClientObject} {sockets : Socket → Option Nat} {made : Nat}
    {attributes : ClientObject} (ok : ObjectsOk objects sockets made)
    (there : objects object = some attributes) :
    ObjectsOk (Function.update objects object none) (Function.update sockets attributes.fd none) made := by
  have before : ∀ a left, Function.update objects object none a = some left →
      a ≠ object ∧ objects a = some left := by
    intro a left here
    by_cases same : a = object
    · subst same
      simp at here
    · rw [Function.update_of_ne same] at here
      exact ⟨same, here⟩
  refine ⟨?_, ?_, fun a left here connected => ?_, fun a b left right hereA hereB same => ?_,
    fun a left here => ?_⟩
  · by_cases same : (0 : Nat) = object
    · rw [← same, Function.update_self]
    · rw [Function.update_of_ne same, ok.null]
  · by_cases same : (0 : Nat) = attributes.fd
    · rw [← same, Function.update_self]
    · rw [Function.update_of_ne same, ok.closed]
  · obtain ⟨other, here⟩ := before a left here
    have socket := ok.socket a left here connected
    have different : left.fd ≠ attributes.fd := by
      intro same
      exact other (ok.distinct a object left attributes here there (ok.owner there (same ▸ socket)))
    rw [Function.update_of_ne different, socket]
  · exact ok.distinct a b left right (before a left hereA).2 (before b right hereB).2 same
  · exact ok.bounded a left (before a left here).2

theorem Owned.freeObject {point : UserPoint} (owned : s.Owned) (holds : (s.users u).object = some object)
    (nothing : point.object = none) (notNull : ∀ h, point ≠ .reading h (.fetched 0))
    (step : s.freeObject u object point = some s') (unused : ¬ s.AddressInUse object) : s'.Owned := by
  obtain ⟨attributes, there, rfl⟩ := Option.map_eq_some_iff.mp step
  obtain ⟨notUsed, notFetched⟩ : (∀ event, s.process.uses ≠ some (event, object)) ∧
      ∀ c h, (s.threads c).fetching ≠ some (h, object) := by
    simpa [AddressInUse] using unused
  have clients : ∀ a, a ≠ object → (Function.update s.objects object none a).map ClientObject.client =
      s.clientAt a := by
    intro a other
    rw [Function.update_of_ne other]
    rfl
  have sockets : ∀ fd owner, Function.update s.sockets attributes.fd none fd = some owner →
      s.sockets fd = some owner := by
    intro fd owner socket
    by_cases same : fd = attributes.fd
    · subst same
      simp at socket
    · rwa [Function.update_of_ne same] at socket
  constructor
  · refine Transfer.custody (?_ : Transfer (fun _ => False) s.Allocated _ s.held _) owned.custody
    refine .lose (.user u) object (fun a => ?_) ?_ fun p other => ?_
    · by_cases here : a = object
      · subst here
        simp [Allocated, Clients.setUser]
      · simp [Allocated, Clients.setUser, here]
    · rw [held_setUser, nothing]
      simp [held, addressAt, holds]
    · rw [held_setUser_other other]
      rfl
  · exact owned.objects.free there
  · intro h a here
    have other : a ≠ object := by
      rintro rfl
      have atHandle : a ∈ s.held (.handle h) := by
        have before : (s.handles h).object = some a := here
        simp [held, addressAt, before]
      have atUser : a ∈ s.held (.user u) := by
        simp [held, addressAt, holds]
      cases owned.custody.alone _ _ a atHandle atUser
    exact (clients a other).trans (owned.handles h a here)
  · intro v h
    by_cases here : v = u
    · subst here
      simpa [Clients.setUser] using notNull h
    · simpa [Clients.setUser, here] using owned.users v h
  · exact owned.queue
  · intro c
    refine ⟨fun h a fetches => ?_, fun h fd reads owner socket => ?_, (owned.threads c).carries⟩
    · have other : a ≠ object := by
        rintro rfl
        exact notFetched c h fetches
      exact (clients a other).trans ((owned.threads c).fetching h a fetches)
    · exact (owned.threads c).reads h fd reads owner (sockets fd owner socket)
  · refine ⟨owned.process.awaits, fun event a uses => ?_, owned.process.copied⟩
    have other : a ≠ object := by
      rintro rfl
      exact notUsed event uses
    exact (clients a other).trans (owned.process.uses event a uses)
  · exact owned.passed

private theorem readNext_notNull {before : ReadPoint} : s.readNext h before ≠ some (.fetched 0) := by
  intro reads
  cases before with
  | counted =>
      simp only [readNext, Option.some.injEq] at reads
      split at reads
      · cases reads
      · cases reads
  | locked =>
      simp only [readNext] at reads
      split at reads
      · cases reads
      · next notNull =>
        simp only [Option.some.injEq, ReadPoint.fetched.injEq] at reads
        exact notNull reads
  | fetched object =>
      obtain ⟨attributes, _, same⟩ := Option.map_eq_some_iff.mp reads
      cases same
  | leaving result => cases reads

theorem Owned.userStep {action : UserAction} (owned : s.Owned)
    (step : s.userStep u action (s.users u) = some s') (kept : ¬ RecyclesClient (.user u action) s) :
    s'.Owned := by
  unfold Clients.userStep at step
  split at step
  · next object fd usePacket recvCb here => exact owned.create here step kept
  · next allocated object here => exact owned.register here step kept
  · next h found here =>
    cases step
    split
    · exact owned.reference.setUser (by rw [show (s.reference h).users u = .idle from here]; rfl) (by simp)
    · exact owned
  · next h result here =>
    cases step
    exact owned.dereference.setUser (by
      rw [show (s.dereference h).users u = .reading h (.leaving result) from here]
      rfl) (by simp)
  · next h here =>
    obtain ⟨after, reads, rfl⟩ := Option.map_eq_some_iff.mp step
    refine owned.setUser (by rw [here]; rfl) fun k same => ?_
    cases same
    exact readNext_notNull reads
  · next h here =>
    obtain ⟨after, reads, rfl⟩ := Option.map_eq_some_iff.mp step
    refine owned.setUser (by rw [here]; rfl) fun k same => ?_
    cases same
    exact readNext_notNull reads
  · next h object here =>
    cases step
    refine owned.detach here ?_
    have once : ¬ s.DeletedTwice (s.users u) := kept
    rw [here] at once
    exact not_not.mp once
  · next h object here =>
    refine owned.freeObject (by rw [here]; rfl) rfl (by simp) step fun used => kept ?_
    exact ⟨object, by rw [here]; rfl, used⟩
  · next object here =>
    refine owned.freeObject (by rw [here]; rfl) rfl (by simp) step fun used => kept ?_
    exact ⟨object, by rw [here]; rfl, used⟩
  · cases step

/-!
## Connecting
-/

/-- The object of a client gets another socket number. -/
theorem Owned.setFd {attributes : ClientObject} {sockets : Socket → Option Nat} (owned : s.Owned)
    (there : s.objects object = some attributes)
    (ok : ObjectsOk (Function.update s.objects object (some { attributes with fd })) sockets s.made)
    (own : ∀ c h other, (s.threads c).reads = some (h, other) → ∀ owner, sockets other = some owner →
      owner = s.named h) :
    Owned { s with objects := Function.update s.objects object (some { attributes with fd }), sockets } := by
  have clients : ∀ a, (Function.update s.objects object (some { attributes with fd }) a).map
      ClientObject.client = s.clientAt a := by
    intro a
    by_cases same : a = object
    · subst same
      simp [clientAt, there]
    · rw [Function.update_of_ne same]
      rfl
  refine ⟨owned.custody.mono fun p a here => ?_, ok, fun h a here => ?_, owned.users, owned.queue,
    fun c => ?_, ?_, owned.passed⟩
  · have used := owned.custody.used p a here
    by_cases same : a = object
    · subst same
      simp [Allocated]
    · simpa [Allocated, same] using used
  · exact (clients a).trans (owned.handles h a here)
  · refine ⟨fun h a fetches => ?_, own c, (owned.threads c).carries⟩
    exact (clients a).trans ((owned.threads c).fetching h a fetches)
  · exact owned.process.keep clients rfl

/-- Another number for the object: the clients at the addresses are the same. -/
theorem ObjectsOk.setFd {objects : Nat → Option ClientObject} {sockets sockets' : Socket → Option Nat}
    {made : Nat} {attributes : ClientObject} (ok : ObjectsOk objects sockets made)
    (there : objects object = some attributes) (closed : sockets' 0 = none)
    (own : fd ≠ 0 → sockets' fd = some attributes.client)
    (others : ∀ a left, a ≠ object → objects a = some left → left.fd ≠ 0 →
      sockets' left.fd = sockets left.fd) :
    ObjectsOk (Function.update objects object (some { attributes with fd })) sockets' made := by
  have before : ∀ a left, Function.update objects object (some { attributes with fd }) a = some left →
      ∃ old, objects a = some old ∧ left.client = old.client ∧
        (a = object ∧ left = { attributes with fd } ∨ a ≠ object ∧ left = old) := by
    intro a left here
    by_cases same : a = object
    · subst same
      simp only [Function.update_self, Option.some.injEq] at here
      exact ⟨attributes, there, here ▸ rfl, .inl ⟨rfl, here.symm⟩⟩
    · rw [Function.update_of_ne same] at here
      exact ⟨left, here, rfl, .inr ⟨same, rfl⟩⟩
  refine ⟨?_, closed, fun a left here connected => ?_, fun a b left right hereA hereB same => ?_,
    fun a left here => ?_⟩
  · have different : (0 : Nat) ≠ object := by
      rintro rfl
      rw [ok.null] at there
      cases there
    rw [Function.update_of_ne different, ok.null]
  · obtain ⟨old, was, client, ⟨rfl, rfl⟩ | ⟨other, rfl⟩⟩ := before a left here
    · exact own connected
    · rw [others a left other was connected]
      exact ok.socket a left was connected
  · obtain ⟨oldA, wasA, clientA, _⟩ := before a left hereA
    obtain ⟨oldB, wasB, clientB, _⟩ := before b right hereB
    exact ok.distinct a b oldA oldB wasA wasB (clientA.symm.trans (same.trans clientB))
  · obtain ⟨old, was, client, _⟩ := before a left here
    exact client ▸ ok.bounded a old was

theorem Owned.disconnect (owned : s.Owned) (step : s.setFd h 0 = some s') : s'.Owned := by
  unfold Clients.setFd at step
  split at step
  · obtain ⟨attributes, there, rfl⟩ := Option.map_eq_some_iff.mp step
    have fewer : ∀ other owner, Function.update s.sockets attributes.fd none other = some owner →
        s.sockets other = some owner := by
      intro other owner socket
      by_cases same : other = attributes.fd
      · subst same
        simp at socket
      · rwa [Function.update_of_ne same] at socket
    refine owned.setFd there (owned.objects.setFd there ?_ (fun number => absurd rfl number) ?_) ?_
    · rw [if_pos rfl]
      by_cases same : (0 : Nat) = attributes.fd
      · rw [← same, Function.update_self]
      · rw [Function.update_of_ne same, owned.objects.closed]
    · intro a left other was connected
      have socket := owned.objects.socket a left was connected
      have different : left.fd ≠ attributes.fd := fun same => other
        (owned.objects.distinct a _ left attributes was there (owned.objects.owner there (same ▸ socket)))
      rw [if_pos rfl, Function.update_of_ne different]
    · intro c k other reads owner socket
      rw [if_pos rfl] at socket
      exact (owned.threads c).reads k other reads owner (fewer other owner socket)
  · cases step

theorem Owned.socket (owned : s.Owned) (number : fd ≠ 0) (closed : s.sockets fd = none)
    (step : s.setFd h fd = some s') (unused : ¬ s.NumberInUse fd (some h)) : s'.Owned := by
  unfold Clients.setFd at step
  split at step
  · obtain ⟨attributes, there, rfl⟩ := Option.map_eq_some_iff.mp step
    refine owned.setFd there (owned.objects.setFd there ?_ (fun _ => Function.update_self ..) ?_) ?_
    · rw [Function.update_of_ne number.symm, owned.objects.closed]
    · intro a left _ was connected
      have socket := owned.objects.socket a left was connected
      have different : left.fd ≠ fd := by
        intro same
        rw [same, closed] at socket
        cases socket
      rw [Function.update_of_ne different]
    · intro c k other reads owner socket
      by_cases same : other = fd
      · subst same
        have mine : k = h := by
          by_contra different
          exact unused ⟨c, (k, other), reads, rfl, by simp [different]⟩
        subst mine
        have notNull : (s.handles k).obj ≠ 0 := by
          intro null
          rw [null, owned.objects.null] at there
          cases there
        have client := owned.clientAt_obj notNull
        simp only [clientAt, there, Option.map_some, Option.some.injEq] at client
        simp only [Function.update_self, Option.some.injEq] at socket
        exact socket ▸ client
      · rw [Function.update_of_ne same] at socket
        exact (owned.threads c).reads k other reads owner socket
  · cases step

theorem Owned.deleteHandle (owned : s.Owned) : (s.deleteHandle h).Owned := by
  simp only [Clients.deleteHandle]
  split
  · exact owned
  · split
    · exact owned.setHandle rfl
    · split
      · exact owned.setHandle rfl
      · have dead : (s.setHandle h { s.handles h with alive := false }).Owned := owned.setHandle rfl
        exact dead.keep rfl rfl rfl rfl rfl dead.users dead.queue dead.threads dead.process dead.passed

/-- A step that gives nothing away too early leaves everything with its client. -/
theorem Owned.next {size : Nat} {step : ClientStep n m} (owned : s.Owned)
    (steps : next size step s = some s') (kept : ¬ RecyclesClient step s) : s'.Owned := by
  cases step with
  | user u action => exact owned.userStep steps kept
  | thread c action => exact owned.threadStep steps
  | process action => exact owned.processStep steps
  | socket h fd =>
      simp only [Clients.next] at steps
      split at steps
      · next free => exact owned.socket free.2.1 free.2.2 steps kept
      · cases steps
  | start h c =>
      simp only [Clients.next] at steps
      split at steps
      · cases steps
        exact owned.setThread (threadOwned_nothing rfl rfl rfl)
      · cases steps
  | disconnect h => exact owned.disconnect steps
  | terminate c =>
      cases steps
      exact owned.setThread (threadOwned_nothing rfl rfl rfl)
  | deleteHandle h =>
      cases steps
      exact owned.deleteHandle

private theorem init_owned : (init : Clients n m).Owned where
  custody := by
    have nowhere : ∀ p, (init : Clients n m).held p = 0 := by
      intro p
      cases p <;> rfl
    exact ⟨fun p => by simp [nowhere p], fun p q t here => by simp [nowhere p] at here,
      fun p t here => by simp [nowhere p] at here⟩
  objects := ⟨rfl, rfl, (fun _ _ impossible => by cases impossible), (fun _ _ _ _ impossible => by cases impossible),
    fun _ _ impossible => by cases impossible⟩
  handles := fun _ _ impossible => by cases impossible
  users := fun _ _ idle => by cases idle
  queue := fun _ member => by cases member
  threads := fun _ => threadOwned_nothing rfl rfl rfl
  process :=
    ⟨(fun _ impossible => by cases impossible), (fun _ _ impossible => by cases impossible), fun _ _ impossible => by cases impossible⟩
  passed := fun _ member => by cases member

/-- In every run in which no handle, socket number or memory is recycled while something
still refers to it, what was received from a client's socket goes to that client. -/
theorem passed_ownClient {size : Nat} {steps : List (ClientStep n m)} {client : Nat} {target : Target}
    (kept : Meets (next size) (fun step s => ¬ RecyclesClient step s) steps init)
    (runs : run (next size) steps init = some s) (passed : (client, target) ∈ s.passed) :
    target.Of client := by
  have invariant : s.Owned := by
    refine run_invariant_of_meets (P := fun s => s.Owned) ?_ init_owned kept runs
    exact fun step s s' owned kept steps => owned.next steps kept
  exact invariant.passed (client, target) passed

/-- A client is made and connected; its thread receives a chunk and posts it. -/
def untilPosted : List (ClientStep 1 1) :=
  [.user only (.create 100 5 false true), .user only (.register 10), .start 10 only, .thread only (.lookup true),
    .thread only .read, .thread only .read, .thread only .read, .thread only .read, .thread only (.recv (some [1])),
    .thread only .post]

/-- The event thread takes the event and calls the callback. -/
def processed : List (ClientStep 1 1) :=
  [.process .pop, .process (.lookup true), .process .read, .process .read, .process .read, .process .read,
    .process (.process true)]

theorem passed_ownClient_posted :
    ∃ s, run (next 1000) (untilPosted ++ processed) init = some s ∧ (1, Target.callback 1) ∈ s.passed ∧
      (Target.callback 1).Of 1 := by
  have kept : Meets (next 1000) (fun step s => ¬ RecyclesClient step s) (untilPosted ++ processed) init := by
    decide
  exact ⟨_, rfl, by decide, passed_ownClient kept rfl (by decide)⟩

/-- The client is deleted, and the next one gets its handle, while the event is in the
queue. -/
theorem passed_otherClient :
    ∃ s, run (next 1000) (untilPosted ++
        [.user 0 (.delete 10 true), .user 0 .read, .user 0 .read, .user 0 .detach, .user 0 .free,
          .user 0 .read, .deleteHandle 10, .user 0 (.create 200 6 false true), .user 0 (.register 11)] ++
        processed) init = some s ∧
      (1, Target.callback 2) ∈ s.passed ∧ ¬ (Target.callback 2).Of 1 :=
  ⟨_, rfl, by decide, by decide⟩

end Clients

end GbfLibrary.Enet
