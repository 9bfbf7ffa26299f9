import GbfLibrary.Enet.ConnectionOwners

/-!
# Whom a disconnect event is about

Connections are told apart by their descriptors only, which are the process's. A
disconnect event removes the client it was posted for, and closes its socket, as long
as nobody gets the descriptor before.
-/

set_option autoImplicit false

namespace GbfLibrary.Enet

open Systems

/-- The descriptor and the client object for which a disconnect event is posted next. -/
def WorkerPoint.failedOn : WorkerPoint → Option (Socket × Nat)
  | .busy _ fd _ _ (.failed object) => some (fd, object)
  | _ => none

/-- The descriptor that `recv` is called for next. -/
def WorkerPoint.receivesFrom : WorkerPoint → Option Socket
  | .busy _ fd _ _ .filling => some fd
  | _ => none

/-- The server for which a connection is to be accepted. -/
def HandlerPoint.request : HandlerPoint → Option Nat
  | .handling (.connectRequest k) => some k
  | _ => none

namespace Traffic

variable {E : Setup} {s s' : Traffic E} {w : Fin E.workers} {k object : Nat} {fd : Socket}

/-- A disconnect event for the client is to be posted, posted or being processed. -/
def Pending (s : Traffic E) (k : Nat) (fd : Socket) (object : Nat) : Prop :=
  (∃ w, E.serverOf w = k ∧ (s.workers w).point.failedOn = some (fd, object)) ∨
    .serverDisconnect k fd object ∈ s.queue ∨
    s.handler = .handling (.serverDisconnect k fd object)

/-- A disconnect event of a server that was not deleted is to be posted for the
descriptor, or in the queue. -/
def Awaited (s : Traffic E) (fd : Socket) : Prop :=
  (∃ w, (s.servers (E.serverOf w)).alive = true ∧ (s.workers w).point.failedOn.map Prod.fst = some fd) ∨
    ∃ connection ∈ s.queue.filterMap Event.connection,
      (s.servers connection.1).alive = true ∧ connection.2 = fd

instance (s : Traffic E) (fd : Socket) : Decidable (s.Awaited fd) :=
  inferInstanceAs (Decidable (_ ∨ _))

/-- `accept` returns a descriptor for which a disconnect event is to come. -/
def RecyclesEarly : TrafficStep E → Traffic E → Prop
  | .handler (.accept (some fd)), s =>
      (∃ k ∈ s.handler.request, (s.servers k).alive = true) ∧ s.Awaited fd
  | _, _ => False

instance : (step : TrafficStep E) → (s : Traffic E) → Decidable (RecyclesEarly step s)
  | .handler (.accept (some fd)), s => inferInstanceAs (Decidable
      ((∃ k ∈ s.handler.request, (s.servers k).alive = true) ∧ s.Awaited fd))
  | .handler (.accept none), _ | .handler .pop, _ | .handler (.add _ _), _ | .handler .process, _
  | .handler .remove, _ | .handler .free, _ | .worker _ _, _ | .receiver _ _, _ | .listen _, _
  | .disconnect _ _, _ | .stop _, _ | .delete _, _ => .isFalse id

/-- `recv` fails for a worker on a descriptor that another server accepted since. -/
def FailsElsewhere : TrafficStep E → Traffic E → Prop
  | .worker w (.recv .error), s => (s.servers (E.serverOf w)).alive = true ∧
      ∃ fd ∈ (s.workers w).point.receivesFrom, (s.latest fd).1 ≠ E.serverOf w
  | _, _ => False

instance : (step : TrafficStep E) → (s : Traffic E) → Decidable (FailsElsewhere step s)
  | .worker w (.recv .error), s => inferInstanceAs (Decidable
      ((s.servers (E.serverOf w)).alive = true ∧
        ∃ fd ∈ (s.workers w).point.receivesFrom, (s.latest fd).1 ≠ E.serverOf w))
  | .worker _ (.recv (.data _ _)), _ | .worker _ .pop, _ | .worker _ (.call _), _ | .worker _ .ask, _
  | .worker _ (.select _), _ | .worker _ .alloc, _ | .worker _ .post, _ | .worker _ .free, _
  | .worker _ .done, _ | .worker _ .quit, _ | .receiver _ _, _ | .handler _, _ | .listen _, _
  | .disconnect _ _, _ | .stop _, _ | .delete _, _ => .isFalse id

/-- A step after which a disconnect event may find no client, or another one than the
one that it was posted for. -/
def Misleads (step : TrafficStep E) (s : Traffic E) : Prop :=
  RecyclesEarly step s ∨ FailsElsewhere step s ∨ LeavesUnbound step s

instance (step : TrafficStep E) (s : Traffic E) : Decidable (Misleads step s) :=
  inferInstanceAs (Decidable (_ ∨ _))

/-- The clients that are waited for are the last that their descriptors were given
to. -/
structure LatestOk (s : Traffic E) : Prop where
  pending : ∀ k fd object, (s.servers k).alive = true → s.Pending k fd object → s.latest fd = (k, object)
  adding : ∀ k fd object, s.handler = .adding k fd object → s.latest fd = (k, object)
  tree : ∀ k fd object last, (s.servers k).alive = true → (s.servers k).clientsTree fd = some object →
    s.latest fd = (k, last) → object = last ∨ s.handler = .adding k fd last

theorem LatestOk.keep (ok : s.LatestOk) (latest : s'.latest = s.latest)
    (servers : ∀ k, (s'.servers k).clientsTree = (s.servers k).clientsTree ∧
      ((s'.servers k).alive = true → (s.servers k).alive = true))
    (adding : ∀ k fd object, s'.handler = .adding k fd object ↔ s.handler = .adding k fd object)
    (pending : ∀ k fd object, s'.Pending k fd object → s.Pending k fd object) : s'.LatestOk where
  pending := by
    intro k fd object alive waits
    rw [latest]
    exact ok.pending k fd object ((servers k).2 alive) (pending k fd object waits)
  adding := by
    intro k fd object adds
    rw [latest]
    exact ok.adding k fd object ((adding k fd object).mp adds)
  tree := by
    intro k fd object last alive entry given
    obtain ⟨tree, before⟩ := servers k
    rw [adding]
    rw [tree] at entry
    rw [latest] at given
    exact ok.tree k fd object last (before alive) entry given

private theorem pending_of_worker {worker : Worker} (workers : s'.workers = Function.update s.workers w worker)
    (queue : s'.queue = s.queue) (handler : s'.handler = s.handler)
    (same : worker.point.failedOn = none ∨ worker.point.failedOn = (s.workers w).point.failedOn)
    (waits : s'.Pending k fd object) : s.Pending k fd object := by
  rcases waits with ⟨v, server, fails⟩ | queued | handled
  · rw [workers] at fails
    by_cases here : v = w
    · subst here
      rw [Function.update_self] at fails
      rcases same with nothing | same
      · simp [nothing] at fails
      · exact .inl ⟨v, server, same ▸ fails⟩
    · rw [Function.update_of_ne here] at fails
      exact .inl ⟨v, server, fails⟩
  · exact .inr (.inl (queue ▸ queued))
  · exact .inr (.inr (handler ▸ handled))

theorem LatestOk.worker {worker : Worker} (ok : s.LatestOk)
    (workers : s'.workers = Function.update s.workers w worker) (queue : s'.queue = s.queue)
    (handler : s'.handler = s.handler) (latest : s'.latest = s.latest)
    (servers : ∀ k, (s'.servers k).clientsTree = (s.servers k).clientsTree ∧
      ((s'.servers k).alive = true → (s.servers k).alive = true))
    (same : worker.point.failedOn = none ∨ worker.point.failedOn = (s.workers w).point.failedOn) :
    s'.LatestOk :=
  ok.keep latest servers (fun k fd object => by rw [handler])
    fun k fd object => pending_of_worker workers queue handler same

/-- Steps of the event thread that register and remove no client. -/
theorem LatestOk.handler (ok : s.LatestOk) (workers : s'.workers = s.workers)
    (latest : s'.latest = s.latest) (servers : s'.servers = s.servers)
    (adding : ∀ k fd object, s'.handler ≠ .adding k fd object ∧ s.handler ≠ .adding k fd object)
    (events : ∀ event, event ∈ s'.queue ∨ s'.handler = .handling event →
      event ∈ s.queue ∨ s.handler = .handling event) : s'.LatestOk := by
  refine ok.keep latest (fun k => by simp [servers]) (fun k fd object => ?_) fun k fd object waits => ?_
  · exact ⟨fun adds => absurd adds (adding k fd object).1,
    fun adds => absurd adds (adding k fd object).2⟩
  · rcases waits with ⟨w, server, fails⟩ | event
    · exact .inl ⟨w, server, workers ▸ fails⟩
    · exact .inr (events _ event)

/-- The event thread is done with an event that is not about a new client. -/
theorem LatestOk.idle {before : HandlerPoint} (ok : s.LatestOk) (here : s.handler = before)
    (notAdding : ∀ k fd object, before ≠ .adding k fd object) (workers : s'.workers = s.workers)
    (latest : s'.latest = s.latest) (servers : s'.servers = s.servers) (queue : s'.queue = s.queue)
    (done : ∀ event, s'.handler ≠ .handling event ∧ ∀ k fd object, s'.handler ≠ .adding k fd object) :
    s'.LatestOk := by
  refine ok.handler workers latest servers (fun k fd object => ?_) fun event waits => ?_
  · exact ⟨(done (.connectRequest k)).2 k fd object, here ▸ notAdding k fd object⟩
  · exact .inl (queue ▸ waits.resolve_right (done event).1)

/-- Posting an event that is no disconnect event. -/
theorem LatestOk.posted {event : Event} (ok : s.LatestOk) (nothing : event.connection = none)
    (latest : s'.latest = s.latest) (servers : s'.servers = s.servers) (handler : s'.handler = s.handler)
    (queue : s'.queue = s.queue ++ [event])
    (fails : ∀ w, (s'.workers w).point.failedOn = none ∨
      (s'.workers w).point.failedOn = (s.workers w).point.failedOn) : s'.LatestOk := by
  refine ok.keep latest (fun k => by simp [servers]) (fun k fd object => by rw [handler]) ?_
  rintro k fd object (⟨w, server, failed⟩ | queued | handled)
  · rcases fails w with nobody | same
    · simp [nobody] at failed
    · exact .inl ⟨w, server, same ▸ failed⟩
  · rw [queue] at queued
    rcases List.mem_append.mp queued with before | new
    · exact .inr (.inl before)
    · obtain rfl := List.mem_singleton.mp new
      cases nothing
  · exact .inr (.inr (handler ▸ handled))

/-- What is the same when the tasks of a server change. -/
theorem same_clients {k : Nat} {server : Server} (servers : s'.servers = Function.update s.servers k server)
    (tree : server.clientsTree = (s.servers k).clientsTree)
    (alive : server.alive = true → (s.servers k).alive = true) (j : Nat) :
    (s'.servers j).clientsTree = (s.servers j).clientsTree ∧
      ((s'.servers j).alive = true → (s.servers j).alive = true) := by
  by_cases same : j = k
  · subst same
    simp only [servers, Function.update_self]
    exact ⟨tree, alive⟩
  · simp [servers, same]

private theorem WorkerSteps.latestOk {action : WorkerAction} (steps : WorkerSteps w s action s')
    (ok : s.LatestOk) (own : ¬ FailsElsewhere (.worker w action) s) : s'.LatestOk := by
  cases steps with
  | popTask here tasks => exact ok.worker rfl rfl rfl rfl (same_clients rfl rfl id) (.inl rfl)
  | pushBack here => exact ok.worker rfl rfl rfl rfl (same_clients rfl rfl id) (.inl rfl)
  | @recvError refused fd readSet packet here =>
      refine ⟨?_, ok.adding, ok.tree⟩
      rintro k other object alive (⟨v, server, failed⟩ | event)
      · by_cases same : v = w
        · subst same
          simp only [moveWorker, setWorker, Function.update_self, WorkerPoint.failedOn, Option.some.injEq,
            Prod.mk.injEq] at failed
          obtain ⟨rfl, rfl⟩ := failed
          subst server
          have accepted : (s.latest fd).1 = E.serverOf v :=
            not_not.mp fun foreign => own ⟨alive, fd, by rw [here]; rfl, foreign⟩
          exact Prod.ext accepted rfl
        · simp only [moveWorker, setWorker, Function.update_of_ne same] at failed
          exact ok.pending k other object alive (.inl ⟨v, server, failed⟩)
      · exact ok.pending k other object alive (.inr event)
  | @postDisconnect refused fd readSet packet object here room =>
      refine ok.keep rfl (fun _ => ⟨rfl, id⟩) (fun _ _ _ => Iff.rfl) ?_
      rintro k other latest (⟨v, server, failed⟩ | queued | handled)
      · by_cases same : v = w
        · subst same
          simp [moveWorker, setWorker, WorkerPoint.failedOn] at failed
        · simp only [moveWorker, setWorker, Function.update_of_ne same] at failed
          exact .inl ⟨v, server, failed⟩
      · rcases List.mem_append.mp queued with before | new
        · exact .inr (.inl before)
        · cases List.mem_singleton.mp new
          exact .inl ⟨w, rfl, by rw [here]; rfl⟩
      · exact .inr (.inr handled)
  | postRecv here room =>
      refine ok.posted rfl rfl rfl rfl rfl fun v => ?_
      by_cases same : v = w
      · subst same
        simp [moveWorker, setWorker, WorkerPoint.failedOn]
      · simp [moveWorker, setWorker, same]
  | _ => exact ok.worker rfl rfl rfl rfl (fun _ => ⟨rfl, id⟩) (.inl rfl)

/-- The entry of a descriptor is its last client, or is removed. -/
theorem LatestOk.entry {server : Server} {entry : Option Nat} (ok : s.LatestOk)
    (workers : s'.workers = s.workers) (queue : s'.queue = s.queue) (handler : s'.handler = .idle)
    (latest : s'.latest = s.latest) (servers : s'.servers = Function.update s.servers k server)
    (alive : server.alive = (s.servers k).alive)
    (tree : server.clientsTree = Function.update (s.servers k).clientsTree fd entry)
    (last : ∀ object, entry = some object → s.latest fd = (k, object))
    (adds : ∀ j other object, s.handler = .adding j other object → (j, other) = (k, fd)) :
    s'.LatestOk := by
  have lived : ∀ j, (s'.servers j).alive = (s.servers j).alive := by
    intro j
    by_cases same : j = k
    · subst same
      simp [servers, alive]
    · simp [servers, same]
  constructor
  · rintro j other old living waits
    rw [latest]
    rw [lived] at living
    apply ok.pending j other old living
    rcases waits with ⟨w, owner, failed⟩ | queued | handled
    · exact .inl ⟨w, owner, workers ▸ failed⟩
    · exact .inr (.inl (queue ▸ queued))
    · rw [handler] at handled
      cases handled
  · intro j other old adding
    rw [handler] at adding
    cases adding
  · intro j other old new living present given
    rw [latest] at given
    rw [lived] at living
    by_cases same : (j, other) = (k, fd)
    · cases same
      simp only [servers, Function.update_self, tree] at present
      rw [last old present] at given
      exact .inl (Prod.ext_iff.mp given).2
    · have before : (s.servers j).clientsTree other = some old := by
        by_cases this : j = k
        · subst this
          have elsewhere : other ≠ fd := fun here => same (here ▸ rfl)
          simpa only [servers, Function.update_self, tree, Function.update_of_ne elsewhere] using present
        · simpa only [servers, Function.update_of_ne this] using present
      exact .inl ((ok.tree j other old new living before given).resolve_right fun adding =>
        same (adds j other _ adding))

/-- The client that is registered for a descriptor is the last that got it. -/
theorem LatestOk.register {server : Server} (ok : s.LatestOk) (adds : s.handler = .adding k fd object)
    (alive : server.alive = (s.servers k).alive)
    (tree : server.clientsTree = Function.update (s.servers k).clientsTree fd (some object)) :
    ({ s with handler := .idle }.setServer k server).LatestOk := by
  refine ok.entry rfl rfl rfl rfl rfl alive tree ?_ ?_
  · rintro new ⟨⟩
    exact ok.adding k fd object adds
  · intro j other old adding
    rw [adds] at adding
    cases adding
    rfl

/-- A client is not added, and nothing is in the tree for its descriptor as long as the
server is there. -/
theorem LatestOk.refuse (ok : s.LatestOk) (adds : s.handler = .adding k fd object)
    (workers : s'.workers = s.workers) (queue : s'.queue = s.queue) (servers : s'.servers = s.servers)
    (latest : s'.latest = s.latest) (done : s'.handler = .idle ∨ s'.handler = .crashed)
    (nothing : (s.servers k).alive = false ∨ (s.servers k).clientsTree fd = none) : s'.LatestOk := by
  have left : ∀ event j other old, s'.handler ≠ .handling event ∧ s'.handler ≠ .adding j other old := by
    intro event j other old
    rcases done with idle | crashed
    · simp [idle]
    · simp [crashed]
  constructor
  · rintro j other old living (⟨w, owner, failed⟩ | queued | handled)
    · rw [latest]
      exact ok.pending j other old (servers ▸ living) (.inl ⟨w, owner, workers ▸ failed⟩)
    · rw [latest]
      exact ok.pending j other old (servers ▸ living) (.inr (.inl (queue ▸ queued)))
    · exact absurd handled (left _ j other old).1
  · exact fun j other old adding => absurd adding (left (.connectRequest j) j other old).2
  · intro j other old last living entry given
    rw [servers] at living entry
    rw [latest] at given
    rcases ok.tree j other old last living entry given with same | adding
    · exact .inl same
    · rw [adds] at adding
      cases adding
      rcases nothing with dead | absent
      · rw [living] at dead
        cases dead
      · rw [entry] at absent
        cases absent

/-- A descriptor for which nobody waits is given to a new client. -/
theorem LatestOk.accept (ok : s.LatestOk) (handler : s'.handler = .adding k fd (s.objects + 1))
    (workers : s'.workers = s.workers) (queue : s'.queue = s.queue)
    (idle : ∀ j other old, s.handler ≠ .adding j other old) (servers : s'.servers = s.servers)
    (latest : s'.latest = Function.update s.latest fd (k, s.objects + 1))
    (unclaimed : ∀ j old, (s.servers j).alive = true → ¬ s.Pending j fd old) : s'.LatestOk := by
  have here : s'.latest fd = (k, s.objects + 1) := by simp [latest]
  have others : ∀ other, other ≠ fd → s'.latest other = s.latest other := fun other different => by
    simp [latest, different]
  constructor
  · rintro j other old living waits
    rw [servers] at living
    have before : s.Pending j other old := by
      rcases waits with ⟨w, owner, failed⟩ | queued | handled
      · exact .inl ⟨w, owner, workers ▸ failed⟩
      · exact .inr (.inl (queue ▸ queued))
      · rw [handler] at handled
        cases handled
    rw [others other]
    · exact ok.pending j other old living before
    · rintro rfl
      exact unclaimed j old living before
  · intro j other old adds
    rw [handler] at adds
    cases adds
    exact here
  · intro j other old last living entry given
    rw [servers] at living entry
    by_cases same : other = fd
    · subst same
      rw [here] at given
      cases given
      exact .inr handler
    · rw [others other same] at given
      exact .inl ((ok.tree j other old last living entry given).resolve_right (idle j other _))

/-- Whoever waits for a connection awaits its descriptor. -/
theorem Pending.awaited (pending : s.Pending k fd object) (living : (s.servers k).alive = true) :
    s.Awaited fd ∨ s.handler = .handling (.serverDisconnect k fd object) := by
  rcases pending with ⟨w, owner, failed⟩ | queued | handled
  · subst owner
    exact .inl (.inl ⟨w, living, by rw [failed]; rfl⟩)
  · exact .inl (.inr ⟨(k, fd), List.mem_filterMap.mpr ⟨_, queued, rfl⟩, living, rfl⟩)
  · exact .inr handled

private theorem HandlerSteps.latestOk {action : HandlerAction} (steps : HandlerSteps s action s')
    (ok : s.LatestOk) (late : ¬ RecyclesEarly (.handler action) s)
    (bound : ¬ LeavesUnbound (.handler action) s) : s'.LatestOk := by
  cases steps with
  | pop here queue =>
      refine ok.handler rfl rfl rfl (fun _ _ _ => by simp [here]) ?_
      rintro event (queued | handled)
      · exact .inl (queue ▸ List.mem_cons_of_mem _ queued)
      · cases handled
        exact .inl (queue ▸ List.mem_cons_self ..)
  | accept here alive unused =>
      refine ok.accept rfl rfl rfl (fun _ _ _ => by simp [here]) rfl rfl ?_
      intro j old living pending
      rcases pending.awaited living with awaited | handled
      · exact late ⟨⟨_, by rw [here]; rfl, alive⟩, awaited⟩
      · rw [here] at handled
        cases handled
  | addFailed here fails => exact ok.refuse here rfl rfl rfl rfl (.inl rfl) (fails.imp_right And.left)
  | addCrash here absent => exact ok.refuse here rfl rfl rfl rfl (.inr rfl) (.inr absent)
  | addUnbound here alive absent empty =>
      exact absurd ⟨_, by rw [here]; rfl, alive, absent, empty⟩ bound
  | replace here present => exact ok.register here rfl rfl
  | add here absent => exact ok.register here rfl rfl
  | remove here present =>
      exact ok.entry rfl rfl rfl rfl rfl rfl rfl (fun _ impossible => by cases impossible)
        (fun _ _ _ adding => by simp [here] at adding)
  | acceptNone here => exact ok.idle here (by simp) rfl rfl rfl rfl (by simp)
  | processServer isOpen here => exact ok.idle here (by simp) rfl rfl rfl rfl (by simp)
  | processClient here => exact ok.idle here (by simp) rfl rfl rfl rfl (by simp)
  | removeDead here dead => exact ok.idle here (by simp) rfl rfl rfl rfl (by simp)
  | crash here alive missing => exact ok.idle here (by simp) rfl rfl rfl rfl (by simp)
  | free here => exact ok.idle here (by simp) rfl rfl rfl rfl (by simp)

private theorem Steps.latestOk {step : TrafficStep E} (steps : Steps s step s') (ok : s.LatestOk)
    (sound : ¬ Misleads step s) : s'.LatestOk := by
  simp only [Misleads, not_or] at sound
  obtain ⟨late, own, bound⟩ := sound
  cases steps with
  | worker steps => exact steps.latestOk ok own
  | receiver steps =>
      cases steps with
      | post here room => exact ok.posted rfl rfl rfl rfl rfl fun _ => .inr rfl
      | _ => exact ok.keep rfl (fun _ => ⟨rfl, id⟩) (fun _ _ _ => Iff.rfl) fun _ _ _ waits => waits
  | handler steps => exact steps.latestOk ok late bound
  | @listen k =>
      by_cases full : s.queue.length = E.eventDbSize
      · rwa [postEvent_full full]
      · rw [postEvent_room full]
        have nothing : (Event.connectRequest k).connection = none := rfl
        exact ok.posted nothing rfl rfl rfl rfl fun _ => .inr rfl
  | disconnect =>
      exact ok.keep rfl (fun _ => ⟨rfl, id⟩) (fun _ _ _ => Iff.rfl) fun _ _ _ waits => waits
  | stop =>
      exact ok.keep rfl (same_clients rfl rfl id) (fun _ _ _ => Iff.rfl) fun _ _ _ waits => waits
  | delete =>
      exact ok.keep rfl (same_clients rfl rfl fun dead => by cases dead) (fun _ _ _ => Iff.rfl)
        fun _ _ _ waits => waits

private theorem start_latestOk (packets : Nat) : (start E packets).LatestOk where
  pending := by
    rintro k fd object alive (⟨w, _, failed⟩ | queued | handled)
    · cases failed
    · cases queued
    · cases handled
  adding := fun _ _ _ adds => by cases adds
  tree := fun _ _ _ _ _ entry => by cases entry

/-- The connection whose socket has the descriptor: the server that accepted it and its
client object. -/
def openConnection (s : Traffic E) (fd : Socket) : Option (Nat × Nat) :=
  if s.isOpen fd = true then some (s.latest fd) else none

/-- In every run without a step that misleads a disconnect event, the event finds the
client it was posted for, and removes that; the socket that it closes is that client's, or
nobody's. -/
theorem disconnect_removes {packets : Nat} {steps : List (TrafficStep E)}
    (sound : Meets next (fun step s => ¬ Misleads step s) steps (start E packets))
    (runs : run next steps (start E packets) = some s)
    (handled : s.handler = .handling (.serverDisconnect k fd object))
    (alive : (s.servers k).alive = true) :
    (s.servers k).clientsTree fd = some object ∧
      (∀ connection ∈ s.openConnection fd, connection = (k, object)) ∧
      ∃ s', next (.handler .remove) s = some s' ∧ s'.handler = .idle ∧
        (∀ j other, (s'.servers j).clientsTree other =
          if (j, other) = (k, fd) then none else (s.servers j).clientsTree other) ∧
        ∀ other, s'.openConnection other = if other = fd then none else s.openConnection other := by
  have invariant : s.ConnectionsHeld ∧ s.LatestOk := by
    refine run_invariant_of_meets (P := fun s => s.ConnectionsHeld ∧ s.LatestOk) ?_
      ⟨start_connectionsHeld packets, start_latestOk packets⟩ sound runs
    rintro step s s' ⟨held, ok⟩ kept step
    have bound : ¬ LeavesUnbound _ s := fun unbound => kept (.inr (.inr unbound))
    exact ⟨(next_cases step).connectionsHeld bound held, (next_cases step).latestOk ok kept⟩
  obtain ⟨held, ok⟩ := invariant
  have present : (s.servers k).clientsTree fd ≠ none := by
    apply held.custody.used .handler (k, fd)
    simp [connectionsAt, handled, HandlerPoint.connections, Event.connection]
  have posted : s.latest fd = (k, object) := ok.pending k fd object alive (.inr (.inr handled))
  have found : (s.servers k).clientsTree fd = some object := by
    obtain ⟨registered, entry⟩ := Option.ne_none_iff_exists'.mp present
    rcases ok.tree k fd registered object alive entry posted with rfl | adding
    · exact entry
    · rw [handled] at adding
      cases adding
  refine ⟨found, ?_, s.removeClient k fd, by simp [next, handled, handlerStep], ?_, ?_, ?_⟩
  · intro connection here
    simp only [openConnection, posted, Option.mem_def, Option.ite_none_right_eq_some, Option.some.injEq] at here
    exact here.2.symm
  · simp [removeClient, alive, present, setServer, closesocket]
  · intro j other
    by_cases same : j = k
    · subst same
      by_cases this : other = fd
      · subst this
        simp [removeClient, alive, present, setServer]
      · simp [removeClient, alive, present, setServer, this]
    · simp [removeClient, alive, present, setServer, closesocket, same]
  · intro other
    by_cases same : other = fd
    · subst same
      simp [openConnection, removeClient, alive, present, setServer, closesocket]
    · simp [openConnection, removeClient, alive, present, setServer, closesocket, same]

/-- The socket of a client fails, and its disconnect event is handled. -/
def untilHandled : List (TrafficStep oneServer) :=
  untilFailure ++ [.worker only .post, .handler .pop]

theorem disconnect_removes_failed :
    ∃ s, run next untilHandled (start oneServer 100) = some s ∧ (s.servers 0).clientsTree 7 = some 1 ∧
      s.openConnection 7 = some (0, 1) := by
  have sound : Meets next (fun step s => ¬ Misleads step s) untilHandled (start oneServer 100) := by
    decide
  exact ⟨_, rfl, (disconnect_removes sound rfl rfl rfl).1, rfl⟩

/-- While the user closes the socket of a client and its worker sees that, a request is
being processed, and the new client gets the same descriptor. The old client's
disconnect event removes the new client and closes its socket. -/
theorem disconnect_removesLater :
    ∃ s, run next
        ([.listen 0, .handler .pop, .handler (.accept (some 7)), .handler (.add true true),
          .worker 0 .pop, .worker 0 (.call true), .worker 0 .ask, .worker 0 (.select (some [7])),
          .listen 0, .handler .pop, .disconnect 0 7, .worker 0 .alloc, .worker 0 (.recv .error),
          .worker 0 .post, .handler (.accept (some 7)), .handler (.add true true), .handler .pop] :
          List (TrafficStep oneServer)) (start oneServer 100) = some s ∧
      s.handler = .handling (.serverDisconnect 0 7 1) ∧ (s.servers 0).alive = true ∧
      (s.servers 0).clientsTree 7 = some 2 ∧ s.openConnection 7 = some (0, 2) ∧
      ∃ s', next (.handler .remove) s = some s' ∧ (s'.servers 0).clientsTree 7 = none ∧
        s'.openConnection 7 = none :=
  ⟨_, rfl, rfl, rfl, rfl, rfl, _, rfl, rfl, rfl⟩

end Traffic

end GbfLibrary.Enet
