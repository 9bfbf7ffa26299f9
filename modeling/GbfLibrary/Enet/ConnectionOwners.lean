import GbfLibrary.Enet.Places
import GbfLibrary.Enet.TrafficSteps

/-!
# The owners of connections

A client in a server's tree is in the charge of one party: a worker that has the
descriptor in its set or as a task, the queue of tasks, or a disconnect event.
-/

set_option autoImplicit false

namespace GbfLibrary.Enet

open Systems

/-- The sockets a worker reads from are in its set, each once. -/
def WorkerPoint.ReadsFrom (jobSet : List Socket) : WorkerPoint → Prop
  | .scanning _ readSet => readSet.Sublist jobSet
  | .busy _ fd readSet _ _ => (fd :: readSet).Sublist jobSet
  | _ => True

/-- A disconnect event is posted next. -/
def WorkerPoint.failed : WorkerPoint → Bool
  | .busy _ _ _ _ (.failed _) => true
  | _ => false

/-- The server and the descriptor of the client that is to be added. -/
def HandlerPoint.added : HandlerPoint → Option (Nat × Socket)
  | .adding k fd _ => some (k, fd)
  | _ => none

structure Worker.SetOk (worker : Worker) : Prop where
  distinct : worker.jobSet.Nodup
  reads : worker.point.ReadsFrom worker.jobSet

namespace Traffic

variable {E : Setup} {s s' : Traffic E} {w : Fin E.workers} {p : Place E}

/-- Neither stopped nor deleted. -/
def Runs (s : Traffic E) (k : Nat) : Prop := (s.servers k).alive = true ∧ (s.servers k).stopped = false

/-- A step in which a worker of a running server loses sight of a connection: the
disconnect event finds the queue full, `select` fails while a task is refused, or
the set of a worker with a task gets no memory. -/
def DropsConnection : TrafficStep E → Traffic E → Prop
  | .worker w .post, s => (s.workers w).point.failed = true ∧ s.queue.length = E.eventDbSize
  | .worker w (.select none), s => (s.workers w).point.task ≠ none
  | .worker w (.call false), s => (s.workers w).customized = none ∧ (s.workers w).point.task ≠ none
  | _, _ => False

instance : (step : TrafficStep E) → (s : Traffic E) → Decidable (DropsConnection step s)
  | .worker w .post, s =>
      inferInstanceAs (Decidable ((s.workers w).point.failed = true ∧ s.queue.length = E.eventDbSize))
  | .worker w (.select none), s => inferInstanceAs (Decidable ((s.workers w).point.task ≠ none))
  | .worker w (.call false), s =>
      inferInstanceAs (Decidable ((s.workers w).customized = none ∧ (s.workers w).point.task ≠ none))
  | .worker _ (.select (some _)), _ | .worker _ (.call true), _ | .worker _ .pop, _ | .worker _ .ask, _
  | .worker _ .alloc, _ | .worker _ (.recv _), _ | .worker _ .free, _ | .worker _ .done, _
  | .worker _ .quit, _ | .receiver _ _, _ | .handler _, _ | .listen _, _ | .disconnect _ _, _ | .stop _, _
  | .delete _, _ => .isFalse id

/-- `rbt_insert` returns no error though the first node of the tree gets no memory, and
the task of a client that is not in the tree is delivered. -/
def LeavesUnbound : TrafficStep E → Traffic E → Prop
  | .handler (.add false true), s => ∃ client ∈ s.handler.added, (s.servers client.1).alive = true ∧
      (s.servers client.1).clientsTree client.2 = none ∧ (s.servers client.1).nodes = 0
  | _, _ => False

instance : (step : TrafficStep E) → (s : Traffic E) → Decidable (LeavesUnbound step s)
  | .handler (.add false true), s =>
      inferInstanceAs (Decidable (∃ client ∈ s.handler.added, (s.servers client.1).alive = true ∧
        (s.servers client.1).clientsTree client.2 = none ∧ (s.servers client.1).nodes = 0))
  | .handler (.add false false), _ | .handler (.add true _), _ | .handler (.accept _), _ | .handler .pop, _
  | .handler .process, _ | .handler .remove, _ | .handler .free, _ | .worker _ _, _ | .receiver _ _, _
  | .listen _, _ | .disconnect _ _, _ | .stop _, _ | .delete _, _ => .isFalse id

/-- What a step does with the connections. -/
abbrev ConnectionTransfer (lost : Nat × Socket → Prop) (s s' : Traffic E) : Prop :=
  Transfer lost s.Connected s'.Connected s.connectionsAt s'.connectionsAt

private theorem connectionsAt_worker {worker : Worker} (workers : s'.workers = Function.update s.workers w worker)
    (handler : s'.handler = s.handler) (other : p ≠ .worker w)
    (tasks : ∀ k, p = .tasks k → (s'.servers k).tasks = (s.servers k).tasks)
    (notPosted : p ≠ .queue ∨ s'.queue = s.queue) : s'.connectionsAt p = s.connectionsAt p := by
  cases p with
  | worker v =>
      have different : v ≠ w := fun same => other (same ▸ rfl)
      simp only [connectionsAt, workers, Function.update_of_ne different]
  | receiver c => rfl
  | tasks k => simp only [connectionsAt, tasks k rfl]
  | queue => simp only [connectionsAt, notPosted.resolve_left fun notQueue => notQueue rfl]
  | handler => simp only [connectionsAt, handler]

/-- A worker goes on with the sockets it is in charge of. -/
theorem keep_connections {lost : Nat × Socket → Prop} {worker : Worker}
    (workers : s'.workers = Function.update s.workers w worker) (handler : s'.handler = s.handler)
    (servers : s'.servers = s.servers) (queue : s'.queue = s.queue)
    (same : worker.connections.Perm (s.workers w).connections) : ConnectionTransfer lost s s' := by
  refine .keep (fun connection => by simp only [Connected, servers]) fun p => ?_
  by_cases here : p = .worker w
  · subst here
    simp only [connectionsAt, workers, Function.update_self]
    exact Multiset.coe_eq_coe.mpr (same.map _)
  · exact connectionsAt_worker workers handler here (fun k _ => by rw [servers]) (.inr queue)

private theorem leak_connections {lost : Nat × Socket → Prop} {worker : Worker}
    (workers : s'.workers = Function.update s.workers w worker) (handler : s'.handler = s.handler)
    (servers : s'.servers = s.servers) (queue : s'.queue = s.queue)
    (fewer : worker.connections.Sublist (s.workers w).connections)
    (gone : ∀ fd ∈ (s.workers w).connections, fd ∈ worker.connections ∨ lost (E.serverOf w, fd)) :
    ConnectionTransfer lost s s' := by
  refine .leak (.worker w) (fun connection => by simp only [Connected, servers]) ?_ ?_ ?_
  · simp only [connectionsAt, workers, Function.update_self]
    exact Multiset.coe_le.mpr (fewer.map _).subperm
  · intro connection here
    obtain ⟨fd, member, rfl⟩ := List.mem_map.mp here
    simp only [connectionsAt, workers, Function.update_self, Multiset.mem_coe]
    exact (gone fd member).imp (fun member => List.mem_map_of_mem member) id
  · exact fun p other => connectionsAt_worker workers handler other (fun k _ => by rw [servers]) (.inr queue)

/-- A server whose tree stays the same has the same clients. -/
theorem connected_of_tree {k : Nat} {server : Server}
    (servers : s'.servers = Function.update s.servers k server)
    (tree : server.clientsTree = (s.servers k).clientsTree) (connection : Nat × Socket) :
    s'.Connected connection ↔ s.Connected connection := by
  by_cases same : connection.1 = k
  · simp [Connected, servers, same, tree]
  · simp [Connected, servers, same]

private theorem tasks_of_other {k : Nat} {server : Server}
    (servers : s'.servers = Function.update s.servers k server) (other : p ≠ .tasks k) (j : Nat)
    (here : p = .tasks j) : (s'.servers j).tasks = (s.servers j).tasks := by
  have different : j ≠ k := fun same => other (same ▸ here)
  simp [servers, different]

private theorem erase_perm {front set : List Socket} {fd : Socket} (member : fd ∈ set) :
    (front ++ set).Perm (fd :: (front ++ set.erase fd)) :=
  ((List.perm_cons_erase member).append_left front).trans List.perm_middle

/-!
## The sets of the workers
-/

private theorem nodup_fdSet {fd : Socket} {set : List Socket} (distinct : set.Nodup) : (fdSet fd set).Nodup := by
  unfold fdSet
  split
  · exact distinct
  · next absent =>
    refine List.nodup_append.mpr ⟨distinct, by simp, fun a member b new => ?_⟩
    obtain rfl := List.mem_singleton.mp new
    exact fun same => absent (same ▸ member)

/-- Only the worker that steps has another set afterwards. -/
theorem setOk_update {worker : Worker} (ok : ∀ v, (s.workers v).SetOk) (now : worker.SetOk)
    (v : Fin E.workers) : (Function.update s.workers w worker v).SetOk := by
  by_cases same : v = w
  · subst same
    simpa using now
  · simpa [same] using ok v

theorem WorkerSteps.setOk {action : WorkerAction} (steps : WorkerSteps w s action s')
    (ok : ∀ v, (s.workers v).SetOk) : ∀ v, (s'.workers v).SetOk := by
  obtain ⟨distinct, reads⟩ := ok w
  cases steps with
  | popNone here => exact setOk_update ok ⟨distinct, trivial⟩
  | popTask here tasks => exact setOk_update ok ⟨distinct, trivial⟩
  | quit here stopped => exact setOk_update ok ⟨distinct, trivial⟩
  | callEnded here missing => exact setOk_update ok ⟨distinct, trivial⟩
  | callIdle here => exact setOk_update ok ⟨distinct, trivial⟩
  | callRefused here => exact setOk_update ok ⟨distinct, trivial⟩
  | callTaken here => exact setOk_update ok ⟨nodup_fdSet distinct, trivial⟩
  | ask here => exact setOk_update ok ⟨distinct, trivial⟩
  | askDead here dead => exact setOk_update ok ⟨distinct, trivial⟩
  | selectFailed here => exact setOk_update ok ⟨distinct, trivial⟩
  | select here subset => exact setOk_update ok ⟨distinct, subset⟩
  | alloc here free =>
      rw [here] at reads
      exact setOk_update ok ⟨distinct, reads⟩
  | done here => exact setOk_update ok ⟨distinct, trivial⟩
  | pushBack here => exact setOk_update ok ⟨distinct, trivial⟩
  | recvError here =>
      rw [here] at reads
      exact setOk_update ok ⟨distinct, reads⟩
  | recvData here =>
      rw [here] at reads
      exact setOk_update ok ⟨distinct, reads⟩
  | postDisconnect here room =>
      rw [here] at reads
      exact setOk_update ok ⟨distinct, reads⟩
  | postDisconnectFull here full =>
      rw [here] at reads
      exact setOk_update ok ⟨distinct, reads⟩
  | postRecv here room =>
      rw [here] at reads
      exact setOk_update ok ⟨distinct, (List.sublist_cons_self _ _).trans reads⟩
  | postRecvFull here full =>
      rw [here] at reads
      exact setOk_update ok ⟨distinct, reads⟩
  | freeRejected here =>
      rw [here] at reads
      exact setOk_update ok ⟨distinct, (List.sublist_cons_self _ _).trans reads⟩
  | @freeClosing refused fd readSet packet here =>
      rw [here] at reads
      have remaining : readSet.Sublist ((s.workers w).jobSet.erase fd) := by
        simpa using reads.erase fd
      exact setOk_update ok ⟨distinct.erase fd, remaining⟩

theorem Steps.setOk {step : TrafficStep E} (steps : Steps s step s') (ok : ∀ v, (s.workers v).SetOk) :
    ∀ v, (s'.workers v).SetOk := by
  cases steps with
  | worker steps => exact steps.setOk ok
  | receiver steps => cases steps <;> exact ok
  | handler steps => cases steps <;> exact ok
  | listen =>
      unfold postEvent
      split <;> exact ok
  | disconnect => exact ok
  | stop => exact ok
  | delete => exact ok

/-!
## The steps
-/

/-- Which connections a step may leave to nobody. -/
def LosesConnection (step : TrafficStep E) (s : Traffic E) (connection : Nat × Socket) : Prop :=
  ¬ s.Runs connection.1 ∨ DropsConnection step s

theorem WorkerSteps.connections {action : WorkerAction} (steps : WorkerSteps w s action s')
    (ok : (s.workers w).SetOk) :
    ConnectionTransfer (LosesConnection (.worker w action) s) s s' := by
  cases steps with
  | popNone here =>
      refine keep_connections rfl rfl rfl rfl ?_
      simp [Worker.connections, Worker.monitored, WorkerPoint.task, Worker.jobSet, here]
  | @popTask fd rest here tasks =>
      refine .hand (.tasks (E.serverOf w)) (.worker w) (E.serverOf w, fd) (by simp)
        (connected_of_tree rfl rfl) ?_ ?_ ?_
      · simp [connectionsAt, setServer, moveWorker, setWorker, tasks]
      · simp [connectionsAt, setServer, moveWorker, setWorker, Worker.connections, Worker.monitored,
          WorkerPoint.task, Worker.jobSet, here]
      · intro p notTasks notWorker
        exact connectionsAt_worker rfl rfl notWorker (tasks_of_other rfl notTasks) (.inr rfl)
  | quit here stopped =>
      refine leak_connections rfl rfl rfl rfl ?_ ?_
      · simp [Worker.connections, Worker.monitored, WorkerPoint.task]
      · exact fun fd _ => .inr (.inl fun runs => by simp [runs.2] at stopped)
  | callEnded here missing =>
      refine leak_connections rfl rfl rfl rfl ?_ ?_
      · simp [Worker.connections, Worker.monitored, WorkerPoint.task]
      · intro fd member
        simp only [Worker.connections, Worker.monitored, WorkerPoint.task, Worker.jobSet, here, missing,
          Option.getD_none, List.append_nil, Option.mem_toList] at member
        exact .inr (.inr ⟨missing, by simp [here, WorkerPoint.task, member]⟩)
  | callIdle here =>
      refine keep_connections rfl rfl rfl rfl ?_
      simp [Worker.connections, Worker.monitored, WorkerPoint.task, Worker.jobSet, here]
  | callRefused here =>
      refine keep_connections rfl rfl rfl rfl ?_
      simp [Worker.connections, Worker.monitored, WorkerPoint.task, Worker.jobSet, here]
  | @callTaken allocated fd here =>
      by_cases present : fd ∈ (s.workers w).jobSet
      · refine leak_connections rfl rfl rfl rfl ?_ ?_
        · simp only [Worker.connections, Worker.monitored, WorkerPoint.task, here, fdSet, if_pos present]
          exact List.sublist_cons_self fd _
        · intro other member
          simp only [Worker.connections, Worker.monitored, WorkerPoint.task, here, Option.toList_some,
            List.cons_append, List.nil_append, List.mem_cons] at member
          have monitored : other ∈ (s.workers w).jobSet := by
            rcases member with rfl | before
            · exact present
            · exact before
          refine .inl ?_
          simp only [Worker.connections, Worker.monitored, WorkerPoint.task, fdSet, if_pos present]
          exact monitored
      · refine keep_connections rfl rfl rfl rfl ?_
        simp only [Worker.connections, Worker.monitored, WorkerPoint.task, here, fdSet, if_neg present]
        exact List.perm_append_singleton fd _
  | ask here =>
      refine keep_connections rfl rfl rfl rfl ?_
      simp [Worker.connections, Worker.monitored, WorkerPoint.task, Worker.jobSet, here]
  | askDead here dead =>
      refine leak_connections rfl rfl rfl rfl ?_ ?_
      · simp [Worker.connections, Worker.monitored, WorkerPoint.task]
      · exact fun fd _ => .inr (.inl fun runs => by simp [runs.1] at dead)
  | @selectFailed refused here =>
      refine leak_connections rfl rfl rfl rfl ?_ ?_
      · simp [Worker.connections, Worker.monitored, WorkerPoint.task, Worker.jobSet, here]
      · intro fd member
        simp only [Worker.connections, Worker.monitored, WorkerPoint.task, here, List.mem_append,
          Option.mem_toList] at member
        rcases member with refused | monitored
        · exact .inr (.inr (by simp [DropsConnection, here, WorkerPoint.task, refused]))
        · exact .inl monitored
  | select here subset =>
      refine keep_connections rfl rfl rfl rfl ?_
      simp [Worker.connections, Worker.monitored, WorkerPoint.task, Worker.jobSet, here]
  | alloc here free =>
      refine keep_connections rfl rfl rfl rfl ?_
      simp [Worker.connections, Worker.monitored, WorkerPoint.task, Worker.jobSet, here]
  | done here =>
      refine keep_connections rfl rfl rfl rfl ?_
      simp [Worker.connections, Worker.monitored, WorkerPoint.task, Worker.jobSet, here]
  | @pushBack fd here =>
      refine .hand (.worker w) (.tasks (E.serverOf w)) (E.serverOf w, fd) (by simp)
        (connected_of_tree rfl rfl) ?_ ?_ ?_
      · simp [connectionsAt, setServer, moveWorker, setWorker, Worker.connections, Worker.monitored,
          WorkerPoint.task, Worker.jobSet, here]
      · simp only [connectionsAt, setServer, moveWorker, setWorker, Function.update_self, List.map_append]
        exact coe_append_singleton _ (E.serverOf w, fd)
      · intro p notWorker notTasks
        exact connectionsAt_worker rfl rfl notWorker (tasks_of_other rfl notTasks) (.inr rfl)
  | recvError here =>
      refine keep_connections rfl rfl rfl rfl ?_
      simp [Worker.connections, Worker.monitored, WorkerPoint.task, Worker.jobSet, here]
  | recvData here =>
      refine keep_connections rfl rfl rfl rfl ?_
      simp [Worker.connections, Worker.monitored, WorkerPoint.task, Worker.jobSet, here]
  | @postDisconnect refused fd readSet packet object here room =>
      have member : fd ∈ (s.workers w).jobSet := by
        have reads := ok.reads
        rw [here] at reads
        exact reads.subset (List.mem_cons_self ..)
      refine .hand (.worker w) .queue (E.serverOf w, fd) (by simp) (fun _ => Iff.rfl) ?_ ?_ ?_
      · simp only [connectionsAt, moveWorker, setWorker, Function.update_self, Worker.connections,
          Worker.monitored, WorkerPoint.task, here]
        refine Multiset.coe_eq_coe.mpr (((erase_perm member).map _).trans ?_)
        rw [List.map_cons]
        rfl
      · simp only [connectionsAt, moveWorker, setWorker, List.filterMap_append]
        exact coe_append_singleton _ (E.serverOf w, fd)
      · intro p notWorker notQueue
        exact connectionsAt_worker rfl rfl notWorker (fun _ _ => rfl) (.inl notQueue)
  | @postDisconnectFull refused fd readSet packet object here full =>
      refine leak_connections rfl rfl rfl rfl ?_ ?_
      · have fewer : ((s.workers w).jobSet.erase fd).Sublist (s.workers w).jobSet := List.erase_sublist
        simp only [Worker.connections, Worker.monitored, WorkerPoint.task, here]
        exact fewer.append_left _
      · exact fun _ _ => .inr (.inr (by simp [DropsConnection, WorkerPoint.failed, here, full]))
  | @postRecv refused fd readSet packet here room =>
      refine .keep (fun _ => Iff.rfl) fun p => ?_
      by_cases atWorker : p = .worker w
      · subst atWorker
        simp [connectionsAt, moveWorker, setWorker, Worker.connections, Worker.monitored, WorkerPoint.task,
          Worker.jobSet, here]
      · by_cases atQueue : p = .queue
        · subst atQueue
          simp [connectionsAt, moveWorker, setWorker, List.filterMap_cons, Event.connection]
        · exact connectionsAt_worker rfl rfl atWorker (fun _ _ => rfl) (.inl atQueue)
  | postRecvFull here full =>
      refine keep_connections rfl rfl rfl rfl ?_
      simp [Worker.connections, Worker.monitored, WorkerPoint.task, Worker.jobSet, here]
  | freeRejected here =>
      refine keep_connections rfl rfl rfl rfl ?_
      simp [Worker.connections, Worker.monitored, WorkerPoint.task, Worker.jobSet, freePacketUnit, here]
  | freeClosing here =>
      refine keep_connections rfl rfl rfl rfl ?_
      simp [Worker.connections, Worker.monitored, WorkerPoint.task, Worker.jobSet, here]

private theorem connectionsAt_handler (workers : s'.workers = s.workers) (other : p ≠ .handler)
    (tasks : ∀ k, p = .tasks k → (s'.servers k).tasks = (s.servers k).tasks)
    (notPopped : p ≠ .queue ∨ s'.queue = s.queue) : s'.connectionsAt p = s.connectionsAt p := by
  cases p with
  | worker w => simp only [connectionsAt, workers]
  | receiver c => rfl
  | tasks k => simp only [connectionsAt, tasks k rfl]
  | queue => simp only [connectionsAt, notPopped.resolve_left fun notQueue => notQueue rfl]
  | handler => exact absurd rfl other

/-- The event thread goes on without a connection. -/
theorem keep_handler_connections {lost : Nat × Socket → Prop} (workers : s'.workers = s.workers)
    (connected : ∀ connection, s'.Connected connection ↔ s.Connected connection)
    (tasks : ∀ k, (s'.servers k).tasks = (s.servers k).tasks) (queue : s'.queue = s.queue)
    (same : s'.handler.connections = s.handler.connections) : ConnectionTransfer lost s s' := by
  refine .keep connected fun p => ?_
  by_cases here : p = .handler
  · subst here
    exact same
  · exact connectionsAt_handler workers here (fun k _ => tasks k) (.inr queue)

private theorem tasks_same {k : Nat} {server : Server} (servers : s'.servers = Function.update s.servers k server)
    (tasks : server.tasks = (s.servers k).tasks) (j : Nat) :
    (s'.servers j).tasks = (s.servers j).tasks := by
  by_cases same : j = k
  · simp [servers, same, tasks]
  · simp [servers, same]

private theorem connected_update {k : Nat} {fd : Socket} {entry : Option Nat} {server : Server}
    (servers : s'.servers = Function.update s.servers k server)
    (tree : server.clientsTree = Function.update (s.servers k).clientsTree fd entry)
    (connection : Nat × Socket) :
    s'.Connected connection ↔
      if connection = (k, fd) then entry ≠ none else s.Connected connection := by
  obtain ⟨j, other⟩ := connection
  by_cases sameServer : j = k
  · by_cases sameFd : other = fd
    · simp [Connected, servers, sameServer, sameFd, tree]
    · simp [Connected, servers, sameServer, sameFd, tree]
  · simp [Connected, servers, sameServer]

/-- The event thread registers and removes clients. -/
theorem HandlerSteps.connections {action : HandlerAction} (steps : HandlerSteps s action s')
    (bound : ¬ LeavesUnbound (.handler action) s) :
    ConnectionTransfer (LosesConnection (.handler action) s) s s' := by
  cases steps with
  | @pop event rest here queue =>
      cases carries : event.connection with
      | none =>
          refine .keep (fun _ => Iff.rfl) fun p => ?_
          by_cases atHandler : p = .handler
          · subst atHandler
            simp [connectionsAt, here, HandlerPoint.connections, carries]
          · by_cases atQueue : p = .queue
            · subst atQueue
              simp [connectionsAt, queue, carries]
            · exact connectionsAt_handler rfl atHandler (fun _ _ => rfl) (.inl atQueue)
      | some connection =>
          refine .hand .queue .handler connection (by simp) (fun _ => Iff.rfl) ?_ ?_ ?_
          · simp [connectionsAt, queue, carries]
          · simp [connectionsAt, here, HandlerPoint.connections, carries]
          · intro p notQueue notHandler
            exact connectionsAt_handler rfl notHandler (fun _ _ => rfl) (.inl notQueue)
  | acceptNone here =>
      exact keep_handler_connections rfl (fun _ => Iff.rfl) (fun _ => rfl) rfl (by rw [here]; rfl)
  | accept here alive unused =>
      exact keep_handler_connections rfl (fun _ => Iff.rfl) (fun _ => rfl) rfl (by rw [here]; rfl)
  | addFailed here fails =>
      exact keep_handler_connections rfl (fun _ => Iff.rfl) (fun _ => rfl) rfl (by rw [here]; rfl)
  | @replace k object fd inserted delivered here present =>
      refine keep_handler_connections rfl (fun connection => ?_) (tasks_same rfl rfl) rfl (by rw [here]; rfl)
      rw [connected_update (s := s) rfl rfl]
      split
      · next same => simp [same, Connected, present]
      · exact Iff.rfl
  | addUnbound here alive absent empty =>
      exact absurd ⟨_, by rw [here]; rfl, alive, absent, empty⟩ bound
  | addCrash here absent =>
      exact keep_handler_connections rfl (fun _ => Iff.rfl) (fun _ => rfl) rfl (by rw [here]; rfl)
  | @add k object fd here absent =>
      refine .gain (.tasks k) (k, fd) (by simp [Connected, absent]) (fun connection => ?_) ?_ ?_
      · rw [connected_update (s := s) rfl rfl]
        split
        · next same => simp [same]
        · next other => simp [other]
      · simp only [connectionsAt, setServer, Function.update_self, List.map_append]
        exact coe_append_singleton _ (k, fd)
      · intro p notTasks
        by_cases atHandler : p = .handler
        · subst atHandler
          simp [connectionsAt, setServer, HandlerPoint.connections, here]
        · exact connectionsAt_handler rfl atHandler (tasks_of_other rfl notTasks) (.inr rfl)
  | processServer isOpen here =>
      exact keep_handler_connections rfl (fun _ => Iff.rfl) (fun _ => rfl) rfl (by rw [here]; rfl)
  | processClient here =>
      exact keep_handler_connections rfl (fun _ => Iff.rfl) (fun _ => rfl) rfl (by rw [here]; rfl)
  | @removeDead k object fd here dead =>
      refine .leak .handler (fun _ => Iff.rfl) (Multiset.zero_le _) ?_ ?_
      · intro connection member
        simp only [connectionsAt, HandlerPoint.connections, here, Event.connection, Option.toList_some,
          Multiset.coe_singleton, Multiset.mem_singleton] at member
        subst member
        exact .inr (.inl fun runs => by simp [runs.1] at dead)
      · exact fun p other => connectionsAt_handler rfl other (fun _ _ => rfl) (.inr rfl)
  | @crash k object fd here alive missing =>
      refine .lose .handler (k, fd) (fun connection => ⟨fun connected => ⟨?_, connected⟩, And.right⟩) ?_ ?_
      · rintro rfl
        exact connected missing
      · simp [connectionsAt, HandlerPoint.connections, here, Event.connection]
      · exact fun p other => connectionsAt_handler rfl other (fun _ _ => rfl) (.inr rfl)
  | @remove k object fd here present =>
      refine .lose .handler (k, fd) (fun connection => ?_) ?_ ?_
      · rw [connected_update (s := s) rfl rfl]
        split
        · next same => simp [same]
        · next other => simp [other]
      · simp [connectionsAt, setServer, closesocket, HandlerPoint.connections, here, Event.connection]
      · intro p other
        exact connectionsAt_handler rfl other (fun j _ => tasks_same (s := s) rfl (by rfl) j) (.inr rfl)
  | free here =>
      exact keep_handler_connections rfl (fun _ => Iff.rfl) (fun _ => rfl) rfl (by rw [here]; rfl)

private theorem unbound_adding {k object : Nat} {fd : Socket} {inserted delivered : Bool}
    (here : s.handler = .adding k fd object) (unbound : LeavesUnbound (.handler (.add inserted delivered)) s) :
    delivered = true ∧ (s.servers k).alive = true ∧ (s.servers k).clientsTree fd = none ∧
      (s.servers k).nodes = 0 := by
  cases inserted with
  | true => cases unbound
  | false =>
      cases delivered with
      | false => cases unbound
      | true =>
          obtain ⟨client, adds, alive, absent, empty⟩ := unbound
          rw [here] at adds
          cases adds
          exact ⟨rfl, alive, absent, empty⟩

/-- Nobody loses a connection where a task without client is delivered. -/
theorem HandlerSteps.unbound {action : HandlerAction} (steps : HandlerSteps s action s')
    (unbound : LeavesUnbound (.handler action) s) :
    (∀ connection, s'.Connected connection ↔ s.Connected connection) ∧
      ∀ p, s.connectionsAt p ≤ s'.connectionsAt p := by
  cases steps with
  | addFailed here fails =>
      obtain ⟨delivers, alive, _, empty⟩ := unbound_adding here unbound
      rcases fails with dead | fails
      · rw [alive] at dead
        cases dead
      · exact absurd empty (fails.2 delivers)
  | replace here present =>
      exact absurd (unbound_adding here unbound).2.2.1 present
  | @addUnbound k object fd here alive absent empty =>
      refine ⟨connected_of_tree rfl rfl, fun p => ?_⟩
      by_cases atTasks : p = .tasks k
      · subst atTasks
        simp only [connectionsAt, setServer, Function.update_self, List.map_append]
        exact Multiset.coe_le.mpr (List.sublist_append_left ..).subperm
      · by_cases atHandler : p = .handler
        · subst atHandler
          simp [connectionsAt, setServer, here, HandlerPoint.connections]
        · apply Eq.ge
          exact connectionsAt_handler rfl atHandler (tasks_of_other rfl atTasks) (.inr rfl)
  | _ => exact unbound.elim

private theorem keep_posted {lost : Nat × Socket → Prop} {event : Event} (nothing : event.connection = none)
    (workers : s'.workers = s.workers) (servers : s'.servers = s.servers)
    (handler : s'.handler = s.handler) (queue : s'.queue = s.queue ++ [event]) :
    ConnectionTransfer lost s s' := by
  refine .keep (fun connection => by simp only [Connected, servers]) fun p => ?_
  cases p with
  | worker w => simp only [connectionsAt, workers]
  | receiver c => rfl
  | tasks k => simp only [connectionsAt, servers]
  | queue => simp [connectionsAt, queue, nothing]
  | handler => simp only [connectionsAt, handler]

theorem Steps.connections {step : TrafficStep E} (steps : Steps s step s')
    (bound : ¬ LeavesUnbound step s) (ok : ∀ v, (s.workers v).SetOk) :
    ConnectionTransfer (LosesConnection step s) s s' := by
  cases steps with
  | @worker w action s' steps => exact steps.connections (ok w)
  | receiver steps =>
      cases steps with
      | post here room => exact keep_posted rfl rfl rfl rfl rfl
      | _ => exact .keep (fun _ => Iff.rfl) fun p => by cases p <;> rfl
  | handler steps => exact steps.connections bound
  | @listen k =>
      by_cases full : s.queue.length = E.eventDbSize
      · rw [postEvent_full full]
        exact .keep (fun _ => Iff.rfl) fun _ => rfl
      · rw [postEvent_room full]
        exact keep_posted (show (Event.connectRequest k).connection = none from rfl) rfl rfl rfl rfl
  | disconnect => exact .keep (fun _ => Iff.rfl) fun p => by cases p <;> rfl
  | stop => exact keep_handler_connections rfl (connected_of_tree rfl rfl) (tasks_same rfl rfl) rfl rfl
  | delete => exact keep_handler_connections rfl (connected_of_tree rfl rfl) (tasks_same rfl rfl) rfl rfl

theorem Steps.unbound {step : TrafficStep E} (steps : Steps s step s') (unbound : LeavesUnbound step s) :
    (∀ connection, s'.Connected connection ↔ s.Connected connection) ∧
      ∀ p, s.connectionsAt p ≤ s'.connectionsAt p := by
  cases steps with
  | handler steps => exact steps.unbound unbound
  | _ => exact unbound.elim

/-- A server that was stopped is not started again. -/
theorem runs_of_update {j k : Nat} {server : Server}
    (servers : s'.servers = Function.update s.servers k server)
    (before : server.alive = true → server.stopped = false → s.Runs k) (runs : s'.Runs j) : s.Runs j := by
  by_cases same : j = k
  · subst same
    simp only [Runs, servers, Function.update_self] at runs
    exact before runs.1 runs.2
  · simpa only [Runs, servers, Function.update_of_ne same] using runs

theorem Steps.runs {step : TrafficStep E} {j : Nat} (steps : Steps s step s') (runs : s'.Runs j) :
    s.Runs j := by
  cases steps with
  | worker steps =>
      cases steps with
      | popTask here tasks => exact runs_of_update rfl (by exact And.intro) runs
      | pushBack here => exact runs_of_update rfl (by exact And.intro) runs
      | _ => exact runs
  | receiver steps => cases steps <;> exact runs
  | handler steps =>
      cases steps with
      | addUnbound here alive absent empty => exact runs_of_update rfl (by exact And.intro) runs
      | replace here present => exact runs_of_update rfl (by exact And.intro) runs
      | add here absent => exact runs_of_update rfl (by exact And.intro) runs
      | remove here present => exact runs_of_update rfl (by exact And.intro) runs
      | _ => exact runs
  | @listen k =>
      by_cases full : s.queue.length = E.eventDbSize
      · rwa [postEvent_full full] at runs
      · rwa [postEvent_room full] at runs
  | disconnect => exact runs
  | stop => exact runs_of_update rfl (fun alive stopped => by cases stopped) runs
  | delete => exact runs_of_update rfl (fun alive => by cases alive) runs

/-- Every connection is in one place at most, and its client is in the tree. -/
structure ConnectionsHeld (s : Traffic E) : Prop where
  custody : Custody s.Connected s.connectionsAt
  sets : ∀ w, (s.workers w).SetOk

theorem Steps.connectionsHeld {step : TrafficStep E} (steps : Steps s step s')
    (bound : ¬ LeavesUnbound step s) (held : s.ConnectionsHeld) : s'.ConnectionsHeld :=
  ⟨(steps.connections bound held.sets).custody held.custody, steps.setOk held.sets⟩

theorem start_setOk (packets : Nat) (w : Fin E.workers) : ((start E packets).workers w).SetOk :=
  ⟨List.nodup_nil, trivial⟩

theorem start_connectionsHeld (packets : Nat) : (start E packets).ConnectionsHeld where
  custody := by
    have nowhere : ∀ p, (start E packets).connectionsAt p = 0 := by
      intro p
      cases p <;> rfl
    exact ⟨fun p => by simp [nowhere p], fun p q t here => by simp [nowhere p] at here,
      fun p t here => by simp [nowhere p] at here⟩
  sets := start_setOk packets

/-- Each socket of a server is monitored by one worker. -/
def MonitoredOnce (s : Traffic E) : Prop :=
  ∀ v w, E.serverOf v = E.serverOf w → ∀ fd ∈ (s.workers v).monitored, fd ∈ (s.workers w).monitored → v = w

instance (s : Traffic E) : Decidable s.MonitoredOnce :=
  inferInstanceAs (Decidable (∀ v w, E.serverOf v = E.serverOf w →
    ∀ fd ∈ (s.workers v).monitored, fd ∈ (s.workers w).monitored → v = w))

theorem ConnectionsHeld.monitoredOnce (held : s.ConnectionsHeld) : s.MonitoredOnce := by
  intro v w server fd atV atW
  have member : ∀ u, fd ∈ (s.workers u).monitored → (E.serverOf u, fd) ∈ s.connectionsAt (.worker u) :=
    fun u monitors => List.mem_map_of_mem (List.mem_append_right _ monitors)
  have same := held.custody.alone _ _ _ (member v atV) (server ▸ member w atW)
  cases same
  rfl

/-- Two workers monitor the same socket only if a task without client was delivered. -/
theorem monitoredOnce {packets : Nat} {steps : List (TrafficStep E)}
    (bound : Meets next (fun step s => ¬ LeavesUnbound step s) steps (start E packets))
    (runs : run next steps (start E packets) = some s) : s.MonitoredOnce := by
  refine ConnectionsHeld.monitoredOnce (run_invariant_of_meets (P := ConnectionsHeld) ?_
    (start_connectionsHeld packets) bound runs)
  exact fun step s s' held kept steps => (next_cases steps).connectionsHeld kept held

/-- Every client of a running server is somewhere. -/
structure ClientsSeen (s : Traffic E) : Prop where
  seen : ∀ connection, s.Runs connection.1 → s.Connected connection → ∃ p, connection ∈ s.connectionsAt p
  sets : ∀ w, (s.workers w).SetOk

private theorem Steps.clientsSeen {step : TrafficStep E} (steps : Steps s step s') (before : s.ClientsSeen)
    (sees : ¬ DropsConnection step s) : s'.ClientsSeen := by
  refine ⟨fun connection runs connected => ?_, steps.setOk before.sets⟩
  have runsBefore : s.Runs connection.1 := steps.runs runs
  by_cases unbound : LeavesUnbound step s
  · obtain ⟨same, more⟩ := steps.unbound unbound
    obtain ⟨p, here⟩ := before.seen connection runsBefore ((same connection).mp connected)
    exact ⟨p, Multiset.mem_of_le (more p) here⟩
  · refine (steps.connections unbound before.sets).accounted ?_ connected (before.seen connection runsBefore)
    rintro (stopped | drops)
    · exact stopped runsBefore
    · exact sees drops

/-- The parties that may be in charge of a client: a worker of its server, which
reads from its socket or has its task, the queue of tasks, or a disconnect event. -/
def InCharge (s : Traffic E) (k : Nat) (fd : Socket) : Prop :=
  (∃ w, E.serverOf w = k ∧ (fd ∈ (s.workers w).monitored ∨ (s.workers w).point.task = some fd)) ∨
    fd ∈ (s.servers k).tasks ∨
    (∃ object, Event.serverDisconnect k fd object ∈ s.queue) ∨
    ∃ object, s.handler = .handling (.serverDisconnect k fd object)

theorem connection_eq_some {event : Event} {k : Nat} {fd : Socket} (connects : event.connection = some (k, fd)) :
    ∃ object, event = .serverDisconnect k fd object := by
  cases event with
  | serverDisconnect j other object =>
      cases connects
      exact ⟨object, rfl⟩
  | connectRequest j => cases connects
  | serverRecv j packet other => cases connects
  | clientRecv client packet => cases connects

/-- Whatever holds a connection is in charge of it. -/
theorem inCharge_of_mem {k : Nat} {fd : Socket} (here : (k, fd) ∈ s.connectionsAt p) : s.InCharge k fd := by
  cases p with
  | worker w =>
      obtain ⟨other, member, same⟩ := List.mem_map.mp here
      cases same
      simp only [Worker.connections, List.mem_append, Option.mem_toList] at member
      exact .inl ⟨w, rfl, member.symm⟩
  | receiver c => cases here
  | tasks j =>
      obtain ⟨other, member, same⟩ := List.mem_map.mp here
      cases same
      exact .inr (.inl member)
  | queue =>
      obtain ⟨event, member, connects⟩ := List.mem_filterMap.mp here
      obtain ⟨object, rfl⟩ := connection_eq_some connects
      exact .inr (.inr (.inl ⟨object, member⟩))
  | handler =>
      simp only [connectionsAt, HandlerPoint.connections] at here
      split at here
      · next event handling =>
        obtain ⟨object, rfl⟩ := connection_eq_some (Option.mem_toList.mp here)
        exact .inr (.inr (.inr ⟨object, handling⟩))
      · cases here

/-- In every run in which no worker drops a connection, every client in the tree of a
running server is in someone's charge. -/
theorem clients_inCharge {packets : Nat} {steps : List (TrafficStep E)} {k : Nat} {fd : Socket}
    (sees : Meets next (fun step s => ¬ DropsConnection step s) steps (start E packets))
    (runs : run next steps (start E packets) = some s) (running : s.Runs k)
    (present : (s.servers k).clientsTree fd ≠ none) : s.InCharge k fd := by
  have invariant : s.ClientsSeen := by
    refine run_invariant_of_meets (P := ClientsSeen) ?_
      ⟨fun _ _ connected => (connected rfl).elim, start_setOk packets⟩ sees runs
    exact fun step s s' before kept steps => (next_cases steps).clientsSeen before kept
  obtain ⟨p, here⟩ := invariant.seen (k, fd) running present
  exact inCharge_of_mem here

/-- One server with one worker. -/
abbrev oneServer : Setup := ⟨1, 0, fun _ => 0, Fin.elim0, 1000, 64⟩

/-- A client connects, is given to the worker, and its socket fails. -/
def untilFailure : List (TrafficStep oneServer) :=
  [.listen 0, .handler .pop, .handler (.accept (some 7)), .handler (.add true true), .worker only .pop,
    .worker only (.call true), .worker only .ask, .worker only (.select (some [7])), .worker only .alloc,
    .worker only (.recv .error)]

theorem clients_inCharge_failed :
    ∃ s, run next untilFailure (start oneServer 100) = some s ∧ s.Runs 0 ∧ s.InCharge 0 7 := by
  have sees : Meets next (fun step s => ¬ DropsConnection step s) untilFailure (start oneServer 100) := by
    decide
  exact ⟨_, rfl, ⟨rfl, rfl⟩, clients_inCharge sees rfl ⟨rfl, rfl⟩ (by decide)⟩

theorem run_listen {k : Nat} (n : Nat) (room : s.queue.length + n ≤ E.eventDbSize) (running : s.Runs k) :
    run next (List.replicate n (.listen k)) s =
      some { s with queue := s.queue ++ List.replicate n (Event.connectRequest k) } := by
  induction n generalizing s with
  | zero => simp
  | succ n ih =>
      have notFull : s.queue.length ≠ E.eventDbSize := by omega
      have first : next (.listen k) s = some { s with queue := s.queue ++ [Event.connectRequest k] } := by
        simp [next, running.1, running.2, postEvent_room notFull]
      have rest := ih (s := { s with queue := s.queue ++ [Event.connectRequest k] })
        (by simp only [List.length_append, List.length_singleton]; omega) running
      rw [List.replicate_succ, run, first, Option.bind_some, rest, List.append_assoc, List.replicate_succ]
      rfl

/-- Where that leaves the worker. -/
def failedState : Traffic oneServer := (run next untilFailure (start oneServer 100)).get rfl

/-- The same, with a thousand requests in the queue. -/
def fullState : Traffic oneServer :=
  { failedState with queue := List.replicate 1000 (Event.connectRequest 0) }

/-- The disconnect event finds the queue full, and the worker forgets the socket. -/
theorem clients_dropped :
    ∃ s, run next (untilFailure ++ (List.replicate 1000 (.listen 0) ++ [.worker 0 .post, .worker 0 .free]))
        (start oneServer 100) = some s ∧
      s.Runs 0 ∧ (s.servers 0).clientsTree 7 ≠ none ∧ ¬ s.InCharge 0 7 := by
  have fills : run next (List.replicate 1000 (.listen 0)) failedState = some fullState :=
    run_listen 1000 (Nat.le_of_eq rfl) ⟨rfl, rfl⟩
  have fails : next (.worker 0 .post) fullState =
      some ((fullState.postEvent (.serverDisconnect 0 7 1)).moveWorker 0 (.busy none 7 [] 99 .closing)) := rfl
  rw [postEvent_full List.length_replicate] at fails
  refine ⟨_, run_append.mpr ⟨failedState, rfl, run_append.mpr ⟨_, fills, run_cons.mpr ⟨_, fails, rfl⟩⟩⟩,
    ⟨rfl, rfl⟩, by decide, ?_⟩
  rintro (⟨w, _, monitored | task⟩ | waiting | ⟨object, queued⟩ | ⟨object, handled⟩)
  · obtain rfl : w = 0 := Subsingleton.elim w 0
    cases monitored
  · obtain rfl : w = 0 := Subsingleton.elim w 0
    cases task
  · cases waiting
  · have request := List.eq_of_mem_replicate queued
    cases request
  · cases handled

end Traffic

end GbfLibrary.Enet
