import GbfLibrary.Enet.Calls
import GbfLibrary.Systems.Run

/-!
# Which calls give back what they lock

The public functions of the network library and the queries of the pool library, called by a
thread one after the other.
-/

set_option autoImplicit false

namespace GbfLibrary.Handles

open Lock Systems

/-- What `countHandle` finds, and how often the thread has looked then. -/
theorem countHandle_spec {db n : Lockable} {world : World} {thread thread' : ThreadState Lockable} {found : Bool}
    (runs : Call.countHandle db n world thread = some (found, thread')) :
    found = world.registered (thread.clock + 1) n ∧ thread'.clock = thread.clock + 2 := by
  obtain ⟨_, locked, locks, runs⟩ := Code.bind_eq_some runs
  obtain ⟨seen, looked, looks, runs⟩ := Code.bind_eq_some runs
  have clock := Code.wlock_clock locks
  cases looks
  rw [← clock]
  split at runs
  · next there =>
    obtain ⟨_, _, counts, runs⟩ := Code.bind_eq_some runs
    obtain ⟨_, _, unlocks, runs⟩ := Code.bind_eq_some runs
    cases counts
    cases unlocks
    cases runs
    exact ⟨there.symm, congrArg (· + 1) clock⟩
  · next missing =>
    obtain ⟨_, _, unlocks, runs⟩ := Code.bind_eq_some runs
    cases unlocks
    cases runs
    exact ⟨(Bool.eq_false_iff.mpr missing).symm, congrArg (· + 1) clock⟩

/-- The handle is registered when it is counted, and alive and with an object when it is locked. -/
structure EnetLocked (world : World) (clock handle : Nat) : Prop where
  notNull : handle ≠ 0
  registered : world.registered (clock + 1) (.enet handle) = true
  alive : world.alive (clock + 3) (.enet handle) = true
  object : world.object (clock + 4) handle ≠ .null

/-- The handle is registered when it is counted, and alive when it is locked. -/
structure ThpLocked (world : World) (clock handle : Nat) : Prop where
  notNull : handle ≠ 0
  registered : world.registered (clock + 1) (.thp handle) = true
  alive : world.alive (clock + 3) (.thp handle) = true

section Locked

variable {world : World} {thread thread' : ThreadState Lockable} {handle : Nat} {rc : Status}

/-- A lock is refused before it is taken, or it is taken and checked. -/
theorem rlockHandle_spec {kind : Nat → Lockable} {db : Lockable} {check : Call Status}
    (runs : (do
      if handle = 0 then return .invHandle
      let found ← Call.countHandle db (kind handle)
      if found = false then return .invHandle
      Call.rlock (kind handle)
      check : Call Status) world thread = some (rc, thread')) :
    (rc = .invHandle ∧ (handle ≠ 0 → world.registered (thread.clock + 1) (kind handle) = false)) ∨
      handle ≠ 0 ∧ world.registered (thread.clock + 1) (kind handle) = true ∧
        ∃ between, between.clock = thread.clock + 3 ∧ check world between = some (rc, thread') := by
  split at runs
  · next null =>
    cases runs
    exact .inl ⟨rfl, absurd null⟩
  next notNull =>
  obtain ⟨found, counted, counts, runs⟩ := Code.bind_eq_some runs
  obtain ⟨registered, clock⟩ := countHandle_spec counts
  split at runs
  · next missing =>
    cases runs
    exact .inl ⟨rfl, fun _ => registered.symm.trans missing⟩
  · next there =>
    rw [Bool.not_eq_false] at there
    obtain ⟨_, locked, locks, runs⟩ := Code.bind_eq_some runs
    have clock' := Code.rlock_clock locks
    rw [clock] at clock'
    exact .inr ⟨notNull, registered.symm.trans there, locked, clock', runs⟩

private theorem enet_handleRlock_spec (runs : Enet.Calls.handleRlock handle world thread = some (rc, thread')) :
    (rc = .ok ↔ EnetLocked world thread.clock handle) ∧ (rc = .ok → thread'.clock = thread.clock + 5) := by
  obtain ⟨rfl, missing⟩ | ⟨notNull, registered, between, clock, runs⟩ := rlockHandle_spec runs
  · refine ⟨iff_of_false (by simp) fun locked => ?_, by simp⟩
    exact absurd (missing locked.notNull) (by simp [locked.registered])
  obtain ⟨alive, first, looks, runs⟩ := Code.bind_eq_some runs
  obtain ⟨object, second, looks', runs⟩ := Code.bind_eq_some runs
  cases looks
  cases looks'
  simp only [clock, Nat.add_assoc] at runs
  split at runs
  · next refused =>
    obtain ⟨_, _, _, runs⟩ := Code.bind_eq_some runs
    cases runs
    refine ⟨iff_of_false (by simp) fun locked => ?_, by simp⟩
    rcases refused with dead | null
    · exact absurd locked.alive (by simpa using dead)
    · exact locked.object null
  · next accepted =>
    cases runs
    rw [not_or, Bool.not_eq_false] at accepted
    exact ⟨iff_of_true rfl ⟨notNull, registered, accepted.1, accepted.2⟩, fun _ => rfl⟩

private theorem thp_handleRlock_spec (runs : Thp.Calls.handleRlock handle world thread = some (rc, thread')) :
    (rc = .ok ↔ ThpLocked world thread.clock handle) ∧ (rc = .ok → thread'.clock = thread.clock + 4) := by
  obtain ⟨rfl, missing⟩ | ⟨notNull, registered, between, clock, runs⟩ := rlockHandle_spec runs
  · refine ⟨iff_of_false (by simp) fun locked => ?_, by simp⟩
    exact absurd (missing locked.notNull) (by simp [locked.registered])
  obtain ⟨alive, first, looks, runs⟩ := Code.bind_eq_some runs
  cases looks
  simp only [clock, Nat.add_assoc] at runs
  split at runs
  · next dead =>
    obtain ⟨_, _, _, runs⟩ := Code.bind_eq_some runs
    cases runs
    exact ⟨iff_of_false (by simp) fun locked => absurd locked.alive (by simpa using dead), by simp⟩
  · next accepted =>
    cases runs
    exact ⟨iff_of_true rfl ⟨notNull, registered, by simpa using accepted⟩, fun _ => rfl⟩

end Locked

/-- A public call of one of the two libraries, with the arguments that its locks depend on. -/
inductive PublicCall where
  | tcpClientConnect (client : Nat)
  | tcpClientDisconnect (handle : Nat)
  | deleteTcpClient (handle : Nat)
  | tcpClientSend (handle : Nat) (buf size : Int)
  | newTcpServer (flag : Nat)
  | tcpServerWaitPacket (server : Nat) (client size : Int)
  | startTcpServer (server : Nat)
  | stopTcpServer (server : Nat)
  | deleteTcpServer (server : Nat)
  | disconnectClientFromTcpServer (server : Nat) (client : Int)
  | tcpServerSendToClient (server : Nat) (client data size : Int)
  | tcpServerGetClientCount (server : Nat) (count : Int)
  | newUdp (port udp : Int)
  | udpSetTarget (udp : Nat) (ip port : Int)
  | udpSend (udp : Nat) (data size : Int)
  | udpBroadcast (udp : Nat) (data size : Int)
  | udpSendTo (udp : Nat) (ip port size : Int)
  | udpSendBack (udp : Nat) (data size : Int)
  | deleteUdp (udp : Nat)
  | getThreads (pool : Nat) (prev : Int)
  | getPendingTaskCount (pool : Nat) (count : Int)
  | getRunningThreadCount (pool : Nat) (count : Int)

/-- What a call returns does not matter here. -/
def PublicCall.ignore {α : Type} (code : Call α) : Call Unit := do
  let _ ← code
  return ()

open PublicCall Enet.Calls Thp.Calls in
def PublicCall.perform : PublicCall → Call Unit
  | tcpClientConnect client => ignore (Enet.Calls.tcpClientConnect client)
  | tcpClientDisconnect handle => ignore (Enet.Calls.tcpClientDisconnect handle)
  | deleteTcpClient handle => ignore (Enet.Calls.deleteTcpClient handle)
  | tcpClientSend handle buf size => ignore (Enet.Calls.tcpClientSend handle buf size)
  | newTcpServer flag => ignore (Enet.Calls.newTcpServer flag)
  | tcpServerWaitPacket server client size => ignore (Enet.Calls.tcpServerWaitPacket server client size)
  | startTcpServer server => ignore (Enet.Calls.startTcpServer server)
  | stopTcpServer server => ignore (Enet.Calls.stopTcpServer server)
  | deleteTcpServer server => ignore (Enet.Calls.deleteTcpServer server)
  | disconnectClientFromTcpServer server client => ignore (Enet.Calls.disconnectClientFromTcpServer server client)
  | tcpServerSendToClient server client data size =>
      ignore (Enet.Calls.tcpServerSendToClient server client data size)
  | tcpServerGetClientCount server count => ignore (Enet.Calls.tcpServerGetClientCount server count)
  | newUdp port udp => ignore (Enet.Calls.newUdp port udp)
  | udpSetTarget udp ip port => ignore (Enet.Calls.udpSetTarget udp ip port)
  | udpSend udp data size => ignore (Enet.Calls.udpSend udp data size)
  | udpBroadcast udp data size => ignore (Enet.Calls.udpBroadcast udp data size)
  | udpSendTo udp ip port size => ignore (Enet.Calls.udpSendTo udp ip port size)
  | udpSendBack udp data size => ignore (Enet.Calls.udpSendBack udp data size)
  | deleteUdp udp => ignore (Enet.Calls.deleteUdp udp)
  | getThreads pool prev => ignore (Thp.Calls.getThreads pool prev)
  | getPendingTaskCount pool count => ignore (Thp.Calls.getPendingTaskCount pool count)
  | getRunningThreadCount pool count => ignore (Thp.Calls.getRunningThreadCount pool count)

/-- The calls that keep a handle locked: two of the network library with a locked handle whose object is of
another kind, and a query of a locked pool whose task server is not locked. -/
def Leaks (world : World) (clock : Nat) : PublicCall → Prop
  | .tcpClientSend handle buf size => buf ≠ 0 ∧ size ≠ 0 ∧ size ≤ Enet.Calls.ENET_DEFAULT_SOCKET_BUFFER ∧
      EnetLocked world clock handle ∧ world.object (clock + 5) handle ≠ .tcpClient
  | .startTcpServer server => EnetLocked world clock server ∧ world.object (clock + 5) server ≠ .tcpServer
  | .getPendingTaskCount pool count => pool ≠ 0 ∧ count ≠ 0 ∧ ThpLocked world (clock + 1) pool ∧
      ∀ objects ∈ world.pool clock pool, ¬ ThpLocked world (clock + 5) objects.1
  | _ => False

/-- A call that returns. -/
def step (world : World) (call : PublicCall) (thread : ThreadState Lockable) : Option (ThreadState Lockable) :=
  (call.perform world thread).map Prod.snd

section Balance

variable {world : World} {thread thread' : ThreadState Lockable} {α : Type}

/-- What is left locked if `leaks`. -/
def Leaves (leaks : Prop) (taken : Accounts → Accounts) (thread thread' : ThreadState Lockable) : Prop :=
  (leaks → thread'.ledger = taken thread.ledger) ∧ (¬ leaks → thread'.ledger = thread.ledger)

private theorem takes_ledger {taken : Accounts → Accounts} {code : Call Status} {rc : Status}
    (takes : Takes Settled taken code) (settled : Settled thread.ledger) (runs : code world thread = some (rc, thread')) :
    thread'.ledger = if rc = .ok then taken thread.ledger else thread.ledger :=
  takes world thread rc thread' thread.ledger settled rfl runs

private theorem getObject_spec {kind : EnetObject} {handle : Nat} {found : Bool}
    (runs : Enet.Calls.getObject kind handle world thread = some (found, thread')) :
    (found = true ↔ world.object thread.clock handle = kind) ∧ thread'.ledger = thread.ledger := by
  have stays (object : EnetObject) : Keeps Anything (Call.whenever (object = .null) Code.fault) :=
    whenever_turns fun _ => .fault
  obtain ⟨object, seen, sees, later⟩ := Code.bind_eq_some runs
  obtain ⟨_, _, present, answers⟩ := Code.bind_eq_some later
  cases sees
  cases answers
  exact ⟨by simp, stays _ world ⟨thread.ledger, thread.clock + 1⟩ _ _ thread.ledger trivial rfl present⟩

/-- A handle is locked to read, and given back if its object is of the right kind. -/
theorem leaves_of_kind {kind : EnetObject} {handle : Nat} {failed : Status → α} {mismatch a : α} {body : Call α}
    (settled : Settled thread.ledger)
    (rest : Turns Settled (reading .enet handle) body fun _ => id)
    (runs : (do
      let rc ← Enet.Calls.handleRlock handle
      if rc ≠ .ok then return failed rc
      let found ← Enet.Calls.getObject kind handle
      if found = false then return mismatch
      body : Call α) world thread = some (a, thread')) :
    Leaves (EnetLocked world thread.clock handle ∧ world.object (thread.clock + 5) handle ≠ kind)
      (reading .enet handle) thread thread' := by
  obtain ⟨rc, locked, locks, runs⟩ := Code.bind_eq_some runs
  have ledger := takes_ledger (Enet.Calls.handleRlock_takes (Enet.Calls.idle_of_settled handle)) settled locks
  obtain ⟨ok, clock⟩ := enet_handleRlock_spec locks
  by_cases refused : rc = .ok
  · rw [if_neg (not_not_intro refused)] at runs
    rw [if_pos refused] at ledger
    obtain ⟨found, looked, looks, runs⟩ := Code.bind_eq_some runs
    obtain ⟨same, unchanged⟩ := getObject_spec looks
    rw [clock refused] at same
    have isLocked := ok.mp refused
    cases found with
    | false =>
        cases runs
        have other : world.object (thread.clock + 5) handle ≠ kind := by simpa using same
        exact ⟨fun _ => unchanged.trans ledger, fun kept => absurd ⟨isLocked, other⟩ kept⟩
    | true =>
        refine ⟨fun leaks => absurd (same.mp rfl) leaks.2, fun _ => ?_⟩
        exact rest world looked a thread' thread.ledger settled (unchanged.trans ledger) runs
  · rw [if_pos refused] at runs
    cases runs
    rw [if_neg refused] at ledger
    exact ⟨fun leaks => absurd (ok.mpr leaks.1) refused, fun _ => ledger⟩

private theorem getPoolObject_spec {pool : Nat} {object : Option (Nat × Nat)} (notNull : pool ≠ 0)
    (runs : Thp.Calls.getPoolObject pool world thread = some (object, thread')) :
    object = world.pool thread.clock pool ∧ thread'.clock = thread.clock + 1 ∧ thread'.ledger = thread.ledger := by
  obtain ⟨_, _, present, looks⟩ := Code.bind_eq_some runs
  rw [Call.whenever, if_neg notNull] at present
  cases present
  cases looks
  exact ⟨rfl, rfl, rfl⟩

/-- The pool stays locked if the task server is not. -/
theorem getPendingTaskCount_leaves {pool : Nat} {count : Int} {rc : Status} (settled : Settled thread.ledger)
    (runs : Thp.Calls.getPendingTaskCount pool count world thread = some (rc, thread')) :
    Leaves (Leaks world thread.clock (.getPendingTaskCount pool count)) (reading .thp pool) thread thread' := by
  unfold Thp.Calls.getPendingTaskCount at runs
  split at runs
  · next refused =>
    cases runs
    refine ⟨fun leaks => ?_, fun _ => rfl⟩
    exact absurd refused (not_or.mpr ⟨leaks.1, leaks.2.1⟩)
  next given =>
  rw [not_or] at given
  obtain ⟨object, looked, looks, runs⟩ := Code.bind_eq_some runs
  obtain ⟨rfl, clock, ledger⟩ := getPoolObject_spec given.1 looks
  obtain ⟨rc, locked, locks, runs⟩ := Code.bind_eq_some runs
  rw [← ledger] at settled
  have taken := takes_ledger (Thp.Calls.handleRlock_takes (Thp.Calls.idle_of_settled pool)) settled locks
  obtain ⟨ok, clock'⟩ := thp_handleRlock_spec locks
  rw [clock] at ok clock'
  rw [ledger] at taken settled
  by_cases refused : rc = .ok
  · rw [if_neg (not_not_intro refused)] at runs
    rw [if_pos refused] at taken
    have isLocked := ok.mp refused
    cases objects : world.pool thread.clock pool with
    | none =>
        rw [objects] at runs
        cases runs
    | some objects' =>
        obtain ⟨taskServer, watcher⟩ := objects'
        rw [objects] at runs
        obtain ⟨rc', second, locks', runs⟩ := Code.bind_eq_some runs
        have settled' : Settled (reading .thp pool thread.ledger) := settled.reading
        rw [← taken] at settled'
        have taken' := takes_ledger (Thp.Calls.handleRlock_takes (Thp.Calls.idle_of_settled taskServer)) settled' locks'
        obtain ⟨ok', -⟩ := thp_handleRlock_spec locks'
        rw [clock' refused, Nat.add_assoc] at ok'
        by_cases refused' : rc' = .ok
        · rw [if_neg (not_not_intro refused')] at runs
          rw [if_pos refused', taken] at taken'
          rw [taken] at settled'
          refine ⟨fun leaks => absurd (ok'.mp refused') (leaks.2.2.2 _ objects), fun _ => ?_⟩
          obtain ⟨_, third, reads, runs⟩ := Code.bind_eq_some runs
          have stays : Keeps Anything (Call.field taskServer) := field_turns _
          have same := stays world second _ third second.ledger trivial rfl reads
          obtain ⟨_, fourth, unlocks, runs⟩ := Code.bind_eq_some runs
          have given' := Thp.Calls.handleUnlock_reading (Thp.Calls.idle_of_settled taskServer) world third _ fourth
            (reading .thp pool thread.ledger) settled' (same.trans taken') unlocks
          exact Thp.Calls.handleUnlock_reading (Thp.Calls.idle_of_settled pool) world fourth _ thread' thread.ledger
            settled given' runs
        · rw [if_pos refused'] at runs
          cases runs
          rw [if_neg refused'] at taken'
          refine ⟨fun _ => taken'.trans taken, fun kept => absurd ⟨given.1, given.2, isLocked, ?_⟩ kept⟩
          intro objects' member
          rw [objects] at member
          cases member
          exact fun isLocked' => refused' (ok'.mpr isLocked')
  · rw [if_pos refused] at runs
    cases runs
    rw [if_neg refused] at taken
    exact ⟨fun leaks => absurd (ok.mpr leaks.2.2.1) refused, fun _ => taken⟩

theorem PublicCall.ignore_runs {code : Call α} {u : Unit} (runs : PublicCall.ignore code world thread = some (u, thread')) :
    ∃ a, code world thread = some (a, thread') := by
  obtain ⟨a, between, here, done⟩ := Code.bind_eq_some runs
  cases done
  exact ⟨a, here⟩

theorem Leaves.of_keeps {code : Call α} {u : Unit} (keeps : Keeps Settled code) (settled : Settled thread.ledger)
    (runs : PublicCall.ignore code world thread = some (u, thread')) : Leaves False id thread thread' := by
  obtain ⟨a, runs⟩ := PublicCall.ignore_runs runs
  exact ⟨False.elim, fun _ => keeps world thread a thread' thread.ledger settled rfl runs⟩

/-- The handle that a leaking call keeps locked, as it is counted and read. -/
def PublicCall.kept : PublicCall → Accounts → Accounts
  | .tcpClientSend handle _ _ => reading .enet handle
  | .startTcpServer server => reading .enet server
  | .getPendingTaskCount pool _ => reading .thp pool
  | _ => id

private theorem tcpClientSend_leaves {handle : Nat} {buf size : Int} {rc : Status} (settled : Settled thread.ledger)
    (runs : Enet.Calls.tcpClientSend handle buf size world thread = some (rc, thread')) :
    Leaves (Leaks world thread.clock (.tcpClientSend handle buf size)) (reading .enet handle) thread thread' := by
  unfold Enet.Calls.tcpClientSend at runs
  split at runs
  · next refused =>
    cases runs
    exact ⟨fun leaks => absurd refused (not_or.mpr ⟨leaks.1, leaks.2.1⟩), fun _ => rfl⟩
  next given =>
  split at runs
  · next tooLarge =>
    cases runs
    exact ⟨fun leaks => absurd leaks.2.2.1 (Int.not_le.mpr tooLarge), fun _ => rfl⟩
  next fits =>
  have rest : Turns Settled (reading .enet handle) (do
      let _ ← Enet.Calls.handleUnlock handle
      Enet.Calls.tcpClientRetry handle) fun _ => id :=
    .bind (Enet.Calls.unlock_read handle) fun _ => Enet.Calls.tcpClientRetry_keeps handle
  obtain ⟨leaves, keeps⟩ := leaves_of_kind settled rest runs
  rw [not_or] at given
  constructor
  · intro leaks
    exact leaves leaks.2.2.2
  · intro kept
    exact keeps fun both => kept ⟨given.1, given.2, Int.not_lt.mp fits, both⟩

private theorem startTcpServer_leaves {server : Nat} {rc : Status} (settled : Settled thread.ledger)
    (runs : Enet.Calls.startTcpServer server world thread = some (rc, thread')) :
    Leaves (Leaks world thread.clock (.startTcpServer server)) (reading .enet server) thread thread' := by
  refine leaves_of_kind settled (.bind (.ask _) fun st => .ite (fun _ => ?_) fun _ => ?_) runs
  · exact .bind (.ask _) fun error => Enet.Calls.bail_read _
  · refine .bind outcome_turns fun rc => .ite (fun _ => Enet.Calls.bail_read _) fun _ => .bind (.ask _) fun pool => ?_
    refine .bind (.frame (Thp.Calls.startThreadPool_keeps _)) fun rc => .ite (fun _ => ?_) fun _ => Enet.Calls.bail_read _
    exact .bind outcome_turns fun _ => Enet.Calls.bail_read _

theorem step_leaves (call : PublicCall) (settled : Settled thread.ledger) (returns : step world call thread = some thread') :
    Leaves (Leaks world thread.clock call) call.kept thread thread' := by
  obtain ⟨⟨u, after⟩, runs, same⟩ := Option.map_eq_some_iff.mp returns
  cases same
  cases call with
  | tcpClientConnect client =>
      exact .of_keeps (Enet.Calls.tcpClientConnect_keeps client) settled runs
  | tcpClientDisconnect handle =>
      exact .of_keeps (Enet.Calls.tcpClientDisconnect_keeps handle) settled runs
  | deleteTcpClient handle =>
      exact .of_keeps (Enet.Calls.deleteTcpClient_keeps handle) settled runs
  | tcpClientSend handle buf size =>
      obtain ⟨rc, runs⟩ := PublicCall.ignore_runs runs
      exact tcpClientSend_leaves settled runs
  | newTcpServer flag =>
      exact .of_keeps (Enet.Calls.newTcpServer_keeps flag) settled runs
  | tcpServerWaitPacket server client size =>
      exact .of_keeps (Enet.Calls.tcpServerWaitPacket_keeps server client size) settled runs
  | startTcpServer server =>
      obtain ⟨rc, runs⟩ := PublicCall.ignore_runs runs
      exact startTcpServer_leaves settled runs
  | stopTcpServer server =>
      exact .of_keeps (Enet.Calls.stopTcpServer_keeps server) settled runs
  | deleteTcpServer server =>
      exact .of_keeps (Enet.Calls.deleteTcpServer_keeps server) settled runs
  | disconnectClientFromTcpServer server client =>
      exact .of_keeps (Enet.Calls.disconnectClientFromTcpServer_keeps server client) settled runs
  | tcpServerSendToClient server client data size =>
      exact .of_keeps (Enet.Calls.tcpServerSendToClient_keeps server client data size) settled runs
  | tcpServerGetClientCount server count =>
      exact .of_keeps (Enet.Calls.tcpServerGetClientCount_keeps server count) settled runs
  | newUdp port udp =>
      exact .of_keeps (Enet.Calls.newUdp_keeps port udp) settled runs
  | udpSetTarget udp ip port =>
      exact .of_keeps (Enet.Calls.udpSetTarget_keeps udp ip port) settled runs
  | udpSend udp data size =>
      exact .of_keeps (Enet.Calls.udpSend_keeps udp data size) settled runs
  | udpBroadcast udp data size =>
      exact .of_keeps (Enet.Calls.udpBroadcast_keeps udp data size) settled runs
  | udpSendTo udp ip port size =>
      exact .of_keeps (Enet.Calls.udpSendTo_keeps udp ip port size) settled runs
  | udpSendBack udp data size =>
      exact .of_keeps (Enet.Calls.udpSendBack_keeps udp data size) settled runs
  | deleteUdp udp =>
      exact .of_keeps (Enet.Calls.deleteUdp_keeps udp) settled runs
  | getThreads pool prev =>
      exact .of_keeps (Thp.Calls.getThreads_keeps pool prev) settled runs
  | getPendingTaskCount pool count =>
      obtain ⟨rc, runs⟩ := PublicCall.ignore_runs runs
      exact getPendingTaskCount_leaves settled runs
  | getRunningThreadCount pool count =>
      exact .of_keeps (Thp.Calls.getRunningThreadCount_keeps pool count) settled runs

private theorem PublicCall.settled_kept (call : PublicCall) {accounts : Accounts} (settled : Settled accounts) :
    Settled (call.kept accounts) := by
  cases call <;> first | exact settled.reading | exact settled

/-- A handle that is counted makes a difference. -/
theorem reading_ne {kind : Nat → Lockable} {handle : Nat} (notNull : handle ≠ 0) (accounts : Accounts) :
    reading kind handle accounts ≠ accounts := by
  intro same
  have refs := congrArg (fun accounts => (accounts (kind handle)).refs) same
  simp only [reading_of_ne notNull, Ledger.change_apply_self, Account.addRead, Account.addReference] at refs
  omega

private theorem Leaks.kept_ne {clock : Nat} {call : PublicCall} (leaks : Leaks world clock call) (accounts : Accounts) :
    call.kept accounts ≠ accounts := by
  cases call with
  | tcpClientSend handle buf size => exact reading_ne leaks.2.2.2.1.notNull accounts
  | startTcpServer server => exact reading_ne leaks.1.notNull accounts
  | getPendingTaskCount pool count => exact reading_ne leaks.1 accounts
  | _ => exact leaks.elim

/-- No call leaves a thread with a handle that it writes. -/
theorem run_settled {calls : List PublicCall} (settled : Settled thread.ledger)
    (runs : run (step world) calls thread = some thread') : Settled thread'.ledger := by
  refine run_invariant (P := fun thread => Settled thread.ledger) ?_ settled runs
  intro call before after settled returns
  obtain ⟨leaves, keeps⟩ := step_leaves call settled returns
  by_cases leaks : Leaks world before.clock call
  · rw [leaves leaks]
    exact call.settled_kept settled
  · rwa [keeps leaks]

end Balance

/-- A thread that has locked nothing. -/
def ThreadState.fresh : ThreadState Lockable := ⟨fun _ => Account.nothing, 0⟩

/-- Whatever a thread has called before, a call that returns leaves it with the locks and references that it had
if and only if it is none of those that keep a handle locked. -/
theorem ledger_eq_iff (world : World) (calls : List PublicCall) (call : PublicCall)
    (thread thread' : ThreadState Lockable) (before : run (step world) calls ThreadState.fresh = some thread)
    (returns : step world call thread = some thread') :
    thread'.ledger = thread.ledger ↔ ¬ Leaks world thread.clock call := by
  have nothing : Settled ThreadState.fresh.ledger := fun _ => ⟨rfl, rfl⟩
  obtain ⟨leaves, keeps⟩ := step_leaves call (run_settled nothing before) returns
  constructor
  · intro same leaks
    exact leaks.kept_ne thread.ledger ((leaves leaks).symm.trans same)
  · exact keeps

/-- A thread that meets one handle, with such an object. -/
def worldOf (object : EnetObject) : World where
  grants _ _ := true
  registered _ _ := true
  alive _ _ := true
  others _ _ := 0
  object _ _ := object
  pool _ _ := none
  answer _ := 0

/-- A datagram is sent through a handle of the right kind. -/
theorem ledger_eq_iff_send :
    ∃ thread', step (worldOf .udp) (.udpSend 1 1 1) ThreadState.fresh = some thread' ∧
      (thread'.ledger = ThreadState.fresh.ledger ↔ ¬ Leaks (worldOf .udp) 0 (.udpSend 1 1 1)) :=
  ⟨_, rfl, ledger_eq_iff (worldOf .udp) [] (.udpSend 1 1 1) ThreadState.fresh _ rfl rfl⟩

/-- What is sent through the handle of a datagram socket as if it were a client keeps the handle locked. -/
theorem ledger_ne_send :
    ∃ thread', step (worldOf .udp) (.tcpClientSend 1 1 1) ThreadState.fresh = some thread' ∧
      ThreadState.fresh.ledger (.enet 1) = ⟨0, Hold.nothing⟩ ∧
      (thread'.ledger (.enet 1)).refs = 1 ∧ (thread'.ledger (.enet 1)).hold.reads = 1 :=
  ⟨_, rfl, rfl, rfl, rfl⟩

end GbfLibrary.Handles
