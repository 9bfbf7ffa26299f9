import GbfLibrary.Enet.Shutdown

/-!
# When a server can be stopped

The threads of the pool ask for the locks of the server and of the watcher only at
certain points. Where none of them is at one of these when the locks are taken, and none
comes there before the status is set, all of them end.
-/

set_option autoImplicit false

namespace GbfLibrary.Enet

open Systems Lock

variable {n : Nat}

/-- The call has the lock of the server. -/
def StopPoint.hasServer : StopPoint n → Bool
  | .serverLocked | .askingWatcher | .claimingWatcher | .watcherLocked | .waiting | .joining _
  | .deletingPool | .unlockingServer => true
  | .idle | .askingServer | .claimingServer | .done => false

/-- The call has the lock of the server until it joined the threads. -/
def StopPoint.joins : StopPoint n → Bool
  | .askingWatcher | .claimingWatcher | .watcherLocked | .waiting | .joining _ => true
  | _ => false

/-- The call has the lock of the watcher. -/
def StopPoint.hasWatcher : StopPoint n → Bool
  | .watcherLocked | .waiting | .joining _ => true
  | _ => false

def StopPoint.hold (point : StopPoint n) : PoolLock → Hold
  | .server => ⟨0, if point.hasServer then 1 else 0, point = .claimingServer⟩
  | .watcher => ⟨0, if point.hasWatcher then 1 else 0, point = .claimingWatcher⟩

/-- The watcher's thread has the lock of the watcher. -/
def WatcherPoint.growsPool : WatcherPoint n → Bool
  | .growing _ | .unlocking => true
  | _ => false

/-- It is going to have it. -/
def WatcherPoint.asks : WatcherPoint n → Bool
  | .asking _ | .claiming _ => true
  | _ => false

/-- The worker that it made and that is not started. -/
def WatcherPoint.makes : WatcherPoint n → Option (Fin n)
  | .asking i | .claiming i | .growing i => some i
  | _ => none

def WatcherPoint.claims : WatcherPoint n → Bool
  | .claiming _ => true
  | _ => false

def WatcherPoint.hold (point : WatcherPoint n) : PoolLock → Hold
  | .server => Hold.nothing
  | .watcher => ⟨0, if point.growsPool then 1 else 0, point.claims⟩

def PoolWorker.hold (point : PoolWorker) : PoolLock → Hold
  | .server => ⟨if point = .reading then 1 else 0, 0, false⟩
  | .watcher => ⟨if point = .finding then 1 else 0, 0, false⟩

namespace Shutdown

variable {s s' : Shutdown n} {i : Fin n} {lock : PoolLock}

/-- The schedules in which a thread and the call wait for each other: a worker that looked
at the status is about to read the server when the call, with the lock of the server, goes
on to the lock of the watcher, or comes there afterwards; a worker is at its start, or the
watcher's thread is about to take its lock, when the call gets the lock of the watcher;
the watcher's thread decides to grow the pool while the call has that lock. -/
def Collides : ShutdownStep n → Shutdown n → Prop
  | .stopper suspended, s =>
      s.stopper = .serverLocked ∧ (s.call = .delete ∨ suspended = true) ∧ (∃ i, s.workers i = .asking) ∨
        s.stopper = .claimingWatcher ∧ ((∃ i, s.workers i = .starting) ∨ s.watcher.asks = true)
  | .worker i true, s => s.workers i = .called ∧ s.stopper.joins = true
  | .watcher true (some _), s => s.watcher = .counting ∧ s.stopper.hasWatcher = true
  | _, _ => False

instance : (step : ShutdownStep n) → (s : Shutdown n) → Decidable (Collides step s)
  | .stopper suspended, s => inferInstanceAs (Decidable
      (s.stopper = .serverLocked ∧ (s.call = .delete ∨ suspended = true) ∧
          (∃ i, s.workers i = .asking) ∨
        s.stopper = .claimingWatcher ∧ ((∃ i, s.workers i = .starting) ∨ s.watcher.asks = true)))
  | .worker i true, s => inferInstanceAs (Decidable (s.workers i = .called ∧ s.stopper.joins = true))
  | .watcher true (some _), s =>
      inferInstanceAs (Decidable (s.watcher = .counting ∧ s.stopper.hasWatcher = true))
  | .worker _ false, _ | .watcher false _, _ | .watcher true none, _ | .call _, _ => .isFalse id

/-- What a thread has of a lock. -/
def holds (s : Shutdown n) (lock : PoolLock) : Party n → Hold
  | .stopper => s.stopper.hold lock
  | .watcher => s.watcher.hold lock
  | .worker i => (s.workers i).hold lock

/-- The locks are what the threads make of them, and no thread of the pool is about to
take a lock that the call keeps until it joined that thread. -/
structure Clear (s : Shutdown n) : Prop where
  agrees : ∀ lock, (s.lockOf lock).Agrees (s.holds lock)
  made : ∀ i, s.watcher.makes = some i → s.workers i = .suspended
  server : s.stopper.joins = true → ∀ i, s.workers i ≠ .asking
  watcher : s.stopper.hasWatcher = true → (∀ i, s.workers i ≠ .starting) ∧ s.watcher.asks = false

private theorem holds_stopper (watcher : s'.watcher = s.watcher) (workers : s'.workers = s.workers) :
    s'.holds lock = Function.update (s.holds lock) .stopper (s'.stopper.hold lock) := by
  funext p
  cases p with
  | stopper => rw [Function.update_self]; rfl
  | watcher => rw [Function.update_of_ne (by simp)]; simp only [holds, watcher]
  | worker i => rw [Function.update_of_ne (by simp)]; simp only [holds, workers]

private theorem holds_watcher (stopper : s'.stopper = s.stopper)
    (workers : ∀ i, (s'.workers i).hold lock = (s.workers i).hold lock) :
    s'.holds lock = Function.update (s.holds lock) .watcher (s'.watcher.hold lock) := by
  funext p
  cases p with
  | stopper => rw [Function.update_of_ne (by simp)]; simp only [holds, stopper]
  | watcher => rw [Function.update_self]; rfl
  | worker i => rw [Function.update_of_ne (by simp)]; exact workers i

private theorem holds_worker {point : PoolWorker} (stopper : s'.stopper = s.stopper)
    (watcher : s'.watcher = s.watcher) (workers : s'.workers = Function.update s.workers i point) :
    s'.holds lock = Function.update (s.holds lock) (.worker i) (point.hold lock) := by
  funext p
  cases p with
  | stopper => rw [Function.update_of_ne (by simp)]; simp only [holds, stopper]
  | watcher => rw [Function.update_of_ne (by simp)]; simp only [holds, watcher]
  | worker j =>
      by_cases same : j = i
      · subst same
        rw [Function.update_self]
        simp only [holds, workers, Function.update_self]
      · have other : (Party.worker j : Party n) ≠ .worker i := fun equal => same (Party.worker.inj equal)
        rw [Function.update_of_ne other]
        simp only [holds, workers, Function.update_of_ne same]

/-- A party that has the same of a lock afterwards, and a lock that is the same. -/
theorem agrees_same {p : Party n} {hold : Hold} (agrees : (s.lockOf lock).Agrees (s.holds lock))
    (locks : s'.lockOf lock = s.lockOf lock)
    (moved : s'.holds lock = Function.update (s.holds lock) p hold) (same : hold = s.holds lock p) :
    (s'.lockOf lock).Agrees (s'.holds lock) := by
  rw [locks, moved, same, Function.update_eq_self]
  exact agrees

/-- A party that has what a lock now says it has. -/
theorem agrees_moved {p : Party n} {hold hold' : Hold} {lock' : RwLock (Party n)}
    (agrees : lock'.Agrees (Function.update (s.holds lock) p hold)) (locks : s'.lockOf lock = lock')
    (moved : s'.holds lock = Function.update (s.holds lock) p hold') (same : hold' = hold) :
    (s'.lockOf lock).Agrees (s'.holds lock) := by
  rw [locks, moved, same]
  exact agrees

private theorem agrees_stopper (agrees : ∀ lock, (s.lockOf lock).Agrees (s.holds lock))
    (locks : ∀ lock, s'.lockOf lock = s.lockOf lock) (watcher : s'.watcher = s.watcher)
    (workers : s'.workers = s.workers) (same : s'.stopper.hold lock = s.stopper.hold lock) :
    (s'.lockOf lock).Agrees (s'.holds lock) :=
  agrees_same (agrees lock) (locks lock) (holds_stopper watcher workers) same

private theorem stopperStep_agrees {suspended : Bool} (agrees : ∀ lock, (s.lockOf lock).Agrees (s.holds lock))
    (step : s.stopperStep suspended s.stopper = some s') (lock : PoolLock) :
    (s'.lockOf lock).Agrees (s'.holds lock) := by
  unfold stopperStep at step
  split at step
  · cases step
  · next here =>
    obtain ⟨⟨got, taken⟩, enters, rfl⟩ := Option.map_eq_some_iff.mp step
    cases lock with
    | watcher =>
        refine agrees_same (agrees .watcher) rfl (holds_stopper rfl rfl) ?_
        rw [show s.holds .watcher .stopper = s.stopper.hold .watcher from rfl, here]
        cases got <;> rfl
    | server =>
        have nothing : s.holds .server .stopper = ⟨0, 0, false⟩ := by
          rw [show s.holds .server .stopper = s.stopper.hold .server from rfl, here]
          rfl
        rcases (agrees .server).wlockEnter (by rw [nothing]) enters with ⟨_, writes, _⟩ | ⟨rfl, waits⟩
        · rw [nothing] at writes
          cases writes
        · exact agrees_moved waits rfl (holds_stopper rfl rfl) (by rw [nothing]; rfl)
  · next here =>
    obtain ⟨taken, grants, rfl⟩ := Option.map_eq_some_iff.mp step
    cases lock with
    | watcher =>
        refine agrees_same (agrees .watcher) rfl (holds_stopper rfl rfl) ?_
        rw [show s.holds .watcher .stopper = s.stopper.hold .watcher from rfl, here]
        rfl
    | server =>
        have claims : s.holds .server .stopper = ⟨0, 0, true⟩ := by
          rw [show s.holds .server .stopper = s.stopper.hold .server from rfl, here]
          rfl
        have granted := (agrees .server).wlockGrant (by rw [claims]) grants
        exact agrees_moved granted rfl (holds_stopper rfl rfl) (by rw [claims]; rfl)
  · next here =>
    split at step
    · cases step
      exact agrees_stopper agrees (fun lock => by cases lock <;> rfl) rfl rfl
        (by rw [here]; cases lock <;> rfl)
    · cases step
      exact agrees_stopper agrees (fun lock => by cases lock <;> rfl) rfl rfl
        (by rw [here]; cases lock <;> rfl)
  · next here =>
    obtain ⟨⟨got, taken⟩, enters, rfl⟩ := Option.map_eq_some_iff.mp step
    cases lock with
    | server =>
        refine agrees_same (agrees .server) rfl (holds_stopper rfl rfl) ?_
        rw [show s.holds .server .stopper = s.stopper.hold .server from rfl, here]
        cases got <;> rfl
    | watcher =>
        have nothing : s.holds .watcher .stopper = ⟨0, 0, false⟩ := by
          rw [show s.holds .watcher .stopper = s.stopper.hold .watcher from rfl, here]
          rfl
        rcases (agrees .watcher).wlockEnter (by rw [nothing]) enters with ⟨_, writes, _⟩ | ⟨rfl, waits⟩
        · rw [nothing] at writes
          cases writes
        · exact agrees_moved waits rfl (holds_stopper rfl rfl) (by rw [nothing]; rfl)
  · next here =>
    obtain ⟨taken, grants, rfl⟩ := Option.map_eq_some_iff.mp step
    cases lock with
    | server =>
        refine agrees_same (agrees .server) rfl (holds_stopper rfl rfl) ?_
        rw [show s.holds .server .stopper = s.stopper.hold .server from rfl, here]
        rfl
    | watcher =>
        have claims : s.holds .watcher .stopper = ⟨0, 0, true⟩ := by
          rw [show s.holds .watcher .stopper = s.stopper.hold .watcher from rfl, here]
          rfl
        have granted := (agrees .watcher).wlockGrant (by rw [claims]) grants
        exact agrees_moved granted rfl (holds_stopper rfl rfl) (by rw [claims]; rfl)
  · next here =>
    cases step
    exact agrees_stopper agrees (fun lock => by cases lock <;> rfl) rfl rfl
      (by rw [here]; cases lock <;> rfl)
  · next here =>
    split at step
    · cases step
      exact agrees_stopper agrees (fun lock => by cases lock <;> rfl) rfl rfl
        (by rw [here]; cases lock <;> rfl)
    · cases step
  · next i nodes here =>
    split at step
    · cases step
      exact agrees_stopper agrees (fun lock => by cases lock <;> rfl) rfl rfl
        (by rw [here]; cases lock <;> rfl)
    · cases step
  · next here =>
    cases step
    cases lock with
    | server =>
        refine agrees_same (agrees .server) rfl (holds_stopper rfl rfl) ?_
        rw [show s.holds .server .stopper = s.stopper.hold .server from rfl, here]
        cases s.call <;> rfl
    | watcher =>
        have writes : s.holds .watcher .stopper = ⟨0, 1, false⟩ := by
          rw [show s.holds .watcher .stopper = s.stopper.hold .watcher from rfl, here]
          rfl
        have released := (agrees .watcher).unlock (by rw [writes]) (by rw [writes]; exact .inr Nat.one_pos)
        refine agrees_moved released rfl (holds_stopper rfl rfl) ?_
        rw [writes]
        cases s.call <;> rfl
  · next here =>
    cases step
    exact agrees_stopper agrees (fun lock => by cases lock <;> rfl) rfl rfl
        (by rw [here]; cases lock <;> rfl)
  · next here =>
    cases step
    cases lock with
    | watcher =>
        refine agrees_same (agrees .watcher) rfl (holds_stopper rfl rfl) ?_
        rw [show s.holds .watcher .stopper = s.stopper.hold .watcher from rfl, here]
        rfl
    | server =>
        have writes : s.holds .server .stopper = ⟨0, 1, false⟩ := by
          rw [show s.holds .server .stopper = s.stopper.hold .server from rfl, here]
          rfl
        have released := (agrees .server).unlock (by rw [writes]) (by rw [writes]; exact .inr Nat.one_pos)
        exact agrees_moved released rfl (holds_stopper rfl rfl) (by rw [writes]; rfl)
  · cases step

private theorem watcherStep_agrees {counted : Bool} {grow : Option (Fin n)}
    (agrees : ∀ lock, (s.lockOf lock).Agrees (s.holds lock))
    (made : ∀ i, s.watcher.makes = some i → s.workers i = .suspended)
    (step : s.watcherStep counted grow s.watcher = some s') (lock : PoolLock) :
    (s'.lockOf lock).Agrees (s'.holds lock) := by
  unfold watcherStep at step
  split at step
  · next here =>
    cases step
    refine agrees_same (agrees lock) (by cases lock <;> rfl) (holds_watcher rfl fun _ => rfl) ?_
    rw [show s.holds lock .watcher = s.watcher.hold lock from rfl, here]
    cases s.term <;> cases lock <;> rfl
  · next here =>
    have nothing : s.holds lock .watcher = Hold.nothing := by
      rw [show s.holds lock .watcher = s.watcher.hold lock from rfl, here]
      cases lock <;> rfl
    split at step
    · cases step
      refine agrees_same (agrees lock) (by cases lock <;> rfl) (holds_watcher rfl fun _ => rfl) ?_
      rw [nothing]
      cases lock <;> rfl
    · split at step
      · cases step
        refine agrees_same (agrees lock) (by cases lock <;> rfl) (holds_watcher rfl fun _ => rfl) ?_
        rw [nothing]
        cases lock <;> rfl
      · next i =>
        split at step
        · next unborn =>
          cases step
          refine agrees_same (agrees lock) (by cases lock <;> rfl) (holds_watcher rfl fun j => ?_) ?_
          · by_cases same : j = i
            · subst same
              simp only [setWorker, Function.update_self, unborn]
              cases lock <;> rfl
            · simp only [setWorker, Function.update_of_ne same]
          · rw [nothing]
            cases lock <;> rfl
        · cases step
  · next i here =>
    obtain ⟨⟨got, taken⟩, enters, rfl⟩ := Option.map_eq_some_iff.mp step
    have nothing : s.holds lock .watcher = Hold.nothing := by
      rw [show s.holds lock .watcher = s.watcher.hold lock from rfl, here]
      cases lock <;> rfl
    cases lock with
    | server =>
        refine agrees_same (agrees .server) rfl (holds_watcher rfl fun _ => rfl) ?_
        rw [nothing]
        cases got <;> rfl
    | watcher =>
        rcases (agrees .watcher).wlockEnter (by rw [nothing]; rfl) enters with ⟨_, writes, _⟩ | ⟨rfl, waits⟩
        · rw [nothing] at writes
          cases writes
        · exact agrees_moved waits rfl (holds_watcher rfl fun _ => rfl) (by rw [nothing]; rfl)
  · next i here =>
    obtain ⟨taken, grants, rfl⟩ := Option.map_eq_some_iff.mp step
    cases lock with
    | server =>
        refine agrees_same (agrees .server) rfl (holds_watcher rfl fun _ => rfl) ?_
        rw [show s.holds .server .watcher = s.watcher.hold .server from rfl, here]
        rfl
    | watcher =>
        have claims : s.holds .watcher .watcher = ⟨0, 0, true⟩ := by
          rw [show s.holds .watcher .watcher = s.watcher.hold .watcher from rfl, here]
          rfl
        have granted := (agrees .watcher).wlockGrant (by rw [claims]) grants
        exact agrees_moved granted rfl (holds_watcher rfl fun _ => rfl) (by rw [claims]; rfl)
  · next i here =>
    have suspended : s.workers i = .suspended := made i (by rw [here]; rfl)
    cases step
    refine agrees_same (agrees lock) (by cases lock <;> rfl) (holds_watcher rfl fun j => ?_) ?_
    · by_cases same : j = i
      · subst same
        simp only [setWorker, Function.update_self, suspended]
        cases lock <;> rfl
      · simp only [setWorker, Function.update_of_ne same]
    · rw [show s.holds lock .watcher = s.watcher.hold lock from rfl, here]
      cases lock <;> rfl
  · next here =>
    cases step
    cases lock with
    | server =>
        refine agrees_same (agrees .server) rfl (holds_watcher rfl fun _ => rfl) ?_
        rw [show s.holds .server .watcher = s.watcher.hold .server from rfl, here]
        rfl
    | watcher =>
        have writes : s.holds .watcher .watcher = ⟨0, 1, false⟩ := by
          rw [show s.holds .watcher .watcher = s.watcher.hold .watcher from rfl, here]
          rfl
        have released := (agrees .watcher).unlock (by rw [writes]) (by rw [writes]; exact .inr Nat.one_pos)
        exact agrees_moved released rfl (holds_watcher rfl fun _ => rfl) (by rw [writes]; rfl)
  · cases step

private theorem agrees_worker {point : PoolWorker} (agrees : (s.lockOf lock).Agrees (s.holds lock))
    (same : point.hold lock = (s.workers i).hold lock) :
    ((s.setWorker i point).lockOf lock).Agrees ((s.setWorker i point).holds lock) :=
  agrees_same agrees (by cases lock <;> rfl) (holds_worker rfl rfl rfl) same

private theorem workerStep_agrees {ok : Bool} (agrees : ∀ lock, (s.lockOf lock).Agrees (s.holds lock))
    (step : s.workerStep i ok (s.workers i) = some s') (lock : PoolLock) :
    (s'.lockOf lock).Agrees (s'.holds lock) := by
  unfold workerStep at step
  split at step
  · next here =>
    obtain ⟨⟨rc, taken⟩, takes, rfl⟩ := Option.map_eq_some_iff.mp step
    have nothing : s.holds lock (.worker i) = Hold.nothing := by
      rw [show s.holds lock (.worker i) = (s.workers i).hold lock from rfl, here]
      cases lock <;> rfl
    cases lock with
    | server => exact agrees_same (agrees .server) rfl (holds_worker rfl rfl rfl) (by rw [nothing]; rfl)
    | watcher =>
        rcases (agrees .watcher).rlock (by rw [nothing]; rfl) takes with ⟨_, got⟩ | ⟨_, writes, _⟩
        · exact agrees_moved got rfl (holds_worker rfl rfl rfl) (by rw [nothing]; rfl)
        · rw [nothing] at writes
          cases writes
  · next here =>
    cases step
    have holds : s.holds lock (.worker i) = PoolWorker.finding.hold lock := by
      rw [show s.holds lock (.worker i) = (s.workers i).hold lock from rfl, here]
    cases lock with
    | server => exact agrees_same (agrees .server) rfl (holds_worker rfl rfl rfl) (by rw [holds]; rfl)
    | watcher =>
        have released := (agrees .watcher).unlock (by rw [holds]; rfl)
          (by rw [holds]; exact .inl Nat.one_pos)
        exact agrees_moved released rfl (holds_worker rfl rfl rfl) (by rw [holds]; rfl)
  · next here =>
    cases step
    refine agrees_worker (agrees lock) ?_
    rw [here]
    cases s.term <;> cases lock <;> rfl
  · next here =>
    cases step
    refine agrees_worker (agrees lock) ?_
    rw [here]
    cases ok <;> cases lock <;> rfl
  · next here =>
    obtain ⟨⟨rc, taken⟩, takes, rfl⟩ := Option.map_eq_some_iff.mp step
    have nothing : s.holds lock (.worker i) = Hold.nothing := by
      rw [show s.holds lock (.worker i) = (s.workers i).hold lock from rfl, here]
      cases lock <;> rfl
    cases lock with
    | watcher => exact agrees_same (agrees .watcher) rfl (holds_worker rfl rfl rfl) (by rw [nothing]; rfl)
    | server =>
        rcases (agrees .server).rlock (by rw [nothing]; rfl) takes with ⟨_, got⟩ | ⟨_, writes, _⟩
        · exact agrees_moved got rfl (holds_worker rfl rfl rfl) (by rw [nothing]; rfl)
        · rw [nothing] at writes
          cases writes
  · next here =>
    cases step
    have holds : s.holds lock (.worker i) = PoolWorker.reading.hold lock := by
      rw [show s.holds lock (.worker i) = (s.workers i).hold lock from rfl, here]
    cases lock with
    | watcher =>
        refine agrees_same (agrees .watcher) rfl (holds_worker rfl rfl rfl) ?_
        rw [holds]
        cases ok <;> rfl
    | server =>
        have released := (agrees .server).unlock (by rw [holds]; rfl)
          (by rw [holds]; exact .inl Nat.one_pos)
        refine agrees_moved released rfl (holds_worker rfl rfl rfl) ?_
        rw [holds]
        cases ok <;> rfl
  · next here =>
    cases step
    refine agrees_worker (agrees lock) ?_
    rw [here]
    cases lock <;> rfl
  · cases step
  · cases step
  · cases step

/-- The call and the watcher's thread do not both have the lock of the watcher. -/
theorem Clear.not_grows (clear : s.Clear) (has : s.stopper.hasWatcher = true) :
    s.watcher.growsPool = false := by
  by_contra grows
  have call : ¬ (s.holds .watcher .stopper).Outside := by
    rintro ⟨writes, _⟩
    simp [holds, StopPoint.hold, has] at writes
  have watcher : ¬ (s.holds .watcher .watcher).Outside := by
    rintro ⟨writes, _⟩
    simp [holds, WatcherPoint.hold, grows] at writes
  have same : (Party.stopper : Party n) = .watcher := (clear.agrees .watcher).alone call watcher
  cases same

theorem Clear.call {call : StopCall} (clear : s.Clear) (next : s.next (.call call) = some s') :
    s'.Clear := by
  change (if s.stopper = .idle then some { s with call, stopper := .askingServer } else none) = some s' at next
  split at next
  · next idle =>
    cases next
    refine ⟨fun lock => ?_, clear.made, fun joins => ?_, fun has => ?_⟩
    · refine agrees_stopper clear.agrees (fun lock => by cases lock <;> rfl) rfl rfl ?_
      rw [idle]
      cases lock <;> rfl
    · cases joins
    · cases has
  · cases next

theorem Clear.stopper {suspended : Bool} (clear : s.Clear) (apart : ¬ Collides (.stopper suspended) s)
    (next : s.next (.stopper suspended) = some s') : s'.Clear := by
  have agrees := stopperStep_agrees clear.agrees next
  change s.stopperStep suspended s.stopper = some s' at next
  unfold stopperStep at next
  split at next
  · cases next
  · obtain ⟨⟨got, taken⟩, enters, rfl⟩ := Option.map_eq_some_iff.mp next
    refine ⟨agrees, clear.made, ?_, ?_⟩ <;> cases got <;> intro has <;> cases has
  · obtain ⟨taken, grants, rfl⟩ := Option.map_eq_some_iff.mp next
    refine ⟨agrees, clear.made, ?_, ?_⟩ <;> intro has <;> cases has
  · next here =>
    split at next
    · cases next
      refine ⟨agrees, clear.made, ?_, ?_⟩ <;> intro has <;> cases has
    · next goes =>
      cases next
      have on : s.call = .delete ∨ suspended = true := by
        cases call : s.call with
        | delete => exact .inl rfl
        | stop =>
            cases suspended with
            | false => exact absurd ⟨call, rfl⟩ goes
            | true => exact .inr rfl
      refine ⟨agrees, clear.made, fun _ i asks => apart (.inl ⟨here, on, i, asks⟩), ?_⟩
      intro has
      cases has
  · next here =>
    obtain ⟨⟨got, taken⟩, enters, rfl⟩ := Option.map_eq_some_iff.mp next
    have nothing : s.holds .watcher .stopper = ⟨0, 0, false⟩ := by
      rw [show s.holds .watcher .stopper = s.stopper.hold .watcher from rfl, here]
      rfl
    rcases (clear.agrees .watcher).wlockEnter (by rw [nothing]) enters with ⟨_, writes, _⟩ | ⟨rfl, _⟩
    · rw [nothing] at writes
      cases writes
    · refine ⟨agrees, clear.made, fun _ => clear.server (by rw [here]; rfl), ?_⟩
      intro has
      cases has
  · next here =>
    obtain ⟨taken, grants, rfl⟩ := Option.map_eq_some_iff.mp next
    refine ⟨agrees, clear.made, fun _ => clear.server (by rw [here]; rfl), fun _ => ⟨fun i starts => ?_, ?_⟩⟩
    · exact apart (.inr ⟨here, .inl ⟨i, starts⟩⟩)
    · exact Bool.eq_false_iff.mpr fun asks => apart (.inr ⟨here, .inr asks⟩)
  · next here =>
    cases next
    exact ⟨agrees, clear.made, fun _ => clear.server (by rw [here]; rfl),
      fun _ => clear.watcher (by rw [here]; rfl)⟩
  · next here =>
    split at next
    · cases next
      exact ⟨agrees, clear.made, fun _ => clear.server (by rw [here]; rfl),
        fun _ => clear.watcher (by rw [here]; rfl)⟩
    · cases next
  · next here =>
    split at next
    · cases next
      exact ⟨agrees, clear.made, fun _ => clear.server (by rw [here]; rfl),
        fun _ => clear.watcher (by rw [here]; rfl)⟩
    · cases next
  · cases next
    refine ⟨agrees, clear.made, ?_, ?_⟩ <;> cases s.call <;> intro has <;> cases has
  · cases next
    refine ⟨agrees, clear.made, ?_, ?_⟩ <;> intro has <;> cases has
  · cases next
    refine ⟨agrees, clear.made, ?_, ?_⟩ <;> intro has <;> cases has
  · cases next

theorem Clear.watcherStep {counted : Bool} {grow : Option (Fin n)} (clear : s.Clear)
    (apart : ¬ Collides (.watcher counted grow) s) (next : s.next (.watcher counted grow) = some s') :
    s'.Clear := by
  have agrees := watcherStep_agrees clear.agrees clear.made next
  change s.watcherStep counted grow s.watcher = some s' at next
  unfold Shutdown.watcherStep at next
  split at next
  · cases next
    refine ⟨agrees, ?_, clear.server, fun has => ⟨(clear.watcher has).1, ?_⟩⟩
    · cases s.term <;> intro i makes <;> cases makes
    · cases s.term <;> rfl
  · next here =>
    split at next
    · cases next
      exact ⟨agrees, fun i makes => (by cases makes), clear.server, fun has => ⟨(clear.watcher has).1, rfl⟩⟩
    · next there =>
      split at next
      · cases next
        exact ⟨agrees, fun i makes => (by cases makes), clear.server, fun has => ⟨(clear.watcher has).1, rfl⟩⟩
      · next i =>
        split at next
        · next unborn =>
          cases next
          have grows : counted = true := Bool.not_eq_false _ |>.mp there
          subst grows
          refine ⟨agrees, fun j makes => ?_, fun joins j asks => ?_, fun has => ?_⟩
          · cases makes
            exact Function.update_self _ _ _
          · change Function.update s.workers i .suspended j = .asking at asks
            by_cases same : j = i
            · subst same
              rw [Function.update_self] at asks
              cases asks
            · rw [Function.update_of_ne same] at asks
              exact clear.server joins j asks
          · exact (apart ⟨here, has⟩).elim
        · cases next
  · next i here =>
    obtain ⟨⟨got, taken⟩, enters, rfl⟩ := Option.map_eq_some_iff.mp next
    refine ⟨agrees, fun j makes => ?_, clear.server, fun has => ?_⟩
    · have same : s.watcher.makes = some j := by
        rw [here]
        cases got <;> exact makes
      exact clear.made j same
    · have asks := (clear.watcher has).2
      rw [here] at asks
      cases asks
  · next i here =>
    obtain ⟨taken, grants, rfl⟩ := Option.map_eq_some_iff.mp next
    refine ⟨agrees, fun j makes => clear.made j (by rw [here]; exact makes), clear.server, fun has => ?_⟩
    have asks := (clear.watcher has).2
    rw [here] at asks
    cases asks
  · next i here =>
    cases next
    refine ⟨agrees, fun j makes => (by cases makes), fun joins j asks => ?_, fun has => ?_⟩
    · change Function.update s.workers i .starting j = .asking at asks
      by_cases same : j = i
      · subst same
        rw [Function.update_self] at asks
        cases asks
      · rw [Function.update_of_ne same] at asks
        exact clear.server joins j asks
    · have grows := clear.not_grows has
      rw [here] at grows
      cases grows
  · cases next
    exact ⟨agrees, fun i makes => (by cases makes), clear.server, fun has => ⟨(clear.watcher has).1, rfl⟩⟩
  · cases next

/-- A worker that goes on is not the one that the watcher's thread made. -/
theorem Clear.moved {point : PoolWorker} (clear : s.Clear) (running : s.workers i ≠ .suspended)
    (watcher : s'.watcher = s.watcher) (workers : s'.workers = Function.update s.workers i point)
    (j : Fin n) (makes : s'.watcher.makes = some j) : s'.workers j = .suspended := by
  have was : s.workers j = .suspended := clear.made j (watcher ▸ makes)
  have other : j ≠ i := by
    rintro rfl
    exact running was
  rw [workers, Function.update_of_ne other]
  exact was

private theorem Clear.workerMoves {point : PoolWorker} (clear : s.Clear)
    (agrees : ∀ lock, (s'.lockOf lock).Agrees (s'.holds lock)) (running : s.workers i ≠ .suspended)
    (stopper : s'.stopper = s.stopper) (watcher : s'.watcher = s.watcher)
    (workers : s'.workers = Function.update s.workers i point)
    (server : s.stopper.joins = true → point ≠ .asking) (starts : point ≠ .starting) : s'.Clear := by
  refine ⟨agrees, clear.moved running watcher workers, fun joins j => ?_, fun has => ⟨fun j => ?_, ?_⟩⟩
  · rw [stopper] at joins
    rw [workers]
    by_cases same : j = i
    · subst same
      rw [Function.update_self]
      exact server joins
    · rw [Function.update_of_ne same]
      exact clear.server joins j
  · rw [stopper] at has
    rw [workers]
    by_cases same : j = i
    · subst same
      rw [Function.update_self]
      exact starts
    · rw [Function.update_of_ne same]
      exact (clear.watcher has).1 j
  · rw [stopper] at has
    rw [watcher]
    exact (clear.watcher has).2

theorem Clear.workerStep {ok : Bool} (clear : s.Clear) (apart : ¬ Collides (.worker i ok) s)
    (next : s.next (.worker i ok) = some s') : s'.Clear := by
  have agrees := workerStep_agrees clear.agrees next
  change s.workerStep i ok (s.workers i) = some s' at next
  unfold Shutdown.workerStep at next
  split at next
  · next here =>
    obtain ⟨taken, takes, rfl⟩ := Option.map_eq_some_iff.mp next
    exact clear.workerMoves agrees (by rw [here]; simp) rfl rfl rfl (fun _ => by simp) (by simp)
  · next here =>
    cases next
    exact clear.workerMoves agrees (by rw [here]; simp) rfl rfl rfl (fun _ => by simp) (by simp)
  · next here =>
    cases next
    refine clear.workerMoves agrees (by rw [here]; simp) rfl rfl rfl (fun _ => ?_) ?_ <;>
      cases s.term <;> simp
  · next here =>
    cases next
    refine clear.workerMoves agrees (by rw [here]; simp) rfl rfl rfl (fun joins => ?_) (by cases ok <;> simp)
    cases ok with
    | false => simp
    | true => exact (apart ⟨here, joins⟩).elim
  · next here =>
    obtain ⟨taken, takes, rfl⟩ := Option.map_eq_some_iff.mp next
    exact clear.workerMoves agrees (by rw [here]; simp) rfl rfl rfl (fun _ => by simp) (by simp)
  · next here =>
    cases next
    refine clear.workerMoves agrees (by rw [here]; simp) rfl rfl rfl (fun _ => ?_) ?_ <;> cases ok <;> simp
  · next here =>
    cases next
    exact clear.workerMoves agrees (by rw [here]; simp) rfl rfl rfl (fun _ => by simp) (by simp)
  · cases next
  · cases next
  · cases next

theorem Clear.next {step : ShutdownStep n} (clear : s.Clear) (apart : ¬ Collides step s)
    (next : s.next step = some s') : s'.Clear := by
  cases step with
  | call call => exact clear.call next
  | stopper suspended => exact clear.stopper apart next
  | watcher counted grow => exact clear.watcherStep apart next
  | worker i ok => exact clear.workerStep apart next

private theorem started_clear (threads : List (Fin n)) : (started threads).Clear := by
  refine ⟨fun lock => ?_, fun i makes => (by cases makes), fun joins => (by cases joins),
    fun has => (by cases has)⟩
  have nothing : ∀ p, (started threads).holds lock p = Hold.nothing := by
    intro p
    cases p with
    | stopper => cases lock <;> rfl
    | watcher => cases lock <;> rfl
    | worker i =>
        have idle : ∀ lock, (PoolWorker.starting).hold lock = Hold.nothing ∧
            (PoolWorker.unborn).hold lock = Hold.nothing := fun lock => by cases lock <;> exact ⟨rfl, rfl⟩
        by_cases inPool : i ∈ threads
        · rw [show (started threads).holds lock (.worker i) = PoolWorker.hold .starting lock from by
            simp [holds, started, inPool]]
          exact (idle lock).1
        · rw [show (started threads).holds lock (.worker i) = PoolWorker.hold .unborn lock from by
            simp [holds, started, inPool]]
          exact (idle lock).2
  cases lock <;> exact RwLock.init_agrees nothing

/-- A thread that the call waits for, with the locks it has, does not ask for one of
them. -/
theorem Clear.not_deadlocked (clear : s.Clear) : ¬ s.Deadlocked := by
  rintro ⟨p, lock, waits, asks, _, _⟩
  unfold waitsFor at waits
  split at waits
  · next here =>
    cases waits
    have unclaimed := (clear.watcher (by rw [here]; rfl)).2
    unfold asksFor at asks
    cases point : s.watcher with
    | asking i | claiming i =>
        rw [point] at unclaimed
        cases unclaimed
    | top | counting | growing | unlocking | ended =>
        simp only [point] at asks
        cases asks
  · next i nodes here =>
    cases waits
    have notStarting := (clear.watcher (by rw [here]; rfl)).1 i
    have notAsking := clear.server (by rw [here]; rfl) i
    unfold asksFor at asks
    cases point : s.workers i with
    | starting => exact notStarting point
    | asking => exact notAsking point
    | unborn | suspended | finding | top | called | reading | selecting | ended =>
        simp only [point] at asks
        cases asks
  · cases waits

/-- In a run in which no thread comes to a lock that the call keeps until it joined the
thread, the call never waits for a thread that waits for its lock. -/
theorem stop_notDeadlocked (threads : List (Fin n)) (steps : List (ShutdownStep n))
    (apart : Meets next (fun step s => ¬ Collides step s) steps (started threads))
    (runs : run next steps (started threads) = some s) : ¬ s.Deadlocked := by
  have clear : s.Clear := run_invariant_of_meets (P := Clear)
    (fun _ _ _ clear apart next => clear.next apart next) (started_clear threads) apart runs
  exact clear.not_deadlocked

/-- A server with one worker, which gets to `select`. -/
abbrev workerSelects (worker : Fin n) : List (ShutdownStep n) :=
  [.worker worker true, .worker worker true, .worker worker true, .worker worker true,
    .worker worker true, .worker worker true]

/-- The call takes both locks and sets the status. -/
abbrev stopUntilWaiting : List (ShutdownStep n) :=
  [.call .stop, .stopper true, .stopper true, .stopper true, .stopper true, .stopper true, .stopper true]

/-- The call joins a worker that was in `select`. -/
theorem stop_notDeadlocked_joining : ∃ s,
    run next (workerSelects only ++ stopUntilWaiting ++ [.watcher true none, .stopper true])
      (started [only]) = some s ∧ s.waitsFor = some (.worker only) ∧ ¬ s.Deadlocked := by
  have apart : Meets next (fun step s => ¬ Collides step s)
      (workerSelects only ++ stopUntilWaiting ++ [.watcher true none, .stopper true])
      (started [only]) := by decide
  exact ⟨_, rfl, rfl, stop_notDeadlocked [only] _ apart rfl⟩

/-- The call joins a worker that had looked at the status before it was set, and that
reads the server now. -/
theorem stop_deadlocked : ¬ ∀ (n : Nat) (threads : List (Fin n)) (steps : List (ShutdownStep n)) s,
    run next steps (started threads) = some s → ¬ s.Deadlocked := by
  intro claimed
  have runs : ∃ s, run next ([.worker only true, .worker only true, .worker only true] ++
      stopUntilWaiting ++ [.watcher true none, .stopper true, .worker only true]) (started [only]) = some s ∧
        s.Deadlocked := ⟨_, rfl, .worker only, .server, rfl, rfl, by decide, rfl⟩
  obtain ⟨s, runs, deadlocked⟩ := runs
  exact claimed 1 _ _ s runs deadlocked

end Shutdown

end GbfLibrary.Enet
