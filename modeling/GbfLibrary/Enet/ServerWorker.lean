import GbfLibrary.Enet.Traffic
import GbfLibrary.Thp.WorkerLoop

/-!
# The worker of a server

One call of `server_worker_thread` of `tcp_server.c`: the task, the set of descriptors that the
worker reads from, and the events it posts.
-/

set_option autoImplicit false

namespace GbfLibrary.Enet

open Thp (WorkerStatus)

/-- `FD_SETSIZE`. -/
def fdSetSize : Nat := 128

/-- `FD_SET`, which holds no descriptor twice. -/
structure FdSet where
  fds : List Socket
  distinct : fds.Nodup
  fits : fds.length ≤ fdSetSize
  deriving DecidableEq

namespace FdSet

/-- What `calloc` returns. -/
def zero : FdSet := ⟨[], List.nodup_nil, Nat.zero_le _⟩

/-- The macro `FD_SET`. -/
def set (fd : Socket) (jobSet : FdSet) : FdSet :=
  if absent : fd ∉ jobSet.fds ∧ jobSet.fds.length < fdSetSize then
    ⟨jobSet.fds ++ [fd], List.nodup_append'.mpr
      ⟨jobSet.distinct, List.nodup_singleton fd, List.disjoint_singleton.mpr absent.1⟩,
      by rw [List.length_append]; exact absent.2⟩
  else jobSet

/-- The macro `FD_CLR`. -/
def clr (fd : Socket) (jobSet : FdSet) : FdSet :=
  ⟨jobSet.fds.erase fd, jobSet.distinct.erase fd, (jobSet.fds.length_erase_le).trans jobSet.fits⟩

private theorem mem_set_self {fd : Socket} {jobSet : FdSet} (room : jobSet.fds.length < fdSetSize) :
    fd ∈ (jobSet.set fd).fds := by
  unfold set
  split
  · simp
  · next present =>
    by_contra absent
    exact present ⟨absent, room⟩

theorem mem_clr {fd other : Socket} {jobSet : FdSet} : other ∈ (jobSet.clr fd).fds ↔ other ≠ fd ∧ other ∈ jobSet.fds :=
  jobSet.distinct.mem_erase_iff

end FdSet

/-- The events of a worker. -/
inductive WorkerEvent where
  | disconnect (fd : Socket) (status : Status)
  | received (fd : Socket) (size : Nat)
  deriving DecidableEq

/-- What the calls in a worker return. `attributes` is the timeout that `enet_get_tcp_server_attr` reads, `select`
says what is ready when the time is up, where `none` is -1; `packet` says whether there is a packet in the end,
`recv` is `enet_tcp_socket_recv`, and `posts` whether `enet_post_event` finds room. -/
structure WorkerOutcomes where
  allocated : Bool
  attributes : Option Int
  select : Int × Int → Option (Socket → Bool)
  packet : Socket → Bool
  recv : Socket → Status × Nat
  posts : Socket → Bool

namespace WorkerOutcomes

/-- The seconds and microseconds that `select` gets. -/
def time (timeout : Int) : Int × Int :=
  if 0 < timeout then (timeout.tdiv 1000, timeout.tmod 1000 * 1000) else (0, 2500)

/-- The loop over the descriptors that are ready. `none` is a wait for a packet that does not end. -/
def serve (outcomes : WorkerOutcomes) : List Socket → FdSet → List WorkerEvent → Option (FdSet × List WorkerEvent)
  | [], jobSet, events => some (jobSet, events)
  | fd :: readSet, jobSet, events =>
      if outcomes.packet fd = false then none
      else if (outcomes.recv fd).1 ≠ .ok then
        outcomes.serve readSet (jobSet.clr fd)
          (if outcomes.posts fd = true then events ++ [.disconnect fd (outcomes.recv fd).1] else events)
      else if 0 < (outcomes.recv fd).2 ∧ outcomes.posts fd = true then
        outcomes.serve readSet jobSet (events ++ [.received fd (outcomes.recv fd).2])
      else outcomes.serve readSet jobSet events

/-- The descriptors that `select` is asked about and that are ready, if it is called and does not fail. -/
def ready (outcomes : WorkerOutcomes) : Option (Socket → Bool) :=
  outcomes.attributes.bind fun timeout => outcomes.select (time timeout)

end WorkerOutcomes

/-- A task is taken into the set or refused. -/
def takeTask (task : Option Socket) (jobSet : FdSet) : WorkerStatus × FdSet :=
  match task with
  | none => (.ok, jobSet)
  | some fd => if fdSetSize ≤ jobSet.fds.length then (.taskRefused, jobSet) else (.ok, jobSet.set fd)

/-- The second half of `server_worker_thread`, after the task was taken or refused. -/
def readConnections (outcomes : WorkerOutcomes) (rc : WorkerStatus) (jobSet : FdSet) :
    Option (WorkerStatus × Option FdSet × List WorkerEvent) :=
  match outcomes.attributes with
  | none => some (.terminated, some jobSet, [])
  | some timeout =>
      match outcomes.select (WorkerOutcomes.time timeout) with
      | none => some (.idle, some jobSet, [])
      | some isReady => (outcomes.serve (jobSet.fds.filter isReady) jobSet []).map fun served =>
          (rc, some served.1, served.2)

/-- `server_worker_thread`: its status, the customized data, and the events. -/
def serverWorkerThread (outcomes : WorkerOutcomes) (task : Option Socket) (customized : Option FdSet) :
    Option (WorkerStatus × Option FdSet × List WorkerEvent) :=
  match customized.or (if outcomes.allocated = true then some FdSet.zero else none) with
  | none => some (.terminated, none, [])
  | some jobSet => readConnections outcomes (takeTask task jobSet).1 (takeTask task jobSet).2

/-- The descriptor is in the set, a disconnect event is posted for it, or the task is refused. -/
def Remembered (fd : Socket) (result : WorkerStatus × Option FdSet × List WorkerEvent) : Prop :=
  (∃ jobSet, result.2.1 = some jobSet ∧ fd ∈ jobSet.fds) ∨ (∃ status, .disconnect fd status ∈ result.2.2) ∨
    result.1 = .taskRefused

/-- The set can be had; if it is full, the descriptor is in it or `select` is called and does not fail; if it is not
full, a disconnect event can be posted when the descriptor is ready and fails. -/
def WorkerOutcomes.Remembers (outcomes : WorkerOutcomes) (fd : Socket) (customized : Option FdSet) : Prop :=
  (customized ≠ none ∨ outcomes.allocated = true) ∧
    (fdSetSize ≤ (customized.getD .zero).fds.length → fd ∈ (customized.getD .zero).fds ∨ outcomes.ready ≠ none) ∧
    ((customized.getD .zero).fds.length < fdSetSize →
      ∀ isReady, outcomes.ready = some isReady → isReady fd = true → (outcomes.recv fd).1 ≠ .ok →
        outcomes.posts fd = true)

section Serve

variable {outcomes : WorkerOutcomes} {fd : Socket} {readSet : List Socket} {jobSet jobSet' : FdSet}
  {events events' : List WorkerEvent}

private theorem mem_of_serve (serves : outcomes.serve readSet jobSet events = some (jobSet', events')) :
    fd ∈ jobSet'.fds ↔ fd ∈ jobSet.fds ∧ ¬ (fd ∈ readSet ∧ (outcomes.recv fd).1 ≠ .ok) := by
  induction readSet generalizing jobSet events with
  | nil =>
      cases serves
      simp
  | cons other readSet ih =>
      simp only [WorkerOutcomes.serve] at serves
      split at serves
      · cases serves
      · split at serves
        · next fails =>
          rw [ih serves, FdSet.mem_clr]
          by_cases same : fd = other
          · subst same
            simp [fails]
          · simp [same]
        · next good =>
          have keeps : fd ∈ jobSet.fds ∧ ¬ (fd ∈ readSet ∧ (outcomes.recv fd).1 ≠ .ok) ↔
              fd ∈ jobSet.fds ∧ ¬ (fd ∈ other :: readSet ∧ (outcomes.recv fd).1 ≠ .ok) := by
            by_cases same : fd = other
            · subst same
              simp [not_not.mp good]
            · simp [same]
          rw [← keeps]
          split at serves
          · exact ih serves
          · exact ih serves

/-- The events that a descriptor that is ready leads to. -/
def WorkerOutcomes.posted (outcomes : WorkerOutcomes) (fd : Socket) : List WorkerEvent :=
  if outcomes.posts fd = false then []
  else if (outcomes.recv fd).1 ≠ .ok then [.disconnect fd (outcomes.recv fd).1]
  else if 0 < (outcomes.recv fd).2 then [.received fd (outcomes.recv fd).2]
  else []

private theorem events_of_serve (serves : outcomes.serve readSet jobSet events = some (jobSet', events')) :
    events' = events ++ readSet.flatMap outcomes.posted := by
  induction readSet generalizing jobSet events with
  | nil =>
      cases serves
      simp
  | cons other readSet ih =>
      simp only [WorkerOutcomes.serve] at serves
      split at serves
      · cases serves
      · split at serves
        · next fails =>
          rw [ih serves]
          cases posts : outcomes.posts other <;> simp [WorkerOutcomes.posted, posts, fails]
        · next good =>
          split at serves
          · next room =>
            rw [ih serves]
            simp [WorkerOutcomes.posted, room, good]
          · next silent =>
            rw [ih serves]
            cases posts : outcomes.posts other with
            | false => simp [WorkerOutcomes.posted, posts]
            | true =>
                have nothing : ¬ 0 < (outcomes.recv other).2 := fun arrived => silent ⟨arrived, posts⟩
                simp [WorkerOutcomes.posted, posts, good, nothing]

/-- A disconnect event is posted for a descriptor that fails, where there is room for it. -/
theorem disconnect_of_serve (serves : outcomes.serve readSet jobSet [] = some (jobSet', events')) :
    (∃ status, .disconnect fd status ∈ events') ↔
      fd ∈ readSet ∧ (outcomes.recv fd).1 ≠ .ok ∧ outcomes.posts fd = true := by
  rw [events_of_serve serves, List.nil_append]
  constructor
  · rintro ⟨status, member⟩
    obtain ⟨other, here, posted⟩ := List.mem_flatMap.mp member
    unfold WorkerOutcomes.posted at posted
    split at posted
    · cases posted
    · next posts =>
      split at posted
      · next fails =>
        cases List.mem_singleton.mp posted
        exact ⟨here, fails, Bool.eq_true_of_not_eq_false posts⟩
      · split at posted
        · cases List.mem_singleton.mp posted
        · cases posted
  · rintro ⟨here, fails, posts⟩
    refine ⟨(outcomes.recv fd).1, List.mem_flatMap.mpr ⟨fd, here, ?_⟩⟩
    simp [WorkerOutcomes.posted, posts, fails]

private theorem remembered_of_unread {rc : WorkerStatus} {result : WorkerStatus × Option FdSet × List WorkerEvent}
    (unread : outcomes.ready = none) (returns : readConnections outcomes rc jobSet = some result) :
    Remembered fd result ↔ fd ∈ jobSet.fds := by
  unfold readConnections at returns
  split at returns
  · cases returns
    simp [Remembered]
  · next timeout attributes =>
    rw [WorkerOutcomes.ready, attributes, Option.bind_some] at unread
    rw [unread] at returns
    cases returns
    simp [Remembered]

private theorem remembered_of_read {rc : WorkerStatus} {result : WorkerStatus × Option FdSet × List WorkerEvent}
    {isReady : Socket → Bool} (read : outcomes.ready = some isReady)
    (returns : readConnections outcomes rc jobSet = some result) :
    Remembered fd result ↔ rc = .taskRefused ∨ fd ∈ jobSet.fds ∧
      (isReady fd = true → (outcomes.recv fd).1 ≠ .ok → outcomes.posts fd = true) := by
  obtain ⟨timeout, attributes, selects⟩ := Option.bind_eq_some_iff.mp read
  simp only [readConnections, attributes, selects] at returns
  obtain ⟨⟨jobSet', events⟩, serves, rfl⟩ := Option.map_eq_some_iff.mp returns
  have kept : fd ∈ jobSet'.fds ↔ _ := mem_of_serve serves
  have shown : (∃ status, WorkerEvent.disconnect fd status ∈ events) ↔ _ := disconnect_of_serve serves
  simp only [Remembered, Option.some.injEq, exists_eq_left', kept, shown, List.mem_filter]
  tauto

end Serve

/-- A connection that is handed to a worker is remembered exactly where the calls in the worker allow it. -/
theorem remembered_iff (outcomes : WorkerOutcomes) (fd : Socket) (customized : Option FdSet)
    (result : WorkerStatus × Option FdSet × List WorkerEvent)
    (returns : serverWorkerThread outcomes (some fd) customized = some result) :
    Remembered fd result ↔ outcomes.Remembers fd customized := by
  by_cases set : customized ≠ none ∨ outcomes.allocated = true
  · have had : customized.or (if outcomes.allocated = true then some FdSet.zero else none) =
        some (customized.getD .zero) := by
      cases customized with
      | none => simpa using set
      | some jobSet => rfl
    simp only [serverWorkerThread, had] at returns
    generalize here : customized.getD .zero = jobSet at returns
    rw [WorkerOutcomes.Remembers, here]
    by_cases full : fdSetSize ≤ jobSet.fds.length
    · simp only [takeTask, if_pos full] at returns
      cases read : outcomes.ready with
      | none =>
          rw [remembered_of_unread read returns]
          simp [set, full]
      | some isReady =>
          rw [remembered_of_read read returns]
          simp [set, full]
    · simp only [takeTask, if_neg full] at returns
      have room : jobSet.fds.length < fdSetSize := Nat.not_le.mp full
      have member : fd ∈ (jobSet.set fd).fds := FdSet.mem_set_self room
      cases read : outcomes.ready with
      | none =>
          rw [remembered_of_unread read returns]
          simp [set, full, member]
      | some isReady =>
          rw [remembered_of_read read returns]
          simp [set, full, room, member]
  · have missing : customized.or (if outcomes.allocated = true then some FdSet.zero else none) = none := by
      simpa using set
    simp only [serverWorkerThread, missing] at returns
    cases returns
    simp [Remembered, WorkerOutcomes.Remembers, set]

/-- A worker in which `select` fails, or every descriptor is ready and fails and no event can be posted. -/
def badOutcomes (selects : Bool) : WorkerOutcomes where
  allocated := true
  attributes := some 0
  select _ := if selects = true then some fun _ => true else none
  packet _ := true
  recv _ := (.remoteDisconnect, 0)
  posts _ := false

/-- A set that is full. -/
def fullSet : FdSet := ⟨List.range' 1 128, List.nodup_range', (List.length_range' ..).le⟩

theorem remembered_iff_new :
    Remembered 7 (.idle, some ⟨[7], by decide, by decide⟩, []) ↔ (badOutcomes false).Remembers 7 none :=
  remembered_iff (badOutcomes false) 7 none (.idle, some ⟨[7], by decide, by decide⟩, []) rfl

/-- The set is full and `select` fails, or the descriptor fails and the disconnect event cannot be posted. -/
theorem connection_forgotten :
    (∃ result, serverWorkerThread (badOutcomes false) (some 500) (some fullSet) = some result ∧
      ¬ Remembered 500 result) ∧
    ∃ result, serverWorkerThread (badOutcomes true) (some 7) none = some result ∧ ¬ Remembered 7 result := by
  refine ⟨⟨(.idle, some fullSet, []), by decide +kernel, ?_⟩, ⟨(.ok, some .zero, []), by decide +kernel, ?_⟩⟩
  · simp [Remembered, fullSet]
  · simp [Remembered, FdSet.zero]

end GbfLibrary.Enet
