import GbfLibrary.Thp.Lists

/-!
# Threads at a task server

For any number of threads, call by call: every package is in one place, and the
tasks pass through the server first in, first out.
-/

set_option autoImplicit false

namespace GbfLibrary.Thp

open Memory Prog Systems

/-- Where the packages are: on one of the lists of the server or in the hands of
one thread, which finds in its package what it put or found there. -/
structure Placed (s : TaskState) (queue pool : List Addr) : Prop where
  listed : Listed s.memory queue pool
  held : ∀ t a payload, (s.hand t).owns = some (a, payload) →
    a ∈ s.memory.live ∧ a ∉ queue ++ pool ∧ (s.memory.cell a).next = 0 ∧
      (s.memory.cell a).payload = payload
  alone : ∀ t u a first second, (s.hand t).owns = some (a, first) →
    (s.hand u).owns = some (a, second) → t = u
  placed : ∀ a ∈ s.memory.live,
    a ∈ queue ++ pool ∨ ∃ t payload, (s.hand t).owns = some (a, payload)

/-- The tasks in the queue. -/
def TaskState.tasks (s : TaskState) (queue : List Addr) : List Payload :=
  queue.map fun a => (s.memory.cell a).payload

/-- The server holds these tasks in this order. -/
def TaskState.Holds (s : TaskState) (queued : List Payload) : Prop :=
  ∃ queue pool, Placed s queue pool ∧ s.tasks queue = queued

section Steps

variable {malloc : Malloc} {s s' : TaskState} {m' : TaskMachine} {queue queue' pool pool' : List Addr}
  {a : Addr} {payload : Payload} {t : Nat} {hand : Hand}

/-- A thread takes a package that no thread has. -/
theorem Placed.take (placed : Placed s queue pool) (idle : (s.hand t).owns = none)
    (takes : hand.owns = some (a, payload)) (free : ∀ u p, (s.hand u).owns ≠ some (a, p))
    (listed : Listed m' queue' pool') (off : a ∉ queue' ++ pool')
    (fewer : ∀ b ∈ queue' ++ pool', b ∈ queue ++ pool)
    (rest : ∀ b ∈ queue ++ pool, b = a ∨ b ∈ queue' ++ pool')
    (live : ∀ b, b ∈ m'.live ↔ b = a ∨ b ∈ s.memory.live)
    (final : (m'.cell a).next = 0) (carries : (m'.cell a).payload = payload)
    (spares : ∀ b, b ∉ queue ++ pool → b ≠ a → m'.cell b = s.memory.cell b) :
    Placed (s.moved m' t hand) queue' pool' := by
  refine ⟨listed, ?_, ?_, ?_⟩
  · intro u b p owns
    by_cases same : u = t
    · subst same
      simp only [TaskState.moved, Function.update_self, takes, Option.some.injEq, Prod.mk.injEq] at owns
      obtain ⟨rfl, rfl⟩ := owns
      exact ⟨(live a).mpr (.inl rfl), off, final, carries⟩
    · simp only [TaskState.moved, Function.update_of_ne same] at owns
      obtain ⟨inLive, offLists, last, carried⟩ := placed.held u b p owns
      have different : b ≠ a := fun is => free u p (is ▸ owns)
      have unchanged := spares b offLists different
      refine ⟨(live b).mpr (.inr inLive), fun member => offLists (fewer b member), ?_, ?_⟩
      · simpa [TaskState.moved, unchanged] using last
      · simpa [TaskState.moved, unchanged] using carried
  · intro u v b first second ownsFirst ownsSecond
    simp only [TaskState.moved, Function.update_apply] at ownsFirst ownsSecond
    split at ownsFirst
    · next isFirst =>
      split at ownsSecond
      · next isSecond => rw [isFirst, isSecond]
      · rw [takes, Option.some.injEq, Prod.mk.injEq] at ownsFirst
        exact absurd (ownsFirst.1 ▸ ownsSecond) (free v second)
    · split at ownsSecond
      · rw [takes, Option.some.injEq, Prod.mk.injEq] at ownsSecond
        exact absurd (ownsSecond.1 ▸ ownsFirst) (free u first)
      · exact placed.alone u v b first second ownsFirst ownsSecond
  · intro b inLive
    rcases (live b).mp inLive with rfl | old
    · exact .inr ⟨t, payload, by simp [TaskState.moved, takes]⟩
    · rcases placed.placed b old with onList | ⟨u, p, owns⟩
      · rcases rest b onList with rfl | still
        · exact .inr ⟨t, payload, by simp [TaskState.moved, takes]⟩
        · exact .inl still
      · have other : u ≠ t := fun same => by simp [same, idle] at owns
        exact .inr ⟨u, p, by simpa [TaskState.moved, other] using owns⟩

/-- A thread puts its package on one of the lists. -/
theorem Placed.give (placed : Placed s queue pool) (owns : (s.hand t).owns = some (a, payload))
    (gives : hand.owns = none) (listed : Listed m' queue' pool')
    (more : ∀ b, b ∈ queue' ++ pool' ↔ b = a ∨ b ∈ queue ++ pool) (live : m'.live = s.memory.live)
    (spares : ∀ b, b ∉ queue ++ pool → b ≠ a → m'.cell b = s.memory.cell b) :
    Placed (s.moved m' t hand) queue' pool' := by
  have others : ∀ u b p, ((s.moved m' t hand).hand u).owns = some (b, p) →
      u ≠ t ∧ (s.hand u).owns = some (b, p) ∧ b ≠ a := by
    intro u b p has
    have other : u ≠ t := by
      intro same
      simp [TaskState.moved, same, gives] at has
    simp only [TaskState.moved, Function.update_of_ne other] at has
    exact ⟨other, has, fun same => other (placed.alone u t a p payload (same ▸ has) owns)⟩
  refine ⟨listed, ?_, ?_, ?_⟩
  · intro u b p has
    obtain ⟨_, had, different⟩ := others u b p has
    obtain ⟨inLive, offLists, last, carried⟩ := placed.held u b p had
    have unchanged := spares b offLists different
    refine ⟨by simpa [TaskState.moved, live] using inLive, ?_, ?_, ?_⟩
    · exact fun member => ((more b).mp member).elim different offLists
    · simpa [TaskState.moved, unchanged] using last
    · simpa [TaskState.moved, unchanged] using carried
  · intro u v b first second hasFirst hasSecond
    exact placed.alone u v b first second (others u b first hasFirst).2.1
      (others v b second hasSecond).2.1
  · intro b inLive
    have old : b ∈ s.memory.live := by simpa [TaskState.moved, live] using inLive
    rcases placed.placed b old with onList | ⟨u, p, has⟩
    · exact .inl ((more b).mpr (.inr onList))
    · by_cases same : u = t
      · rw [same, owns, Option.some.injEq, Prod.mk.injEq] at has
        exact .inl ((more b).mpr (.inl has.1.symm))
      · exact .inr ⟨u, p, by simpa [TaskState.moved, same] using has⟩

theorem Placed.free (placed : Placed s queue pool) (onList : a ∈ queue ++ pool) (u : Nat) (p : Payload) :
    (s.hand u).owns ≠ some (a, p) :=
  fun owns => (placed.held u a p owns).2.1 onList

private theorem tasks_moved (spares : Spares s.memory m' queue pool a) :
    (s.moved m' t hand).tasks queue = s.tasks queue :=
  List.map_congr_left fun b member => spares.payloads b member

/-- Nothing changes but local variables of threads that have no package. -/
theorem Placed.stay (placed : Placed s queue pool) (listed : Listed m' queue pool)
    (idle : (s.hand t).owns = none) (gives : hand.owns = none) (live : m'.live = s.memory.live)
    (cell : m'.cell = s.memory.cell) : Placed (s.moved m' t hand) queue pool := by
  have same : ∀ u, ((s.moved m' t hand).hand u).owns = (s.hand u).owns := by
    intro u
    by_cases here : u = t
    · simp [TaskState.moved, here, gives, idle]
    · simp [TaskState.moved, here]
  refine ⟨listed, ?_, ?_, ?_⟩
  · intro u b p
    rw [same]
    simpa [TaskState.moved, live, cell] using placed.held u b p
  · intro u v b first second
    rw [same, same]
    exact placed.alone u v b first second
  · intro b
    simp only [same]
    simpa [TaskState.moved, live] using placed.placed b

private theorem prepare_step (placed : Placed s queue pool)
    (step : s.prepare malloc t payload = some s') :
    ∃ pool', Placed s' queue pool' ∧ s'.tasks queue = s.tasks queue := by
  unfold TaskState.prepare at step
  split at step
  · next kept idle =>
    have notOwns : (s.hand t).owns = none := by simp [idle, Hand.owns]
    cases pool with
    | nil =>
        rcases prepareTaskPackage_new malloc payload placed.listed with
          ⟨m', runs, _⟩ | ⟨a, m', runs, listed, fresh, live, carries, final, spares⟩
        · simp [runs] at step
        · simp only [runs, Option.bind_eq_bind, Option.bind_some, Option.some.injEq] at step
          subst step
          have free : ∀ u p, (s.hand u).owns ≠ some (a, p) := fun u p owns =>
            fresh (placed.held u a p owns).1
          have off : a ∉ queue ++ [] := by
            rw [List.append_nil]
            exact fun member => fresh (placed.listed.queued.live a member)
          refine ⟨[], placed.take notOwns rfl free listed off (fun b member => member)
            (fun b member => .inr member) (by simp [live]) final carries spares.others, ?_⟩
          exact tasks_moved spares
    | cons a pool =>
        obtain ⟨m', runs, listed, live, carries, final, spares⟩ :=
          prepareTaskPackage_spare malloc payload placed.listed
        simp only [runs, Option.bind_eq_bind, Option.bind_some, Option.some.injEq] at step
        subst step
        have aLive := placed.listed.pooled.live a (List.mem_cons_self ..)
        have nodup := List.perm_middle.nodup_iff.mp placed.listed.nodup
        refine ⟨pool, placed.take notOwns rfl (placed.free (by simp)) listed (List.nodup_cons.mp nodup).1
          ?_ ?_ ?_ final carries ?_, tasks_moved spares⟩
        · intro b member
          exact List.perm_middle.symm.subset (List.mem_cons_of_mem a member)
        · intro b member
          exact List.mem_cons.mp (List.perm_middle.subset member)
        · intro b
          rw [live]
          exact ⟨.inr, fun either => either.elim (fun same => same ▸ aLive) id⟩
        · intro b off different
          refine spares.others b (fun member => off ?_) different
          exact List.perm_middle.symm.subset (List.mem_cons_of_mem a member)
  · cases step

private theorem prepareFails_step (placed : Placed s queue pool)
    (step : s.prepareFails malloc t payload = some s') :
    Placed s' queue pool ∧ s'.tasks queue = s.tasks queue := by
  unfold TaskState.prepareFails at step
  split at step
  · next kept idle =>
    cases pool with
    | nil =>
        rcases prepareTaskPackage_new malloc payload placed.listed with
          ⟨m', runs, listed, live, cell⟩ | ⟨a, m', runs, _⟩
        · simp only [runs, Option.bind_eq_bind, Option.bind_some, reduceCtorEq, ↓reduceIte,
            Option.some.injEq] at step
          subst step
          refine ⟨placed.stay listed (by simp [idle, Hand.owns]) rfl live cell, ?_⟩
          simp [TaskState.tasks, TaskState.moved, cell]
        · simp [runs] at step
    | cons a pool =>
        obtain ⟨m', runs, _⟩ := prepareTaskPackage_spare malloc payload placed.listed
        simp [runs] at step
  · cases step

private theorem fuel_enough (s : TaskState) : s.memory.live.card ≤ s.fuel := Nat.le_refl _

/-- A thread puts its package at the end of the queue. -/
theorem Placed.push (placed : Placed s queue pool) (owns : (s.hand t).owns = some (a, payload)) :
    ∃ m', pushTask s.fuel a s.memory = some (.ok, m') ∧
      Placed (s.moved m' t (.idle 0)) (queue ++ [a]) pool ∧
      (s.moved m' t (.idle 0)).tasks (queue ++ [a]) = s.tasks queue ++ [(s.memory.cell a).payload] := by
  obtain ⟨live, off, final, _⟩ := placed.held t a payload owns
  obtain ⟨m', runs, listed, sameLive, keeps, spares⟩ :=
    pushTask_apply placed.listed live off final (fuel_enough s)
  refine ⟨m', runs, placed.give owns rfl listed ?_ sameLive spares.others, ?_⟩
  · intro b
    simp only [List.mem_append, List.mem_singleton]
    tauto
  · have first : (s.moved m' t (.idle 0)).tasks queue = s.tasks queue := tasks_moved spares
    simpa [TaskState.tasks, TaskState.moved, keeps] using first

private theorem push_step (placed : Placed s queue pool) (step : s.push t payload = some s') :
    ∃ queue', Placed s' queue' pool ∧ s'.tasks queue' = s.tasks queue ++ [payload] := by
  unfold TaskState.push at step
  split at step
  · next a was prepared =>
    have owns : (s.hand t).owns = some (a, was) := by simp [prepared, Hand.owns]
    obtain ⟨m', runs, placed', tasks⟩ := placed.push owns
    split at step
    · next carries =>
      simp only [runs, Option.bind_eq_bind, Option.bind_some, ↓reduceIte, Option.some.injEq] at step
      subst step
      exact ⟨queue ++ [a], placed', carries ▸ tasks⟩
    · cases step
  · cases step

private theorem pop_step (placed : Placed s queue pool) (step : s.pop t payload = some s') :
    ∃ queue', Placed s' queue' pool ∧ s.tasks queue = payload :: s'.tasks queue' := by
  unfold TaskState.pop at step
  split at step
  · next kept idle =>
    have notOwns : (s.hand t).owns = none := by simp [idle, Hand.owns]
    cases queue with
    | nil => simp [popTask_empty placed.listed] at step
    | cons a queue =>
        obtain ⟨m', runs, listed, live, keeps, final, spares⟩ := popTask_first placed.listed
        simp only [runs, Option.bind_eq_bind, Option.bind_some, Option.ite_none_right_eq_some,
          Option.some.injEq] at step
        obtain ⟨carries, rfl⟩ := step
        have aLive := placed.listed.queued.live a (List.mem_cons_self ..)
        have nodup : (a :: (queue ++ pool)).Nodup := placed.listed.nodup
        refine ⟨queue, placed.take notOwns rfl (placed.free (by simp)) listed (List.nodup_cons.mp nodup).1
          (fun b member => List.mem_cons_of_mem a member) (fun b member => List.mem_cons.mp member) ?_
          final carries ?_, ?_⟩
        · intro b
          rw [live]
          exact ⟨.inr, fun either => either.elim (fun same => same ▸ aLive) id⟩
        · intro b off different
          exact spares.others b (fun member => off (List.mem_cons_of_mem a member)) different
        · have rest : (s.moved m' t (.popped a payload)).tasks queue = s.tasks queue := tasks_moved spares
          rw [rest, TaskState.tasks, List.map_cons, ← keeps, carries]
          rfl
  · cases step

private theorem popNothing_step (placed : Placed s queue pool) (step : s.popNothing t = some s') :
    queue = [] ∧ Placed s' queue pool := by
  unfold TaskState.popNothing at step
  split at step
  · next kept idle =>
    cases queue with
    | nil =>
        simp only [popTask_empty placed.listed, Option.bind_eq_bind, Option.bind_some, reduceCtorEq,
          ↓reduceIte, Option.getD_some, Option.some.injEq] at step
        subst step
        exact ⟨rfl, placed.stay placed.listed (by simp [idle, Hand.owns]) rfl rfl rfl⟩
    | cons a queue =>
        obtain ⟨m', runs, _⟩ := popTask_first placed.listed
        simp [runs] at step
  · cases step

private theorem refuse_step (placed : Placed s queue pool) (step : s.refuse t payload = some s') :
    ∃ queue', Placed s' queue' pool ∧ s'.tasks queue' = s.tasks queue ++ [payload] := by
  unfold TaskState.refuse at step
  split at step
  · next a was popped =>
    have owns : (s.hand t).owns = some (a, was) := by simp [popped, Hand.owns]
    obtain ⟨live, _, _, carried⟩ := placed.held t a was owns
    obtain ⟨m', runs, placed', tasks⟩ := placed.push owns
    have unchanged : s.memory.modify a (fun p => { p with task := was.task }) = s.memory :=
      Machine.modify_same (by rw [← carried]; rfl)
    simp only [store_apply live, unchanged, Option.bind_eq_bind, Option.bind_some] at step
    split at step
    · next carries =>
      simp only [runs, Option.bind_some, Option.some.injEq] at step
      subst step
      exact ⟨queue ++ [a], placed', carries ▸ tasks⟩
    · cases step
  · cases step

private theorem finish_step (placed : Placed s queue pool) (step : s.finish t = some s') :
    ∃ pool', Placed s' queue pool' ∧ s'.tasks queue = s.tasks queue := by
  unfold TaskState.finish at step
  split at step
  · next a was popped =>
    have owns : (s.hand t).owns = some (a, was) := by simp [popped, Hand.owns]
    obtain ⟨live, off, final, _⟩ := placed.held t a was owns
    by_cases empty : pool = []
    · subst empty
      have outside : a ∉ queue := by simpa using off
      obtain ⟨m', (runs : recollectTaskPackage s.fuel a s.memory = _), listed, sameLive, spares⟩ :=
        recollectTaskPackage_first placed.listed live outside final
      simp only [runs, Option.bind_eq_bind, Option.bind_some, Option.some.injEq] at step
      subst step
      refine ⟨[a], placed.give owns rfl listed ?_ sameLive spares.others, tasks_moved spares⟩
      simp [or_comm]
    · obtain ⟨m', runs, listed, sameLive, spares⟩ :=
        recollectTaskPackage_next placed.listed empty live off final (fuel_enough s)
      simp only [runs, Option.bind_eq_bind, Option.bind_some, Option.some.injEq] at step
      subst step
      refine ⟨pool ++ [a], placed.give owns rfl listed ?_ sameLive spares.others, tasks_moved spares⟩
      intro b
      simp only [List.mem_append, List.mem_singleton]
      tauto
  · cases step

/-- A step is a step of the queue, or does not show there. -/
theorem next_refines (action : TaskAction) (s s' : TaskState) (queued : List Payload)
    (holds : s.Holds queued) (step : TaskState.next malloc action s = some s') :
    Matches (fifo none) TaskState.Holds action.event s' queued := by
  obtain ⟨queue, pool, placed, rfl⟩ := holds
  cases action with
  | prepare thread payload =>
      obtain ⟨pool', placed', same⟩ := prepare_step placed step
      exact ⟨queue, pool', placed', same⟩
  | prepareFails thread payload =>
      obtain ⟨placed', same⟩ := prepareFails_step placed step
      exact ⟨queue, pool, placed', same⟩
  | push thread payload =>
      obtain ⟨queue', placed', pushed⟩ := push_step placed step
      exact ⟨_, by simp [fifo], queue', pool, placed', pushed⟩
  | pop thread payload =>
      obtain ⟨queue', placed', popped⟩ := pop_step placed step
      rw [popped]
      exact ⟨_, by simp [fifo], queue', pool, placed', rfl⟩
  | popNothing thread =>
      obtain ⟨rfl, placed'⟩ := popNothing_step placed step
      exact ⟨_, rfl, [], pool, placed', rfl⟩
  | refuse thread payload =>
      obtain ⟨queue', placed', pushed⟩ := refuse_step placed step
      exact ⟨_, by simp [fifo], queue', pool, placed', pushed⟩
  | finish thread =>
      obtain ⟨pool', placed', same⟩ := finish_step placed step
      exact ⟨queue, pool', placed', same⟩

end Steps

/-- No call of the thread fails to return: between two rounds it may deliver and
pop, and it may push or put back what it has. -/
def TaskState.Responds (malloc : Malloc) (s : TaskState) (t : Nat) : Prop :=
  match s.hand t with
  | .idle _ =>
      (∀ payload, ∃ s', s.prepare malloc t payload = some s' ∨ s.prepareFails malloc t payload = some s') ∧
        ∃ s', s.popNothing t = some s' ∨ ∃ payload, s.pop t payload = some s'
  | .prepared _ payload => ∃ s', s.push t payload = some s'
  | .popped _ payload => (∃ s', s.refuse t payload = some s') ∧ ∃ s', s.finish t = some s'

section Runs

variable {malloc : Malloc} {s : TaskState} {queue pool : List Addr}

private theorem Placed.responds (placed : Placed s queue pool) (t : Nat) : s.Responds malloc t := by
  unfold TaskState.Responds
  split
  · next kept idle =>
    constructor
    · intro payload
      cases pool with
      | nil =>
          rcases prepareTaskPackage_new malloc payload placed.listed with
            ⟨m', runs, _⟩ | ⟨a, m', runs, _⟩
          · exact ⟨_, .inr (by simp [TaskState.prepareFails, idle, runs]; rfl)⟩
          · exact ⟨_, .inl (by simp [TaskState.prepare, idle, runs]; rfl)⟩
      | cons a pool =>
          obtain ⟨m', runs, _⟩ := prepareTaskPackage_spare malloc payload placed.listed
          exact ⟨_, .inl (by simp [TaskState.prepare, idle, runs]; rfl)⟩
    · cases queue with
      | nil => exact ⟨_, .inl (by simp [TaskState.popNothing, idle, popTask_empty placed.listed]; rfl)⟩
      | cons a queue =>
          obtain ⟨m', runs, _⟩ := popTask_first placed.listed
          exact ⟨_, .inr ⟨_, by simp [TaskState.pop, idle, runs]; exact ⟨rfl, rfl⟩⟩⟩
  · next a payload prepared =>
    have owns : (s.hand t).owns = some (a, payload) := by simp [prepared, Hand.owns]
    obtain ⟨live, off, final, carried⟩ := placed.held t a payload owns
    obtain ⟨m', runs, _⟩ := pushTask_apply placed.listed live off final (fuel_enough s)
    exact ⟨_, by simp [TaskState.push, prepared, carried, runs]; rfl⟩
  · next a payload popped =>
    have owns : (s.hand t).owns = some (a, payload) := by simp [popped, Hand.owns]
    obtain ⟨live, off, final, carried⟩ := placed.held t a payload owns
    have unchanged : s.memory.modify a (fun p => { p with task := payload.task }) = s.memory :=
      Machine.modify_same (by rw [← carried]; rfl)
    constructor
    · obtain ⟨m', runs, _⟩ := pushTask_apply placed.listed live off final (fuel_enough s)
      exact ⟨_, by simp [TaskState.refuse, popped, live, unchanged, carried, runs]; rfl⟩
    · by_cases empty : pool = []
      · subst empty
        have outside : a ∉ queue := by simpa using off
        obtain ⟨m', (runs : recollectTaskPackage s.fuel a s.memory = _), _⟩ :=
          recollectTaskPackage_first placed.listed live outside final
        exact ⟨_, by simp [TaskState.finish, popped, runs]; rfl⟩
      · obtain ⟨m', runs, _⟩ :=
          recollectTaskPackage_next placed.listed empty live off final (fuel_enough s)
        exact ⟨_, by simp [TaskState.finish, popped, runs]; rfl⟩

private theorem start_placed : Placed .start [] [] := by
  refine ⟨⟨rfl, rfl, rfl, List.nodup_nil, ?_, rfl⟩, ?_, ?_, ?_⟩
  · simp [TaskState.start]
  · simp [TaskState.start, Hand.owns]
  · simp [TaskState.start, Hand.owns]
  · simp [TaskState.start]

/-- Every run of the threads is a run of a queue, and every package is in one
place. -/
theorem taskServer_fifo (malloc : Malloc) (actions : List TaskAction) (s : TaskState)
    (runs : run (TaskState.next malloc) actions .start = some s) :
    ∃ queue pool, Placed s queue pool ∧
      run (fifo none) (actions.filterMap TaskAction.event) [] = some (s.tasks queue) ∧
      (actions.filterMap TaskAction.event).filterMap QueueEvent.pushed? =
        (actions.filterMap TaskAction.event).filterMap QueueEvent.popped? ++ s.tasks queue ∧
      ∀ t, s.Responds malloc t := by
  obtain ⟨queued, queueRuns, queue, pool, placed, rfl⟩ :=
    run_simulation next_refines (show TaskState.Holds .start [] from ⟨[], [], start_placed, rfl⟩) runs
  have conserved := fifo_conserves queueRuns
  rw [List.nil_append] at conserved
  exact ⟨queue, pool, placed, queueRuns, conserved, placed.responds⟩

/-- A task is delivered, refused and done. -/
def refusedOnce : List TaskAction :=
  [.prepare 0 ⟨5, 1, 0⟩, .push 0 ⟨5, 1, 0⟩, .pop 1 ⟨5, 1, 0⟩, .refuse 1 ⟨5, 1, 0⟩, .pop 2 ⟨5, 1, 0⟩, .finish 2]

theorem taskServer_fifo_refusedOnce :
    ∃ s, run (TaskState.next .bump) refusedOnce .start = some s ∧
      ∃ queue pool, Placed s queue pool ∧
        run (fifo none) (refusedOnce.filterMap TaskAction.event) [] = some (s.tasks queue) ∧
        (refusedOnce.filterMap TaskAction.event).filterMap QueueEvent.pushed? =
          (refusedOnce.filterMap TaskAction.event).filterMap QueueEvent.popped? ++ s.tasks queue ∧
        ∀ t, s.Responds .bump t := by
  obtain ⟨s, runs⟩ := Option.isSome_iff_exists.mp
    (show (run (TaskState.next .bump) refusedOnce .start).isSome = true from rfl)
  exact ⟨s, runs, taskServer_fifo .bump refusedOnce s runs⟩

end Runs

/-- Deleting the server after any run frees the packages of the queue. The spare packages stay allocated, beside those that
threads have. -/
theorem deleteTaskServer_leaves (malloc : Malloc) (actions : List TaskAction) (s : TaskState)
    (runs : run (TaskState.next malloc) actions .start = some s) :
    ∃ queue pool m, Placed s queue pool ∧ deleteTaskServer (s.fuel + 1) s.memory = some (.ok, m) ∧
      (∀ a ∈ queue, a ∈ s.memory.live ∧ a ∉ m.live) ∧
      (∀ a, a ∈ m.live ↔ a ∈ pool ∨ ∃ t payload, (s.hand t).owns = some (a, payload)) ∧ m.glob.alive = false := by
  obtain ⟨_, _, queue, pool, placed, _⟩ :=
    run_simulation next_refines (show TaskState.Holds .start [] from ⟨[], [], start_placed, rfl⟩) runs
  obtain ⟨alive, queued, pooled, nodup, _, _⟩ := placed.listed
  obtain ⟨queueNodup, _, apart⟩ := List.nodup_append'.mp nodup
  obtain ⟨m, (frees : cleanPackageChain (s.fuel + 1) _ _ = _), live, _⟩ :=
    queued.freeChain queueNodup (Nat.lt_succ_of_le (queued.length_le queueNodup))
  have left : ∀ a, a ∈ m.live ↔ a ∈ s.memory.live ∧ a ∉ queue := by simp [live]
  refine ⟨queue, pool, m.withGlob { m.glob with alive := false }, placed, ?_, ?_, ?_, rfl⟩
  · simp [deleteTaskServer, handleWlock_apply alive, frees]
  · exact fun a member => ⟨queued.live a member, fun remains => ((left a).mp remains).2 member⟩
  · intro a
    rw [Machine.withGlob_live, left]
    constructor
    · rintro ⟨there, off⟩
      refine (placed.placed a there).imp_left fun member => ?_
      exact (List.mem_append.mp member).resolve_left off
    · rintro (spare | ⟨t, payload, owns⟩)
      · exact ⟨pooled.live a spare, fun member => apart member spare⟩
      · obtain ⟨there, off, _⟩ := placed.held t a payload owns
        exact ⟨there, fun member => off (List.mem_append_left _ member)⟩

/-- A package that was used stays. -/
theorem deleteTaskServer_leaves_refusedOnce :
    ∃ s, run (TaskState.next .bump) refusedOnce .start = some s ∧
      ∃ queue pool m, Placed s queue pool ∧ deleteTaskServer (s.fuel + 1) s.memory = some (.ok, m) ∧
        (∀ a ∈ queue, a ∈ s.memory.live ∧ a ∉ m.live) ∧
        (∀ a, a ∈ m.live ↔ a ∈ pool ∨ ∃ t payload, (s.hand t).owns = some (a, payload)) ∧ m.glob.alive = false := by
  obtain ⟨s, runs⟩ := Option.isSome_iff_exists.mp
    (show (run (TaskState.next .bump) refusedOnce .start).isSome = true from rfl)
  exact ⟨s, runs, deleteTaskServer_leaves .bump refusedOnce s runs⟩

end GbfLibrary.Thp
