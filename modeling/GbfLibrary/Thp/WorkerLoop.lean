import GbfLibrary.Thp.Lists

/-!
# The loop of a worker

`worker_thread` of `thp_thread.c` on a live task server. Other threads work on the server between its
calls, so that every round finds the memory as it is then.
-/

set_option autoImplicit false

namespace GbfLibrary.Thp

open Memory Prog

/-- `THP_WORKER_STATUS`. -/
inductive WorkerStatus where
  | ok
  | taskRefused
  | terminated
  | idle
  deriving DecidableEq, Repr

/-- The mode of a pool. -/
inductive PoolMode where
  | normal
  | callWithTask
  deriving DecidableEq, Repr

/-- What a worker sees in one round: the memory when it pops, what its real worker returns if it is called, and
the memory when it is done with the package. -/
structure Round where
  popped : TaskMachine
  result : WorkerStatus
  left : TaskMachine

/-- What becomes of a package. -/
inductive Disposal where
  | pushedBack (package : Addr)
  | recollected (package : Addr)
  deriving DecidableEq, Repr

/-- The variables `package` and `rc`, which nothing sets before the loop. -/
structure WorkerVars where
  package : Addr
  rc : Option WorkerStatus

namespace Round

variable (round : Round) (mode : PoolMode)

/-- `package`, `task` and `output` after the call of `thp_pop_task`. -/
def popTask (package : Addr) : Option (Addr × Word × Word) := do
  let ((code, stored), memory) ← Thp.popTask round.popped
  let package := stored.getD package
  if code = .ok then (do
    let (info, _) ← load package memory
    return (package, info.task, info.output))
  else return (package, 0, 0)

/-- `thp_push_task` with a package that is not null. -/
def pushBack (package : Addr) (task : Word) : Option Unit := do
  let (_, memory) ← store package (fun p => { p with task }) round.left
  let _ ← pushTask memory.live.card package memory
  return ()

/-- `rc` after the calls of the real worker. -/
def status (task : Word) (rc : Option WorkerStatus) : Option WorkerStatus :=
  let rc := if mode = .callWithTask ∧ task ≠ 0 then some round.result else rc
  if mode = .normal then some round.result else rc

/-- One round. A worker that looks at `rc` before it is set fails. The last result is whether the loop is left. -/
def run (vars : WorkerVars) : Option (WorkerVars × List Disposal × Bool) := do
  let (package, task, _) ← round.popTask vars.package
  let rc ← round.status mode task vars.rc
  match rc with
  | .terminated => return (⟨package, some rc⟩, [], true)
  | .taskRefused => do
      round.pushBack package task
      return (⟨0, some .ok⟩, [.pushedBack package], false)
  | .ok | .idle =>
      if package ≠ 0 then (do
        let (kept, _) ← recollectTaskPackage round.left.live.card package round.left
        return (⟨kept, some .ok⟩, [.recollected package], false))
      else return (⟨0, some .ok⟩, [], false)

end Round

/-- The rounds of `worker_thread` until the watcher is terminated, and what became of the packages in each. -/
def workerThread (mode : PoolMode) : List Round → WorkerVars → Option (List (List Disposal))
  | [], _ => some []
  | round :: rounds, vars => do
      let (vars, disposals, left) ← round.run mode vars
      if left = true then return [disposals]
      else (do
        let others ← workerThread mode rounds vars
        return disposals :: others)

namespace Round

/-- The first package of the queue, or null. -/
def package (round : Round) : Addr := round.popped.glob.packages

/-- The task in it, or null. -/
def task (round : Round) : Word := if round.package = 0 then 0 else (round.popped.cell round.package).task

/-- The real worker is called. -/
def Calls (mode : PoolMode) (round : Round) : Prop := mode = .normal ∨ round.task ≠ 0

/-- The server is live, and the package that is popped belongs to the worker until it is done with it. -/
structure Served (round : Round) : Prop where
  listed : ∃ queue pool, Listed round.popped queue pool
  kept : ∃ queue pool, Listed round.left queue pool ∧ (round.package ≠ 0 →
    round.package ∈ round.left.live ∧ round.package ∉ queue ++ pool ∧ (round.left.cell round.package).next = 0)

instance (mode : PoolMode) (round : Round) : Decidable (round.Calls mode) :=
  inferInstanceAs (Decidable (_ ∨ _))

/-- What should become of the package. -/
def owed (mode : PoolMode) (round : Round) : List Disposal :=
  if round.package = 0 then []
  else if round.Calls mode ∧ round.result = .taskRefused then [.pushedBack round.package]
  else [.recollected round.package]

/-- The real worker is called in the first round, refuses nothing without a package, and does not terminate
with one. -/
def Fine (mode : PoolMode) (first : Bool) (round : Round) : Prop :=
  (first = true → round.Calls mode) ∧
    (round.Calls mode → (round.package = 0 → round.result ≠ .taskRefused) ∧
      (round.package ≠ 0 → round.result ≠ .terminated))

end Round

/-- Every round up to the one in which the real worker terminates is fine. -/
def Orderly (mode : PoolMode) : Bool → List Round → Prop
  | _, [] => True
  | first, round :: rounds => round.Fine mode first ∧
      (¬ (round.Calls mode ∧ round.result = .terminated) → Orderly mode false rounds)

section Rounds

variable {mode : PoolMode} {round : Round} {rounds : List Round} {vars : WorkerVars}

private theorem Round.popTask_apply (served : round.Served) (package : Addr) :
    ∃ output, round.popTask package = some (round.package, round.task, output) := by
  obtain ⟨queue, pool, listed⟩ := served.listed
  cases queue with
  | nil =>
      have null : round.package = 0 := listed.queued
      refine ⟨0, ?_⟩
      simp [Round.popTask, popTask_empty listed, Round.task, null]
  | cons a queue =>
      have head : round.package = a := listed.queued.1
      obtain ⟨memory, pops, _, live, payload, _⟩ := popTask_first listed
      have notNull : a ≠ 0 := listed.queued.2.1
      have here : a ∈ memory.live := live ▸ listed.queued.2.2.1
      have task : (memory.cell a).task = (round.popped.cell a).task := congrArg Payload.task payload
      refine ⟨(memory.cell a).output, ?_⟩
      simp [Round.popTask, pops, here, Round.task, head, notNull, task]

private theorem Round.status_eq (rc : Option WorkerStatus) :
    round.status mode round.task rc = if round.Calls mode then some round.result else rc := by
  cases mode with
  | normal => simp [Round.status, Round.Calls]
  | callWithTask => simp [Round.status, Round.Calls]

/-- A package that is neither refused nor kept by a worker that terminates is recollected. -/
theorem Round.run_accepted (served : round.Served) {rc : WorkerStatus} (accepted : rc = .ok ∨ rc = .idle)
    (status : round.status mode round.task vars.rc = some rc) :
    ∃ package, round.run mode vars =
      some (⟨package, some .ok⟩, if round.package = 0 then [] else [.recollected round.package], false) := by
  obtain ⟨output, pops⟩ := Round.popTask_apply served vars.package
  have recollects : round.package ≠ 0 → ∃ kept memory,
      recollectTaskPackage round.left.live.card round.package round.left = some (kept, memory) := by
    intro notNull
    obtain ⟨queue, pool, listed, kept⟩ := served.kept
    obtain ⟨live, outside, final⟩ := kept notNull
    cases pool with
    | nil =>
        rw [List.append_nil] at outside
        exact ⟨_, (recollectTaskPackage_first listed live outside final).imp fun memory facts => facts.1⟩
    | cons first others =>
        obtain ⟨memory, recollects, _⟩ := recollectTaskPackage_next listed (List.cons_ne_nil first others) live
          outside final le_rfl
        exact ⟨_, memory, recollects⟩
  by_cases null : round.package = 0
  · refine ⟨0, ?_⟩
    rcases accepted with rfl | rfl
    all_goals simp [Round.run, pops, status, null]
  · obtain ⟨kept, memory, recollects⟩ := recollects null
    refine ⟨kept, ?_⟩
    rcases accepted with rfl | rfl
    all_goals simp [Round.run, pops, status, null, recollects]

private theorem Round.run_terminated (served : round.Served) (calls : round.Calls mode)
    (terminated : round.result = .terminated) :
    round.run mode vars = some (⟨round.package, some .terminated⟩, [], true) := by
  obtain ⟨output, pops⟩ := Round.popTask_apply served vars.package
  simp [Round.run, pops, Round.status_eq, calls, terminated]

private theorem Round.run_refused (served : round.Served) (calls : round.Calls mode)
    (refused : round.result = .taskRefused) (notNull : round.package ≠ 0) :
    round.run mode vars = some (⟨0, some .ok⟩, [.pushedBack round.package], false) := by
  obtain ⟨output, pops⟩ := Round.popTask_apply served vars.package
  obtain ⟨queue, pool, listed, kept⟩ := served.kept
  obtain ⟨live, outside, final⟩ := kept notNull
  have pushes : round.pushBack round.package round.task = some () := by
    have stored := listed.modify (f := fun p => { p with task := round.task }) outside
    obtain ⟨memory, pushed, _⟩ := pushTask_apply stored (by simpa using live) outside (by simpa using final) le_rfl
    simp only [Round.pushBack, store_apply live, Option.bind_eq_bind, Option.bind_some, pushed]
    rfl
  simp [Round.run, pops, Round.status_eq, calls, refused, pushes]

/-- `package->task` is written although there is no package. -/
theorem Round.run_refused_null (served : round.Served) (calls : round.Calls mode)
    (refused : round.result = .taskRefused) (null : round.package = 0) : round.run mode vars = none := by
  obtain ⟨output, pops⟩ := Round.popTask_apply served vars.package
  obtain ⟨queue, pool, listed, _⟩ := served.kept
  have dead : 0 ∉ round.left.live := fun live => (listed.small 0 live).1 rfl
  simp [Round.run, pops, Round.status_eq, calls, refused, null, Round.pushBack, store, dead]

/-- `rc` is looked at before anything is stored in it. -/
theorem Round.run_unset (served : round.Served) (idle : ¬ round.Calls mode) (unset : vars.rc = none) :
    round.run mode vars = none := by
  obtain ⟨output, pops⟩ := Round.popTask_apply served vars.package
  simp [Round.run, pops, Round.status_eq, idle, unset]

private theorem Round.run_fine {first : Bool} (served : round.Served) (fine : round.Fine mode first)
    (known : first = false → vars.rc = some .ok) :
    (round.Calls mode ∧ round.result = .terminated → ∃ after, round.run mode vars = some (after, round.owed mode, true)) ∧
      (¬ (round.Calls mode ∧ round.result = .terminated) →
        ∃ package, round.run mode vars = some (⟨package, some .ok⟩, round.owed mode, false)) := by
  obtain ⟨called, harmless⟩ := fine
  constructor
  · intro ⟨calls, terminated⟩
    have null : round.package = 0 := not_not.mp fun notNull => (harmless calls).2 notNull terminated
    rw [Round.run_terminated served calls terminated, Round.owed, if_pos null]
    exact ⟨_, rfl⟩
  · intro proceeds
    by_cases calls : round.Calls mode
    · have status : round.status mode round.task vars.rc = some round.result := by
        rw [Round.status_eq, if_pos calls]
      cases result : round.result with
      | ok =>
          obtain ⟨package, runs⟩ := Round.run_accepted served (.inl result) status
          exact ⟨package, by simp [runs, Round.owed, result]⟩
      | idle =>
          obtain ⟨package, runs⟩ := Round.run_accepted served (.inr result) status
          exact ⟨package, by simp [runs, Round.owed, result]⟩
      | taskRefused =>
          have notNull : round.package ≠ 0 := fun null => (harmless calls).1 null result
          refine ⟨0, ?_⟩
          rw [Round.run_refused served calls result notNull, Round.owed, if_neg notNull, if_pos ⟨calls, result⟩]
      | terminated => exact absurd ⟨calls, result⟩ proceeds
    · have later : first = false := by
        cases first with
        | false => rfl
        | true => exact absurd (called rfl) calls
      have status : round.status mode round.task vars.rc = some .ok := by
        rw [Round.status_eq, if_neg calls, known later]
      obtain ⟨package, runs⟩ := Round.run_accepted served (.inl rfl) status
      exact ⟨package, by simp [runs, Round.owed, calls]⟩

private theorem Round.run_not_fine {first : Bool} (served : round.Served) (bad : ¬ round.Fine mode first)
    (unset : first = true → vars.rc = none) : round.run mode vars = none ∨
      round.owed mode ≠ [] ∧ ∃ after, round.run mode vars = some (after, [], true) := by
  by_cases calls : round.Calls mode
  · by_cases null : round.package = 0
    · have refused : round.result = .taskRefused := by
        by_contra accepted
        exact bad ⟨fun _ => calls, fun _ => ⟨fun _ => accepted, fun notNull => absurd null notNull⟩⟩
      exact .inl (Round.run_refused_null served calls refused null)
    · have terminated : round.result = .terminated := by
        by_contra proceeds
        exact bad ⟨fun _ => calls, fun _ => ⟨fun zero => absurd zero null, fun _ => proceeds⟩⟩
      refine .inr ⟨?_, _, Round.run_terminated served calls terminated⟩
      rw [Round.owed, if_neg null]
      split
      all_goals exact List.cons_ne_nil _ _
  · have start : first = true := by
      by_contra later
      exact bad ⟨fun start => absurd start later, fun called => absurd called calls⟩
    exact .inl (Round.run_unset served calls (unset start))

/-- Each package is disposed of as it should be, and nothing fails. -/
def Disposes (mode : PoolMode) (rounds : List Round) (vars : WorkerVars) : Prop :=
  ∃ logs, workerThread mode rounds vars = some logs ∧ logs = (rounds.take logs.length).map (Round.owed mode)

private theorem workerThread_disposes (mode : PoolMode) (rounds : List Round) (first : Bool) (vars : WorkerVars)
    (served : ∀ round ∈ rounds, round.Served) (known : vars.rc = if first = true then none else some .ok) :
    Disposes mode rounds vars ↔ Orderly mode first rounds := by
  induction rounds generalizing first vars with
  | nil => exact ⟨fun _ => trivial, fun _ => ⟨[], rfl, rfl⟩⟩
  | cons round rounds ih =>
      have here := served round List.mem_cons_self
      have others : ∀ later ∈ rounds, later.Served := fun later member => served later (List.mem_cons_of_mem _ member)
      by_cases fine : round.Fine mode first
      · obtain ⟨leaves, proceeds⟩ := Round.run_fine here fine fun later => by simpa [later] using known
        by_cases last : round.Calls mode ∧ round.result = .terminated
        · obtain ⟨after, runs⟩ := leaves last
          constructor
          · exact fun _ => ⟨fine, fun goesOn => absurd last goesOn⟩
          · exact fun _ => ⟨[round.owed mode], by simp [workerThread, runs], rfl⟩
        · obtain ⟨package, runs⟩ := proceeds last
          have rest := ih false ⟨package, some .ok⟩ others rfl
          constructor
          · intro ⟨logs, ran, right⟩
            simp only [workerThread, runs, Option.bind_eq_bind, Option.bind_some, Bool.false_eq_true, if_false] at ran
            obtain ⟨later, ranLater, same⟩ := Option.bind_eq_some_iff.mp ran
            cases same
            rw [List.length_cons, List.take_succ_cons, List.map_cons, List.cons_inj_right] at right
            exact ⟨fine, fun _ => rest.mp ⟨later, ranLater, right⟩⟩
          · intro ⟨_, orderly⟩
            obtain ⟨later, ranLater, right⟩ := rest.mpr (orderly last)
            refine ⟨round.owed mode :: later, by simp [workerThread, runs, ranLater], ?_⟩
            rw [List.length_cons, List.take_succ_cons, List.map_cons, ← right]
      · refine iff_of_false ?_ fun orderly => fine orderly.1
        intro ⟨logs, ran, right⟩
        rcases Round.run_not_fine here fine fun start => by simpa [start] using known with
          fails | ⟨owes, after, leaves⟩
        · simp [workerThread, fails] at ran
        · simp only [workerThread, leaves, Option.bind_eq_bind, Option.bind_some, if_true] at ran
          cases ran
          simp only [List.length_singleton, List.take_succ_cons, List.take_zero, List.map_cons, List.map_nil,
            List.cons.injEq, and_true] at right
          exact owes right.symm

/-- A worker that starts works without fault, and disposes of every package, exactly if its rounds are orderly. -/
theorem disposes_iff_orderly (mode : PoolMode) (rounds : List Round) (served : ∀ round ∈ rounds, round.Served) :
    Disposes mode rounds ⟨0, none⟩ ↔ Orderly mode true rounds :=
  workerThread_disposes mode rounds true ⟨0, none⟩ served rfl

end Rounds

/-- A server whose only package is `1`: in the queue, or with the worker. -/
def onePackage (queued : Bool) : TaskMachine :=
  ⟨{1}, ∅, fun _ => ⟨7, 4, 0, 0⟩, if queued = true then ⟨true, 1, 0, 1⟩ else ⟨true, 0, 0, 0⟩, 1⟩

/-- A round in which the worker gets the package, or nothing. -/
def oneRound (queued : Bool) (result : WorkerStatus) : Round :=
  ⟨onePackage queued, result, onePackage false⟩

private theorem oneRound_served (queued : Bool) (result : WorkerStatus) : (oneRound queued result).Served := by
  have small : ∀ a ∈ (onePackage queued).live, a ≠ 0 ∧ a < 2 ^ 32 := by
    intro a member
    obtain rfl := Finset.mem_singleton.mp member
    exact ⟨by decide, by decide⟩
  have kept : Listed (onePackage false) [] [] := ⟨rfl, rfl, rfl, List.nodup_nil, small, rfl⟩
  constructor
  · cases queued with
    | true =>
        refine ⟨[1], [], rfl, ⟨rfl, by decide, Finset.mem_singleton_self 1, rfl⟩, rfl, ?_, small, rfl⟩
        exact List.nodup_singleton 1
    | false => exact ⟨[], [], kept⟩
  · refine ⟨[], [], kept, fun notNull => ?_⟩
    cases queued with
    | true => exact ⟨Finset.mem_singleton_self 1, List.not_mem_nil, rfl⟩
    | false => exact absurd rfl notNull

theorem disposes_iff_orderly_two :
    Disposes .callWithTask [oneRound true .taskRefused, oneRound false .ok] ⟨0, none⟩ := by
  apply (disposes_iff_orderly _ _ _).mpr
  · refine ⟨?_, fun _ => ⟨?_, fun _ => trivial⟩⟩
    · exact ⟨fun _ => .inr (by decide), fun _ => ⟨fun null => absurd null (by decide), fun _ => by decide⟩⟩
    · exact ⟨(fun start => by cases start), fun _ => ⟨fun _ => by decide, fun _ => by decide⟩⟩
  · intro round member
    simp only [List.mem_cons, List.not_mem_nil, or_false] at member
    rcases member with rfl | rfl
    · exact oneRound_served true .taskRefused
    · exact oneRound_served false .ok

/-- The result of no call is looked at, the task of no package is set, and a package is lost. -/
theorem workerThread_failures : (∀ queued result, (oneRound queued result).Served) ∧
    ¬ Disposes .callWithTask [oneRound false .ok] ⟨0, none⟩ ∧
    ¬ Disposes .normal [oneRound false .taskRefused] ⟨0, none⟩ ∧
    ¬ Disposes .normal [oneRound true .terminated] ⟨0, none⟩ := by
  refine ⟨oneRound_served, ?_, ?_, ?_⟩
  · intro ⟨logs, ran, _⟩
    have fails : workerThread .callWithTask [oneRound false .ok] ⟨0, none⟩ = none := by decide +kernel
    cases fails.symm.trans ran
  · intro ⟨logs, ran, _⟩
    have fails : workerThread .normal [oneRound false .taskRefused] ⟨0, none⟩ = none := by decide +kernel
    cases fails.symm.trans ran
  · intro ⟨logs, ran, right⟩
    have loses : workerThread .normal [oneRound true .terminated] ⟨0, none⟩ = some [[]] := by decide +kernel
    cases loses.symm.trans ran
    revert right
    decide +kernel

end GbfLibrary.Thp
