import GbfLibrary.Thp.Watcher

/-!
# Starting and stopping a thread pool

The threads of a pool can be resumed once: a pool whose threads were resumed, or
that has none, takes stops but no start, and a pool whose threads are suspended
takes a start but no stop.
-/

set_option autoImplicit false

namespace GbfLibrary.Thp

open Systems Watcher

/-- No thread of the pool waits to be resumed. -/
def Watcher.Awake (p : Watcher) : Prop :=
  ∀ info ∈ p.watcher :: p.threads, info.handle = 0 ∨ p.os info.handle ≠ .suspended

/-- A start gets as far as resuming threads. -/
def Watcher.Startable (p : Watcher) : Prop := p.status ≠ .null ∧ p.status ≠ .run

/-- Resuming a thread changes nothing about the pool but the thread. -/
theorem osResumeThread_keeps (handle : Nat) (p : Watcher) :
    (p.osResumeThread handle).2 =
      { p with
        os := if p.os handle = .suspended then Function.update p.os handle .running else p.os
        resumes := p.resumes + 1 } := by
  unfold osResumeThread
  split <;> rfl

private theorem resumeThread_watcher (info : ThreadInfo) (p : Watcher) :
    (p.resumeThread info).2.watcher = p.watcher := by
  unfold resumeThread
  split
  · rfl
  · simp only [osResumeThread_keeps]
    split <;> rfl

section Awake

variable {p p' : Watcher} {info : ThreadInfo} {nodes done : List ThreadInfo} {handle : Nat}

private theorem resumeThread_awake (awake : info.handle = 0 ∨ p.os info.handle ≠ .suspended) :
    (p.resumeThread info).1 ≠ .ok := by
  unfold resumeThread
  split
  · simp
  · next made =>
    have notSuspended := awake.resolve_left made
    simp [osResumeThread, notSuspended]

private theorem resumeAll_awake (awake : ∀ info ∈ p.watcher :: nodes,
    info.handle = 0 ∨ p.os info.handle ≠ .suspended) : ∃ p', resumeAll nodes p = .traps p' := by
  cases nodes with
  | nil =>
      have fails := resumeThread_awake (awake p.watcher (by simp))
      exact ⟨_, by simp [resumeAll, fails]; rfl⟩
  | cons node nodes =>
      have fails := resumeThread_awake (awake node (by simp))
      exact ⟨_, by simp [resumeAll, fails]; rfl⟩

private theorem start_awake (awake : p.Awake) (startable : p.Startable) :
    ∃ p', p.startThreadsAndWatcher = .traps p' := by
  obtain ⟨p', traps⟩ := resumeAll_awake awake
  exact ⟨p', by simp [startThreadsAndWatcher, watcherStartAll, startable.1, startable.2, traps]⟩

private theorem waitInfinite_awake (awake : p.os handle ≠ .suspended) :
    p.waitInfinite handle = some { p with os := Function.update p.os handle .ended } := by
  simp [waitInfinite, awake]

private theorem awake_update (state : OsThread) (notSuspended : state ≠ .suspended)
    (awake : info.handle = 0 ∨ p.os info.handle ≠ .suspended) :
    info.handle = 0 ∨ Function.update p.os handle state info.handle ≠ .suspended := by
  rcases awake with null | awake
  · exact .inl null
  · right
    by_cases same : info.handle = handle
    · simpa [same] using notSuspended
    · simpa [same] using awake

private theorem stopAll_awake (awake : ∀ info ∈ p.watcher :: (done ++ nodes),
    info.handle = 0 ∨ p.os info.handle ≠ .suspended) :
    ∃ p', stopAll done nodes p = .returns .ok p' ∧ p'.Awake ∧ p'.status = p.status := by
  induction nodes generalizing done p with
  | nil =>
      refine ⟨_, rfl, ?_, rfl⟩
      simpa [Awake] using awake
  | cons node nodes ih =>
      unfold stopAll
      split
      · next made =>
        have notSuspended := (awake node (by simp)).resolve_left made
        rw [waitInfinite_awake notSuspended]
        refine ih ?_
        intro info member
        apply awake_update .ended (by simp)
        simp only [List.mem_cons, List.mem_append, List.not_mem_nil, or_false] at member awake
        rcases member with rfl | (inDone | rfl) | inNodes
        · exact awake _ (.inl rfl)
        · exact awake info (.inr (.inl inDone))
        · exact .inl rfl
        · exact awake info (.inr (.inr (.inr inNodes)))
      · refine ih ?_
        simpa [or_assoc] using awake

private theorem stop_awake (awake : p.Awake) :
    ∃ p', p.stopThreadsAndWatcher = .returns .ok p' ∧ p'.Awake ∧ p'.Startable := by
  unfold stopThreadsAndWatcher
  simp only
  split
  · next made =>
    have notSuspended : p.os p.watcher.handle ≠ .suspended :=
      (awake p.watcher (by simp)).resolve_left made
    rw [waitInfinite_awake (by exact notSuspended)]
    simp only
    obtain ⟨p', runs, awake', status⟩ := @stopAll_awake
      { p with
        status := .term
        watcher := ⟨0, 0⟩
        os := Function.update p.os p.watcher.handle .ended } p.threads [] (by
      intro info member
      apply awake_update .ended (by simp)
      cases member with
      | head => exact .inl rfl
      | tail _ member => exact awake info (List.mem_cons_of_mem _ member))
    exact ⟨p', runs, awake', by simp [Startable, status]⟩
  · next null =>
    obtain ⟨p', runs, awake', status⟩ := @stopAll_awake
      { p with status := .term, watcher := { p.watcher with heart := 0 } } p.threads [] (by
      intro info member
      cases member with
      | head => exact .inl (not_not.mp null)
      | tail _ member => exact awake info (List.mem_cons_of_mem _ member))
    exact ⟨p', runs, awake', by simp [Startable, status]⟩

private theorem delete_awake (awake : p.Awake) : ∃ p', p.deleteThreadPool = .returns .ok p' := by
  obtain ⟨p', runs, _⟩ := stop_awake awake
  exact ⟨p'.deleteWatcher, by simp [deleteThreadPool, runs]⟩

/-- The threads of the pool do not suspend each other. -/
theorem grow_awake {made : Bool} (awake : p.Awake) (startable : p.Startable)
    (step : p.grow made = some p') : p'.Awake ∧ p'.Startable := by
  unfold grow at step
  split at step
  · rw [Option.some.injEq, osResumeThread_keeps] at step
    subst step
    refine ⟨?_, by cases made <;> exact startable⟩
    intro info member
    cases made with
    | true =>
        simp only [createThread, ↓reduceIte, Function.update_self, Function.update_idem,
          List.mem_cons,
          List.mem_append, List.not_mem_nil, or_false] at member ⊢
        rcases member with rfl | inThreads | rfl
        · exact awake_update .running (by simp) (awake _ (by simp))
        · exact awake_update .running (by simp) (awake info (by simp [inThreads]))
        · simp
    | false =>
        simp only [createThread, Bool.false_eq_true, ↓reduceIte, List.mem_cons, List.mem_append,
          List.not_mem_nil, or_false] at member ⊢
        have before : info.handle = 0 ∨ p.os info.handle ≠ .suspended := by
          rcases member with rfl | inThreads | rfl
          · exact awake _ (by simp)
          · exact awake info (by simp [inThreads])
          · exact .inl rfl
        split
        · exact awake_update .running (by simp) before
        · exact before
  · cases step

private theorem exits_awake (awake : p.Awake) (startable : p.Startable)
    (step : p.exits handle = some p') : p'.Awake ∧ p'.Startable := by
  unfold exits at step
  split at step
  · cases step
    exact ⟨fun info member => awake_update .ended (by simp) (awake info member), startable⟩
  · cases step

end Awake

/-!
## A new pool
-/

/-- A pool that nothing happened to: its threads wait, each under a handle of its
own. -/
structure Watcher.Asleep (p : Watcher) : Prop where
  suspended : ∀ info ∈ p.watcher :: p.threads, info.handle ≠ 0 → p.os info.handle = .suspended
  distinct : (p.threads ++ [p.watcher]).Pairwise fun x y => x.handle = 0 ∨ x.handle ≠ y.handle
  startable : p.Startable
  idle : ∀ handle, p.os handle ≠ .running

section Asleep

variable {p p' : Watcher} {info : ThreadInfo} {nodes done : List ThreadInfo} {handle : Nat}

private theorem resumeThread_asleep (made : info.handle ≠ 0) (asleep : p.os info.handle = .suspended) :
    p.resumeThread info = (.ok, { p with
      os := Function.update p.os info.handle .running
      resumes := p.resumes + 1 }) := by
  simp [resumeThread, osResumeThread, made, asleep]

/-- All threads of a list are there, wait, and are different. -/
theorem resumeAll_asleep
    (made : ∀ info ∈ nodes ++ [p.watcher], info.handle ≠ 0)
    (asleep : ∀ info ∈ nodes ++ [p.watcher], p.os info.handle = .suspended)
    (distinct : (nodes ++ [p.watcher]).Pairwise fun x y => x.handle = 0 ∨ x.handle ≠ y.handle) :
    ∃ p', resumeAll nodes p = .returns .ok p' ∧ p'.watcher = p.watcher ∧ p'.threads = p.threads ∧
      p'.status = p.status ∧ (∀ h, p.os h ≠ .suspended → p'.os h ≠ .suspended) ∧
      ∀ info ∈ nodes ++ [p.watcher], p'.os info.handle ≠ .suspended := by
  induction nodes generalizing p with
  | nil =>
      have resumed := resumeThread_asleep (made p.watcher (by simp)) (asleep p.watcher (by simp))
      refine ⟨{ p with
        os := Function.update p.os p.watcher.handle .running
        resumes := p.resumes + 1 }, by simp [resumeAll, resumed], rfl, rfl, rfl, ?_, by simp⟩
      intro h awake
      by_cases same : h = p.watcher.handle
      · simp [same]
      · simpa [same] using awake
  | cons node nodes ih =>
      have resumed := resumeThread_asleep (made node (by simp)) (asleep node (by simp))
      rw [List.cons_append] at distinct
      obtain ⟨others, rest⟩ := List.pairwise_cons.mp distinct
      have stillAsleep : ∀ info ∈ nodes ++ [p.watcher],
          Function.update p.os node.handle .running info.handle = .suspended := by
        intro info member
        have different : info.handle ≠ node.handle :=
          ((others info member).resolve_left (made node (by simp))).symm
        rw [Function.update_of_ne different]
        exact asleep info (List.mem_cons_of_mem node member)
      obtain ⟨p', runs, watcher, threads, status, keeps, awake⟩ := @ih
        { p with os := Function.update p.os node.handle .running, resumes := p.resumes + 1 }
        (fun info member => made info (List.mem_cons_of_mem node member)) stillAsleep rest
      refine ⟨p', by simp [resumeAll, resumed, runs], watcher, threads, status, ?_, ?_⟩
      · intro h notSuspended
        refine keeps h ?_
        by_cases same : h = node.handle
        · simp [same]
        · simpa [same] using notSuspended
      · intro info member
        cases member with
        | head => exact keeps node.handle (by simp)
        | tail _ member => exact awake info member

/-- A thread that was not made ends the start in the trap. -/
theorem resumeAll_missing (missing : ∃ info ∈ nodes ++ [p.watcher], info.handle = 0) :
    ∃ p', resumeAll nodes p = .traps p' := by
  induction nodes generalizing p with
  | nil =>
      obtain ⟨info, member, null⟩ := missing
      obtain rfl := List.mem_singleton.mp member
      exact ⟨p, by simp [resumeAll, resumeThread, null]⟩
  | cons node nodes ih =>
      by_cases fails : (p.resumeThread node).1 = .ok
      · obtain ⟨info, member, null⟩ := missing
        have others : info ∈ nodes ++ [(p.resumeThread node).2.watcher] := by
          rw [resumeThread_watcher]
          cases member with
          | head => simp [resumeThread, null] at fails
          | tail _ member => exact member
        obtain ⟨p', traps⟩ := ih ⟨info, others, null⟩
        exact ⟨p', by simp [resumeAll, fails, traps]⟩
      · exact ⟨_, by simp [resumeAll, fails]; rfl⟩

private theorem stopAll_asleep (asleep : ∀ info ∈ nodes, info.handle ≠ 0 → p.os info.handle = .suspended)
    (made : ∃ info ∈ nodes, info.handle ≠ 0) :
    ∃ handle p', stopAll done nodes p = .hangs handle p' ∧ p'.os handle = .suspended := by
  induction nodes generalizing done p with
  | nil => simp at made
  | cons node nodes ih =>
      unfold stopAll
      split
      · next nodeMade =>
        have suspended := asleep node (by simp) nodeMade
        exact ⟨node.handle, p, by simp [waitInfinite, suspended], suspended⟩
      · next null =>
        obtain ⟨info, member, infoMade⟩ := made
        refine ih (fun info member => asleep info (List.mem_cons_of_mem node member)) ⟨info, ?_,
          infoMade⟩
        cases member with
        | head => exact absurd infoMade null
        | tail _ member => exact member

/-- A stop waits for a thread that was not started. -/
theorem stop_asleep (asleep : p.Asleep) (made : ∃ info ∈ p.watcher :: p.threads, info.handle ≠ 0) :
    ∃ handle p', p.stopThreadsAndWatcher = .hangs handle p' ∧ p'.os handle = .suspended := by
  by_cases watcherMade : p.watcher.handle = 0
  · obtain ⟨info, member, infoMade⟩ := made
    have inThreads : info ∈ p.threads := by
      cases member with
      | head => exact absurd watcherMade infoMade
      | tail _ member => exact member
    have suspended : ∀ info ∈ p.threads, info.handle ≠ 0 → p.os info.handle = .suspended :=
      fun info member => asleep.suspended info (List.mem_cons_of_mem _ member)
    obtain ⟨handle, p', hangs, waits⟩ := @stopAll_asleep
      { p with status := .term, watcher := { p.watcher with heart := 0 } } p.threads [] suspended
        ⟨info, inThreads, infoMade⟩
    exact ⟨handle, p', by simpa [stopThreadsAndWatcher, watcherMade] using hangs, waits⟩
  · have suspended := asleep.suspended p.watcher (by simp) watcherMade
    exact ⟨p.watcher.handle, { p with status := .term, watcher := { p.watcher with heart := 0 } },
      by simp [stopThreadsAndWatcher, watcherMade, waitInfinite, suspended], suspended⟩

private theorem awake_of_none (unmade : ∀ info ∈ p.watcher :: p.threads, info.handle = 0) : p.Awake :=
  fun info member => .inl (unmade info member)

end Asleep

/-- `CreateThread` gave the record a thread. -/
def ThreadInfo.made (info : ThreadInfo) : Bool := info.handle != 0

private theorem ThreadInfo.made_iff {info : ThreadInfo} : info.made = true ↔ info.handle ≠ 0 := by
  simp [made]

private theorem ThreadInfo.made_eq_false {info : ThreadInfo} : info.made = false ↔ info.handle = 0 := by
  simp [made]

/-- The threads made so far; `made` says which there are. -/
structure Built (p : Watcher) (made : List Bool) : Prop where
  threads : p.threads.map ThreadInfo.made = made
  suspended : ∀ info ∈ p.threads, info.handle ≠ 0 →
    info.handle ≤ p.handles ∧ p.os info.handle = .suspended
  distinct : p.threads.Pairwise fun x y => x.handle = 0 ∨ x.handle ≠ y.handle
  idle : ∀ handle, p.os handle ≠ .running

section New

variable {p : Watcher} {made workers : List Bool}

/-- Creating a thread keeps what is known of the others. -/
theorem Built.createThread (built : Built p made) (now : Bool) :
    Built { (p.createThread now).2 with
      threads := (p.createThread now).2.threads ++ [⟨(p.createThread now).1,
        0⟩] } (made ++ [now]) := by
  obtain ⟨threads, suspended, distinct, idle⟩ := built
  cases now with
  | true =>
      refine ⟨by simp [Watcher.createThread, threads, ThreadInfo.made], ?_, ?_, ?_⟩
      · intro info member made
        simp only [Watcher.createThread, ↓reduceIte, List.mem_append,
          List.mem_singleton] at member ⊢
        rcases member with old | rfl
        · obtain ⟨small, waits⟩ := suspended info old made
          refine ⟨by omega, ?_⟩
          rw [Function.update_of_ne (by omega), waits]
        · exact ⟨Nat.le_refl _, by simp⟩
      · simp only [Watcher.createThread, ↓reduceIte]
        refine List.pairwise_append.mpr ⟨distinct, by simp, fun x inThreads y new => ?_⟩
        obtain rfl := List.mem_singleton.mp new
        by_cases null : x.handle = 0
        · exact .inl null
        · have small := (suspended x inThreads null).1
          exact .inr (by simp only; omega)
      · intro handle
        by_cases same : handle = p.handles + 1
        · simp [Watcher.createThread, same]
        · simpa [Watcher.createThread, same] using idle handle
  | false =>
      refine ⟨by simp [Watcher.createThread, threads, ThreadInfo.made], ?_, ?_,
        by simpa [Watcher.createThread] using idle⟩
      · intro info member made
        simp only [Watcher.createThread, Bool.false_eq_true, ↓reduceIte, List.mem_append,
          List.mem_singleton] at member ⊢
        rcases member with old | rfl
        · exact suspended info old made
        · exact absurd rfl made
      · simp only [Watcher.createThread, Bool.false_eq_true, ↓reduceIte]
        refine List.pairwise_append.mpr ⟨distinct, by simp, fun x inThreads y new => ?_⟩
        obtain rfl := List.mem_singleton.mp new
        by_cases null : x.handle = 0
        · exact .inl null
        · exact .inr null

private theorem Built.addWorkers (built : Built p made) (workers : List Bool) :
    Built (workers.foldl createWorkerThread p) (made ++ workers) := by
  induction workers generalizing p made with
  | nil => simpa using built
  | cons now workers ih =>
      have first : Built (p.createWorkerThread now) (made ++ [now]) := by
        obtain ⟨threads, suspended, distinct, idle⟩ := built.createThread now
        exact ⟨threads, suspended, distinct, idle⟩
      simpa using ih first

private theorem newWatcher_built (workers : List Bool) (watcherMade : Bool) :
    (newWatcher workers watcherMade).Asleep ∧
      ((newWatcher workers watcherMade).threads ++ [(newWatcher workers watcherMade).watcher]).map
        ThreadInfo.made = workers ++ [watcherMade] := by
  have empty : Built ⟨.null, ⟨0, 0⟩, [], 0, fun _ => .ended, 0, 0⟩ [] :=
    ⟨rfl, by simp, List.Pairwise.nil, by simp⟩
  obtain ⟨threads, suspended, distinct, idle⟩ := (empty.addWorkers workers).createThread watcherMade
  rw [List.nil_append] at threads
  have kept : (newWatcher workers watcherMade).threads ++ [(newWatcher workers
    watcherMade).watcher] =
      ((workers.foldl createWorkerThread ⟨.null, ⟨0, 0⟩, [], 0, fun _ => .ended, 0, 0⟩).createThread
        watcherMade).2.threads ++ [⟨((workers.foldl createWorkerThread
          ⟨.null, ⟨0, 0⟩, [], 0, fun _ => .ended, 0, 0⟩).createThread watcherMade).1, 0⟩] := rfl
  refine ⟨⟨?_, ?_, by simp [Startable, newWatcher], idle⟩, ?_⟩
  · intro info member made
    refine (suspended info ?_ made).2
    rw [← kept]
    simp only [List.mem_cons, List.mem_append, List.not_mem_nil, or_false] at member ⊢
    exact member.symm
  · rw [kept]
    exact distinct
  · rw [kept]
    exact threads

end New

/-!
## Runs
-/

/-- The threads in the order in which they are resumed. -/
theorem Watcher.mem_resumed {p : Watcher} {info : ThreadInfo} :
    info ∈ p.threads ++ [p.watcher] ↔ info ∈ p.watcher :: p.threads := by
  simp [or_comm]

/-- A delete at the end only is at the end only of the later calls. -/
theorem last_of_cons {call : PoolCall} {calls : List PoolCall}
    (last : .delete ∉ (call :: calls).dropLast) : .delete ∉ calls.dropLast := by
  cases calls with
  | nil => simp
  | cons next calls => exact fun member => last (List.mem_cons_of_mem call member)

/-- The call an event is, if it is one. -/
def PoolEvent.asked : PoolEvent → Option PoolCall
  | .call asked => some asked
  | _ => none

section Runs

variable {p p' : Watcher} {events : List PoolEvent} {calls : List PoolCall}

/-- Resuming all threads of a new pool leaves it awake. -/
theorem start_asleep (asleep : p.Asleep) (made : ∀ info ∈ p.threads ++ [p.watcher],
  info.handle ≠ 0) :
    ∃ p', p.startThreadsAndWatcher = .returns .ok p' ∧ p'.Awake ∧ p'.Startable := by
  have suspended : ∀ info ∈ p.threads ++ [p.watcher], p.os info.handle = .suspended := by
    intro info member
    exact asleep.suspended info (mem_resumed.mp member) (made info member)
  obtain ⟨p', runs, watcher, threads, status, _,
    awake⟩ := resumeAll_asleep made suspended asleep.distinct
  refine ⟨p', by simp [startThreadsAndWatcher, watcherStartAll, asleep.startable.1,
    asleep.startable.2, runs],
    ?_, by simpa only [Startable, status] using asleep.startable⟩
  intro info member
  rw [watcher, threads] at member
  exact .inr (awake info (mem_resumed.mpr member))

/-- A thread that was not made traps the start of a new pool. -/
theorem start_missing (asleep : p.Asleep) (missing : ∃ info ∈ p.threads ++ [p.watcher],
  info.handle = 0) :
    ∃ p', p.startThreadsAndWatcher = .traps p' := by
  obtain ⟨p', traps⟩ := resumeAll_missing missing
  exact ⟨p', by simp [startThreadsAndWatcher, watcherStartAll, asleep.startable.1,
    asleep.startable.2, traps]⟩

/-- What the threads do by themselves is not restricted. -/
theorem meets_of_noCalls (noCalls : events.filterMap PoolEvent.asked = []) :
    Meets Watcher.next Behaves events p := by
  induction events generalizing p with
  | nil => trivial
  | cons event events ih =>
      cases event with
      | call call => simp [PoolEvent.asked] at noCalls
      | grow made => exact ⟨trivial, fun p' _ => ih noCalls⟩
      | exits handle => exact ⟨trivial, fun p' _ => ih noCalls⟩

/-- A pool whose threads were resumed takes stops, and a delete at the end. -/
theorem meets_awake (awake : p.Awake) (startable : p.Startable)
    (asked : events.filterMap PoolEvent.asked = calls) (noStart : .start ∉ calls)
    (last : .delete ∉ calls.dropLast) : Meets Watcher.next Behaves events p := by
  induction events generalizing p calls with
  | nil => trivial
  | cons event events ih =>
      subst asked
      cases event with
      | grow made =>
          refine ⟨trivial, fun p' step => ?_⟩
          obtain ⟨awake', startable'⟩ := grow_awake awake startable step
          exact ih awake' startable' rfl noStart last
      | exits handle =>
          refine ⟨trivial, fun p' step => ?_⟩
          obtain ⟨awake', startable'⟩ := exits_awake awake startable step
          exact ih awake' startable' rfl noStart last
      | call call =>
          rw [List.filterMap_cons_some (show PoolEvent.asked (.call call) = some call from rfl)]
            at noStart last
          cases call with
          | start => simp at noStart
          | stop =>
              obtain ⟨stopped, runs, awake', startable'⟩ := stop_awake awake
              refine ⟨by simp [Behaves, PoolCall.run, runs], fun p' step => ?_⟩
              simp only [Watcher.next, PoolCall.run, runs, Option.some.injEq] at step
              subst step
              exact ih awake' startable' rfl (fun member => noStart (List.mem_cons_of_mem _ member))
                (last_of_cons last)
          | delete =>
              obtain ⟨deleted, runs⟩ := delete_awake awake
              refine ⟨by simp [Behaves, PoolCall.run, runs], fun p' _ => meets_of_noCalls ?_⟩
              by_contra more
              rw [List.dropLast_cons_of_ne_nil more] at last
              exact last (List.mem_cons_self ..)

private theorem noStart_of_meets (awake : p.Awake) (startable : p.Startable)
    (last : .delete ∉ calls.dropLast) (meets : Meets Watcher.next Behaves (calls.map .call) p) :
    .start ∉ calls := by
  induction calls generalizing p with
  | nil => simp
  | cons call calls ih =>
      obtain ⟨behaves, later⟩ := meets
      cases call with
      | start =>
          obtain ⟨p', traps⟩ := start_awake awake startable
          simp [Behaves, PoolCall.run, traps] at behaves
      | stop =>
          obtain ⟨stopped, runs, awake', startable'⟩ := stop_awake awake
          have rest : PoolCall.start ∉ calls :=
            ih awake' startable' (last_of_cons last)
              (later stopped (by simp [Watcher.next, PoolCall.run, runs]))
          simpa using rest
      | delete =>
          cases calls with
          | nil => simp
          | cons call calls => simp at last

end Runs

/-- A new pool takes a start first and never another one if all its threads
could be made, and only calls that are no start if none could. -/
theorem newPool_behaves_iff (workers : List Bool) (watcherMade : Bool) (calls : List PoolCall)
    (last : .delete ∉ calls.dropLast) :
    (∀ events, events.filterMap PoolEvent.asked = calls →
        Meets Watcher.next Behaves events (newWatcher workers watcherMade)) ↔
      calls = [] ∨
        ((∀ made ∈ workers ++ [watcherMade], made = true) ∧
          ∃ rest, calls = .start :: rest ∧ .start ∉ rest) ∨
        ((∀ made ∈ workers ++ [watcherMade], made = false) ∧ .start ∉ calls) := by
  obtain ⟨asleep, kinds⟩ := newWatcher_built workers watcherMade
  rw [← kinds]
  generalize newWatcher workers watcherMade = p at asleep
  simp only [List.mem_map, forall_exists_index, and_imp, forall_apply_eq_imp_iff₂,
    ThreadInfo.made_iff, ThreadInfo.made_eq_false]
  constructor
  · intro behaves
    have meets : Meets Watcher.next Behaves (calls.map .call) p :=
      behaves (calls.map .call) (by simp [List.filterMap_map, Function.comp_def, PoolEvent.asked])
    cases calls with
    | nil => exact .inl rfl
    | cons call rest =>
        right
        obtain ⟨here, later⟩ := meets
        by_cases starts : call = .start
        · subst starts
          left
          by_cases missing : ∃ info ∈ p.threads ++ [p.watcher], info.handle = 0
          · obtain ⟨p', traps⟩ := start_missing asleep missing
            simp [Behaves, PoolCall.run, traps] at here
          · have made : ∀ info ∈ p.threads ++ [p.watcher], info.handle ≠ 0 :=
              fun info member null => missing ⟨info, member, null⟩
            obtain ⟨started, runs, awake, startable⟩ := start_asleep asleep made
            have rest' := later started (by simp [Watcher.next, PoolCall.run, runs])
            exact ⟨made, rest, rfl, noStart_of_meets awake startable (last_of_cons last) rest'⟩
        · right
          by_cases anyMade : ∃ info ∈ p.watcher :: p.threads, info.handle ≠ 0
          · obtain ⟨handle, p', hangs, suspended⟩ := stop_asleep asleep anyMade
            cases call with
            | start => exact absurd rfl starts
            | stop => simp [Behaves, PoolCall.run, hangs, suspended] at here
            | delete => simp [Behaves, PoolCall.run, deleteThreadPool, hangs, suspended] at here
          · have unmade : ∀ info ∈ p.watcher :: p.threads, info.handle = 0 :=
              fun info member => not_not.mp fun made => anyMade ⟨info, member, made⟩
            exact ⟨fun info member => unmade info (mem_resumed.mp member),
              noStart_of_meets (awake_of_none unmade) asleep.startable last ⟨here, later⟩⟩
  · rintro (rfl | ⟨made, rest, rfl, noStart⟩ | ⟨unmade, noStart⟩) events asked
    · exact meets_of_noCalls asked
    · obtain ⟨started, runs, awake, startable⟩ := start_asleep asleep made
      cases events with
      | nil => trivial
      | cons event events =>
          cases event with
          | grow now =>
              refine ⟨trivial, fun p' step => ?_⟩
              simp [Watcher.next, Watcher.grow, asleep.idle] at step
          | exits handle =>
              refine ⟨trivial, fun p' step => ?_⟩
              simp [Watcher.next, Watcher.exits, asleep.idle] at step
          | call call =>
              rw [List.filterMap_cons_some (show PoolEvent.asked (.call call) = some call from rfl),
                List.cons.injEq] at asked
              obtain ⟨rfl, asked⟩ := asked
              refine ⟨?_, fun p' step => ?_⟩
              · simp only [Behaves, PoolCall.run, runs, true_and]
                intro _ running
                exact absurd (asleep.suspended p.watcher (by simp) running.1) running.2
              · simp only [Watcher.next, PoolCall.run, runs, Option.some.injEq] at step
                subst step
                exact meets_awake awake startable asked noStart (last_of_cons last)
    · have awake : p.Awake := awake_of_none fun info member => unmade info (mem_resumed.mpr member)
      exact meets_awake awake asleep.startable asked noStart last

theorem newPool_behaves_iff_twoThreads :
    PoolCall.delete ∉ [PoolCall.start, .stop, .delete].dropLast ∧
      ((∀ events, events.filterMap PoolEvent.asked = [.start, .stop, .delete] →
          Meets Watcher.next Behaves events (newWatcher [true, true] true)) ↔
        [PoolCall.start, .stop, .delete] = [] ∨
          ((∀ made ∈ [true, true] ++ [true], made = true) ∧
            ∃ rest, [PoolCall.start, .stop, .delete] = .start :: rest ∧ .start ∉ rest) ∨
          ((∀ made ∈ [true, true] ++ [true], made = false) ∧
            PoolCall.start ∉ [PoolCall.start, .stop, .delete])) :=
  ⟨by decide, newPool_behaves_iff [true, true] true [.start, .stop, .delete] (by decide)⟩

/-- A second start resumes the threads again and ends in the trap. -/
theorem newPool_startedTwice :
    ¬ Meets Watcher.next Behaves [.call .start, .call .start] (newWatcher [true] true) := by
  rintro ⟨_, later⟩
  obtain ⟨here, _⟩ := later _ rfl
  exact here

end GbfLibrary.Thp
