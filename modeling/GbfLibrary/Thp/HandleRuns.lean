import GbfLibrary.Thp.Handle

/-!
# Deleting a handle once

The reference count of a handle is the number of calls and holds on it, so the
handle is deleted when the last of them is gone, and not found any more.
-/

set_option autoImplicit false

namespace GbfLibrary.Thp

open Memory Prog Systems Lock Handles

/-- The references of a thread that are counted. -/
def Caller.references (caller : Caller) : Nat := caller.holds + if caller.point = .idle then 0 else 1

namespace HandleState

variable {n : Nat} {malloc : Malloc} {handle : Addr} {s s' : HandleState n} {i : Fin n}

/-- The count, the registry and the number of deletions fit each other. -/
structure Counted (handle : Addr) (s : HandleState n) : Prop where
  running : s.crashed = false
  kept : s.Walkable → Kept s.pool
  present : s.deletions = 0 → handle ∈ s.pool.handles ∧ handle ∈ s.pool.machine.live
  gone : s.deletions ≠ 0 → handle ∉ s.pool.handles
  refcnt : (s.info handle).refcnt = total Caller.references s.callers
  deletions : s.deletions = if (s.info handle).alive = false ∧ (s.info handle).refcnt = 0 then 1 else 0
  seen : ∀ i, s.pointOf i = .sampled false ∨ s.pointOf i = .released false → (s.info handle).alive = false

private theorem exec_apply {α : Type} {prog : PoolProg Unit α} {a : α} {machine : PoolMachine Unit}
    (goes : prog s.pool.machine = some (a, machine)) (rest : α → HandleState n → HandleState n) :
    s.exec prog rest = rest a { s with pool := ⟨machine, s.pool.handles⟩ } := by
  rw [exec, goes]

private theorem enough_fuel (kept : Kept s.pool) : s.pool.handles.length < s.fuel :=
  Nat.lt_succ_of_le (kept.pooled.chain.length_le kept.distinct)

private theorem Fresh.unused (fresh : Fresh handle s) : total Caller.references s.callers = 0 := by
  apply total_eq_zero.mpr
  intro i
  rw [fresh.idle i]
  rfl

theorem Fresh.counted (fresh : Fresh handle s) : Counted handle s where
  running := fresh.running
  kept := fun _ => fresh.kept
  present := fun _ => ⟨fresh.registered, fresh.kept.pooled.chain.live handle fresh.registered⟩
  gone := fun deleted => absurd fresh.undeleted deleted
  refcnt := by
    rw [fresh.refcnt, fresh.unused]
    rfl
  deletions := by simp [fresh.undeleted, fresh.alive]
  seen := fun i seen => by simp [pointOf, fresh.idle i] at seen

/-- A handle that a thread uses is not deleted. -/
theorem Counted.used (counted : Counted handle s) (uses : 0 < (s.callers i).references) :
    (s.info handle).refcnt ≠ 0 ∧ s.deletions = 0 ∧ handle ∈ s.pool.machine.live := by
  have part : (s.callers i).references ≤ total Caller.references s.callers := share_le_total i
  have refcnt := counted.refcnt
  have counts : (s.info handle).refcnt ≠ 0 := by omega
  have undeleted : s.deletions = 0 := by rw [counted.deletions, if_neg fun both => counts both.2]
  exact ⟨counts, undeleted, (counted.present undeleted).2⟩

theorem Counted.live (counted : Counted handle s) (inCall : s.pointOf i ≠ .idle) : handle ∈ s.pool.machine.live := by
  refine (counted.used (i := i) ?_).2.2
  have counts : (s.callers i).references = (s.callers i).holds + 1 := congrArg _ (if_neg inCall)
  omega

/-- Steps of a thread that keep its references, and the handle's lock. -/
theorem Counted.keep (counted : Counted handle s) (lock : RwLock (Fin n)) (caller : Caller)
    (same : caller.references = (s.callers i).references)
    (seen : caller.point = .sampled false ∨ caller.point = .released false → (s.info handle).alive = false) :
    Counted handle { s with lock, callers := Function.update s.callers i caller } where
  running := counted.running
  kept := counted.kept
  present := counted.present
  gone := counted.gone
  refcnt := counted.refcnt.trans (congrArg Nat.cast (total_update_same same).symm)
  deletions := counted.deletions
  seen := by
    intro j here
    by_cases other : j = i
    · subst other
      exact seen (by simpa [pointOf] using here)
    · exact counted.seen j (by simpa [pointOf, other] using here)

/-- A thread that is somewhere else afterwards has seen what it had seen. -/
theorem seen_update {caller : Caller} {alive : Bool}
    (others : ∀ j, s.pointOf j = .sampled false ∨ s.pointOf j = .released false → alive = false)
    (seen : caller.point = .sampled false ∨ caller.point = .released false → alive = false)
    (j : Fin n) (here : (Function.update s.callers i caller j).point = .sampled false ∨
      (Function.update s.callers i caller j).point = .released false) : alive = false := by
  by_cases other : j = i
  · subst other
    exact seen (by simpa using here)
  · exact others j (by simpa [pointOf, other] using here)

/-- A call that finds the handle counts as a reference. -/
theorem lookup_counted (counted : Counted handle s) (mode : LockMode) (idle : s.pointOf i = .idle)
    (walkable : s.Walkable) : Counted handle (s.lookup handle i mode) := by
  have kept := counted.kept walkable
  by_cases found : handle ∈ s.pool.handles
  · have counts : countReference s.fuel handle s.pool.machine =
        some (true, s.pool.machine.modify handle fun info => { info with refcnt := info.refcnt + 1 }) := by
      rw [countReference_apply kept.pooled (enough_fuel kept), if_pos found]
    have undeleted : s.deletions = 0 := by
      by_contra deleted
      exact counted.gone deleted found
    have more : total Caller.references (Function.update s.callers i ⟨(s.callers i).holds, .counted mode⟩) +
        (s.callers i).references = total Caller.references s.callers + ((s.callers i).holds + 1) :=
      total_update
    have before : (s.callers i).references = (s.callers i).holds := by
      simp only [pointOf] at idle
      simp [Caller.references, idle]
    have refcnt := counted.refcnt
    simp only [info] at refcnt
    rw [lookup, exec_apply counts]
    refine ⟨counted.running, fun _ => kept.modify handle fun _ => ⟨rfl, rfl, rfl⟩, counted.present, counted.gone,
      ?_, ?_, ?_⟩
    · simp only [if_true, move, info, Machine.modify_cell_self]
      omega
    · have positive : (s.pool.machine.cell handle).refcnt + 1 ≠ 0 := by omega
      simp [move, info, undeleted, positive]
    · simp only [if_true, move, info, Machine.modify_cell_self]
      exact seen_update counted.seen (by simp)
  · have missed : countReference s.fuel handle s.pool.machine = some (false, s.pool.machine) := by
      rw [countReference_apply kept.pooled (enough_fuel kept), if_neg found]
    rw [lookup, exec_apply missed, if_neg Bool.false_ne_true]
    exact counted

/-- A thread at the end of `thp_handle_unlock` has one reference more than afterwards. -/
private theorem references_leave {isAlive : Bool} (here : s.pointOf i = .released isAlive) :
    total Caller.references (Function.update s.callers i ⟨(s.callers i).holds, .idle⟩) + 1 =
      total Caller.references s.callers ∧ 0 < (s.callers i).references := by
  have fewer : total Caller.references (Function.update s.callers i ⟨(s.callers i).holds, .idle⟩) +
      (s.callers i).references = total Caller.references s.callers + (s.callers i).holds :=
    total_update
  have before : (s.callers i).references = (s.callers i).holds + 1 := by
    simp only [pointOf] at here
    simp [Caller.references, here]
  exact ⟨by omega, by omega⟩

/-- The end of `thp_handle_unlock` gives a reference back that is not the last one, or not seen to be. -/
theorem leave_kept {isAlive : Bool} (counted : Counted handle s) (here : s.pointOf i = .released isAlive)
    (notLast : ¬ (isAlive = false ∧ (s.info handle).refcnt - 1 ≤ 0))
    (orderly : (s.info handle).alive = false → (s.info handle).refcnt ≠ 1) :
    Counted handle (s.leave handle i isAlive) := by
  obtain ⟨fewer, counts⟩ := references_leave here
  obtain ⟨positive, undeleted, live⟩ := counted.used counts
  have refcnt := counted.refcnt
  simp only [info] at refcnt notLast orderly positive
  have drops : dropReference s.fuel handle isAlive s.pool.machine =
      some (false, s.pool.machine.modify handle fun info => { info with refcnt := info.refcnt - 1 }) := by
    have left : ¬ (isAlive = false ∧ ((s.pool.machine.modify handle fun info =>
        { info with refcnt := info.refcnt - 1 }).cell handle).refcnt ≤ 0) := by
      rwa [Machine.modify_cell_self]
    simp only [dropReference, bind_apply, store_apply live, andThen_some, load_apply, Machine.modify_live, live, left,
      if_false]
    rfl
  rw [leave, exec_apply drops, if_neg Bool.false_ne_true]
  refine ⟨counted.running, fun walkable => ?_, counted.present, counted.gone, ?_, ?_, ?_⟩
  · exact (counted.kept walkable).modify handle fun _ => ⟨rfl, rfl, rfl⟩
  · simp only [move, info, Machine.modify_cell_self]
    omega
  · have undone : ¬ ((s.pool.machine.cell handle).alive = false ∧ (s.pool.machine.cell handle).refcnt - 1 = 0) :=
      fun both => orderly both.1 (by omega)
    simp [move, info, undeleted, undone]
  · simp only [move, info, Machine.modify_cell_self]
    exact seen_update counted.seen (by simp)

/-- The end of `thp_handle_unlock` deletes the handle if no reference is left. -/
theorem leave_deletes (counted : Counted handle s) (here : s.pointOf i = .released false)
    (last : (s.info handle).refcnt - 1 ≤ 0) (walkable : s.Walkable) :
    Counted handle (s.leave handle i false) := by
  obtain ⟨fewer, counts⟩ := references_leave here
  obtain ⟨positive, undeleted, live⟩ := counted.used counts
  have killed : (s.info handle).alive = false := counted.seen i (.inr here)
  have refcnt := counted.refcnt
  simp only [info] at refcnt positive last killed
  have kept : Kept ⟨s.pool.machine.modify handle fun info => { info with refcnt := info.refcnt - 1 },
      s.pool.handles⟩ := (counted.kept walkable).modify handle fun _ => ⟨rfl, rfl, rfl⟩
  obtain ⟨front, back, split⟩ := List.append_of_mem (counted.present undeleted).1
  have nodup := split ▸ kept.distinct
  obtain ⟨machine, deletes, pool, left, same, kept'⟩ :=
    kept.delHandle split (enough_fuel (counted.kept walkable))
  have drops : dropReference s.fuel handle false s.pool.machine = some (true, machine) := by
    simp [dropReference, live, last, deletes]
  have erased : s.pool.handles.erase handle = front ++ back := by rw [split, erase_middle nodup]
  rw [leave, exec_apply drops, if_pos rfl, erased]
  refine ⟨counted.running, fun walkable' => ?_, nofun, fun _ => (List.nodup_middle.mp nodup).notMem, ?_, ?_, ?_⟩
  · exact kept' (kept.notFirst_of_pointer split pool left walkable')
  · simp only [move, info, (same handle).2, Machine.modify_cell_self]
    omega
  · have zero : (s.pool.machine.cell handle).refcnt - 1 = 0 := by omega
    simp [move, info, same, undeleted, killed, zero]
  · simp only [move, info, (same handle).1, Machine.modify_cell_self]
    exact seen_update counted.seen (by simp)

private theorem leave_counted {isAlive : Bool} (counted : Counted handle s) (here : s.pointOf i = .released isAlive)
    (orderly : s.LeavesOrderly handle (.released isAlive)) : Counted handle (s.leave handle i isAlive) := by
  cases isAlive with
  | true => exact leave_kept counted here (fun last => absurd last.1 (by decide)) orderly
  | false =>
      by_cases last : (s.info handle).refcnt - 1 ≤ 0
      · exact leave_deletes counted here last (orderly (by omega))
      · exact leave_kept counted here (fun both => last both.2) fun _ => by omega

/-- What happens to other handles, as far as the registry stays right. -/
theorem Counted.transfer (counted : Counted handle s) {pool : PoolState Unit}
    (same : (pool.machine.cell handle).alive = (s.info handle).alive ∧
      (pool.machine.cell handle).refcnt = (s.info handle).refcnt)
    (kept : pool.machine.Pointer pool.machine.glob.pool → Kept pool)
    (live : handle ∈ s.pool.machine.live → handle ∈ pool.machine.live)
    (registered : handle ∈ pool.handles ↔ handle ∈ s.pool.handles) : Counted handle { s with pool } where
  running := counted.running
  kept := kept
  present := fun undeleted =>
    ⟨registered.mpr (counted.present undeleted).1, live (counted.present undeleted).2⟩
  gone := fun deleted member => counted.gone deleted (registered.mp member)
  refcnt := same.2.trans counted.refcnt
  deletions := by
    rw [info, same.1, same.2]
    exact counted.deletions
  seen := fun i seen => same.1.trans (counted.seen i seen)

/-- A handle that gets the address of one that was deleted is as new. -/
theorem Counted.renew (counted : Counted handle s) (deleted : s.deletions ≠ 0) {pool : PoolState Unit} (kept : Kept pool)
    (registered : handle ∈ pool.handles)
    (new : (pool.machine.cell handle).alive = true ∧ (pool.machine.cell handle).refcnt = 0) :
    Counted handle { s with pool, lock := RwLock.init, deletions := 0 } := by
  have unused : total Caller.references s.callers = 0 := by
    by_contra used
    have counts : (s.info handle).refcnt ≠ 0 := by
      rw [counted.refcnt]
      omega
    rw [counted.deletions, if_neg fun both => counts both.2] at deleted
    exact deleted rfl
  refine ⟨counted.running, fun _ => kept, fun _ => ⟨registered, kept.pooled.chain.live handle registered⟩,
    fun no => absurd rfl no, ?_, ?_, fun i seen => ?_⟩
  · rw [info, new.2, unused]
    rfl
  · simp [info, new.1]
  · have idle : (s.callers i).references = 0 := total_eq_zero.mp unused i
    have inCall : (s.callers i).point ≠ .idle := by
      intro rests
      simp [pointOf, rests] at seen
    rw [Caller.references, if_neg inCall] at idle
    exact absurd idle (Nat.succ_ne_zero _)

/-- Another handle is created, perhaps at the address of the handle after that was deleted. -/
theorem register_counted (counted : Counted handle s) (needLock : Bool) (walkable : s.Walkable) :
    Counted handle (s.register malloc handle needLock) := by
  have kept := counted.kept walkable
  obtain ⟨out, machine, creates, outcome⟩ := kept.newHandle malloc needLock (enough_fuel kept)
  rw [register, exec_apply creates]
  rcases outcome with ⟨rfl, _, unchanged⟩ | created
  · rw [if_pos rfl]
    apply counted.transfer ?_ fun _ => kept.unchanged unchanged
    · exact fun live => unchanged.live ▸ live
    · rfl
    · rcases unchanged.cell handle with same | ⟨free, zero⟩
      · rw [same]
        exact ⟨rfl, rfl⟩
      · have deleted : s.deletions ≠ 0 := fun undeleted => free (counted.present undeleted).2
        rw [counted.deletions, ne_eq, ite_eq_right_iff, not_forall] at deleted
        obtain ⟨⟨dead, unused⟩, _⟩ := deleted
        rw [zero, dead, unused]
        exact ⟨rfl, rfl⟩
  · have kept' := kept.created created
    rw [if_neg created.notNull]
    by_cases here : out = handle
    · subst here
      have deleted : s.deletions ≠ 0 := fun undeleted => created.fresh (counted.present undeleted).2
      simp only [if_true]
      exact counted.renew deleted kept' (by simp) created.unused
    · have same := Handle.same_of_content (created.content handle (Ne.symm here))
      simp only [if_neg here]
      apply counted.transfer same.2 fun _ => kept'
      · intro live
        rw [created.live]
        exact Finset.mem_insert_of_mem live
      · simp [Ne.symm here]

/-- Another handle is deleted. -/
theorem unregister_counted {other : Addr} (counted : Counted handle s) (different : other ≠ handle)
    (registered : other ∈ s.pool.handles) (walkable : s.Walkable) :
    Counted handle (s.exec (delHandle s.fuel other) fun _ s =>
      { s with pool := ⟨s.pool.machine, s.pool.handles.erase other⟩ }) := by
  have kept := counted.kept walkable
  obtain ⟨front, back, split⟩ := List.append_of_mem registered
  obtain ⟨machine, deletes, pool, left, same, kept'⟩ := kept.delHandle split (enough_fuel kept)
  rw [exec_apply deletes]
  apply counted.transfer (same handle)
  · intro walkable'
    rw [split, erase_middle (split ▸ kept.distinct)]
    exact kept' (kept.notFirst_of_pointer split pool left walkable')
  · intro live
    rw [left]
    exact Finset.mem_erase.mpr ⟨different.symm, live⟩
  · exact List.mem_erase_of_ne different.symm

private theorem kill_counted (counted : Counted handle s) (holds : 0 < (s.callers i).holds) :
    Counted handle (s.exec (store handle fun info => { info with alive := false }) fun _ s => s) := by
  obtain ⟨counts, undeleted, live⟩ := counted.used (i := i) (by rw [Caller.references]; omega)
  rw [exec_apply (store_apply live)]
  refine ⟨counted.running, fun walkable => ?_, counted.present, counted.gone, ?_, ?_, fun _ _ => ?_⟩
  · exact (counted.kept walkable).modify handle fun _ => ⟨rfl, rfl, rfl⟩
  · rw [info, Machine.modify_cell_self]
    exact counted.refcnt
  · have positive : (s.pool.machine.cell handle).refcnt ≠ 0 := counts
    simp [info, undeleted, positive]
  · rw [info, Machine.modify_cell_self]

private theorem reach_live (counted : Counted handle s) (inCall : s.pointOf i ≠ .idle)
    (step : Option (HandleState n)) : s.reach handle step = step := if_pos (counted.live inCall)

private theorem next_counted {step : HandleStep n} (counted : Counted handle s) (orderly : Orderly handle step s)
    (steps : next malloc handle step s = some s') : Counted handle s' := by
  have running : ¬ s.crashed = true := by
    rw [counted.running]
    exact Bool.false_ne_true
  unfold next at steps
  rw [if_neg running] at steps
  cases step with
  | lookup i mode =>
      simp only at steps
      split at steps
      · next idle =>
        cases steps
        exact lookup_counted counted mode idle orderly
      · cases steps
  | enter i =>
      simp only at steps
      split at steps
      · next mode here =>
        rw [reach_live counted (by rw [here]; nofun)] at steps
        simp only [pointOf] at here
        cases mode with
        | read =>
            obtain ⟨locked, _, rfl⟩ := Option.map_eq_some_iff.mp steps
            exact counted.keep _ _ (by simp [Caller.references, here]) (by simp)
        | write =>
            obtain ⟨entered, _, rfl⟩ := Option.map_eq_some_iff.mp steps
            refine counted.keep _ _ ?_ ?_
            · cases entered.1 <;> simp [Caller.references, here]
            · cases entered.1 <;> simp
      · cases steps
  | grant i =>
      simp only at steps
      split at steps
      · next here =>
        rw [reach_live counted (by rw [here]; nofun)] at steps
        simp only [pointOf] at here
        obtain ⟨lock, _, rfl⟩ := Option.map_eq_some_iff.mp steps
        exact counted.keep _ _ (by simp [Caller.references, here]) (by simp)
      · cases steps
  | check i =>
      simp only at steps
      split at steps
      · next here =>
        rw [reach_live counted (by rw [here]; nofun)] at steps
        simp only [pointOf] at here
        cases steps
        unfold check
        split
        · exact counted.keep s.lock _ (by simp [Caller.references, here]) (by simp)
        · exact counted.keep s.lock _ (by simp [Caller.references, here]) (by simp)
      · cases steps
  | unlock i =>
      simp only at steps
      split at steps
      · next here =>
        obtain ⟨idle, holds⟩ := here
        simp only [pointOf] at idle
        cases steps
        refine counted.keep s.lock _ ?_ (by simp)
        simp only [Caller.references, idle, reduceCtorEq, ↓reduceIte]
        omega
      · cases steps
  | sample i =>
      simp only at steps
      split at steps
      · next here =>
        rw [reach_live counted (by rw [here]; nofun)] at steps
        simp only [pointOf] at here
        cases steps
        exact counted.keep s.lock _ (by simp [Caller.references, here]) (by simp)
      · cases steps
  | release i =>
      simp only at steps
      split at steps
      · next isAlive here =>
        rw [reach_live counted (by rw [here]; nofun)] at steps
        have seen : isAlive = false → (s.info handle).alive = false := by
          rintro rfl
          exact counted.seen i (.inl here)
        simp only [pointOf] at here
        cases steps
        exact counted.keep _ _ (by simp [Caller.references, here]) (by simpa using seen)
      · cases steps
  | leave i =>
      simp only at steps
      split at steps
      · next isAlive here =>
        cases steps
        rw [Orderly, here] at orderly
        exact leave_counted counted here orderly
      · cases steps
  | kill i =>
      simp only at steps
      split at steps
      · next here =>
        cases steps
        exact kill_counted counted here.2.1
      · cases steps
  | register needLock =>
      cases steps
      exact register_counted counted needLock orderly
  | unregister other =>
      simp only at steps
      split at steps
      · next here =>
        cases steps
        exact unregister_counted counted here.1 here.2 orderly
      · cases steps

/-- In every run in which the decrement to 0 is made by a thread that saw the handle killed, and nothing walks
through the registry after its first handle was deleted, no freed memory is touched, and the handle is deleted once,
when it was killed and its references are gone. -/
theorem handle_deletedOnce {steps : List (HandleStep n)} (fresh : Fresh handle s)
    (orderly : Meets (next malloc handle) (Orderly handle) steps s)
    (runs : run (next malloc handle) steps s = some s') :
    s'.crashed = false ∧
      s'.deletions = (if (s'.info handle).alive = false ∧ (s'.info handle).refcnt = 0 then 1 else 0) ∧
        (s'.deletions ≠ 0 → handle ∉ s'.pool.handles) := by
  have counted : Counted handle s' :=
    run_invariant_of_meets (fun _ _ _ counted orderly step => next_counted counted orderly step)
      fresh.counted orderly runs
  exact ⟨counted.running, counted.deletions, counted.gone⟩

/-- Two handles, the second of which is used. -/
def twoHandles : HandleState 2 where
  pool :=
    { machine :=
        { live := {2, 4}
          others := {1, 3, 5}
          cell := fun a => if a = 2 then ⟨0, 3, true, 0, 4, 0⟩ else ⟨0, 5, true, 0, 0, 2⟩
          glob := ⟨2, true, ()⟩
          callocs := 5 }
      handles := [2, 4] }
  lock := RwLock.init
  deletions := 0
  crashed := false
  callers := fun _ => ⟨0, .idle⟩

private theorem twoHandles_fresh : Fresh 4 twoHandles where
  kept :=
    { pooled := by simp [Pooled, Doubly, twoHandles]
      distinct := by decide
      locks := ⟨by decide, by decide⟩ }
  registered := by decide
  alive := rfl
  refcnt := rfl
  lock := rfl
  undeleted := rfl
  running := rfl
  idle := fun _ => rfl

/-- The write holder kills the handle while another thread waits for it. -/
def killedWhileWaiting (writer reader : Fin 2) : List (HandleStep 2) :=
  [.register true, .lookup writer .write, .enter writer, .grant writer, .check writer, .lookup reader .read,
    .kill writer, .unlock writer, .sample writer, .release writer, .leave writer, .enter reader, .check reader,
    .sample reader, .release reader, .leave reader, .lookup reader .read]

theorem handle_deletedOnce_whileWaiting :
    ∃ s', run (next .bump 4) (killedWhileWaiting 0 1) twoHandles = some s' ∧ s'.crashed = false ∧
      s'.deletions = (if (s'.info 4).alive = false ∧ (s'.info 4).refcnt = 0 then 1 else 0) := by
  obtain ⟨s', runs⟩ := Option.isSome_iff_exists.mp
    (show (run (next .bump 4) (killedWhileWaiting 0 1) twoHandles).isSome = true by decide +kernel)
  have orderly : Meets (next .bump 4) (Orderly 4) (killedWhileWaiting 0 1) twoHandles := by decide +kernel
  obtain ⟨running, deletions, _⟩ := handle_deletedOnce twoHandles_fresh orderly runs
  exact ⟨s', runs, running, deletions⟩

/-- A reader that looked at `alive` before the handle was killed is the last to
give its reference back. -/
theorem handle_notDeleted :
    ∃ s', run (next .bump 4) [.lookup 1 .read, .enter 1, .check 1, .unlock 1, .sample 1, .release 1,
        .lookup 0 .write, .enter 0, .grant 0, .check 0, .kill 0, .unlock 0, .sample 0, .release 0, .leave 0,
        .leave 1] twoHandles = some s' ∧
      (s'.info 4).alive = false ∧ (s'.info 4).refcnt = 0 ∧ (∀ i, s'.callers i = ⟨0, .idle⟩) ∧ s'.deletions = 0 := by
  refine ⟨_, rfl, rfl, rfl, ?_, rfl⟩
  decide

end HandleState

end GbfLibrary.Thp
