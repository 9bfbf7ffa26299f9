import GbfLibrary.Enet.Handle

/-!
# Reclaiming a handle once

The deletion that finds a handle alive is the only one that may reclaim it, and
does if it sees no reference.
-/

set_option autoImplicit false

namespace GbfLibrary.Enet

open Memory Prog Systems Lock Handles

/-- Between the end of the handle's life and its reclaiming. -/
def CallPoint.inCharge : CallPoint → Bool
  | .deleting .test | .deleting .reclaim => true
  | _ => false

/-- A handle that is not the first one and for which the reuse table has room leaves the registry for the table. -/
theorem Tracked.reclaim {s : PoolState ReuseTable} {handle : Addr} {fuel : Nat} (tracked : Tracked s)
    (member : handle ∈ s.handles) (enough : s.handles.length < fuel) (notFirst : s.machine.glob.pool ≠ handle)
    (room : s.machine.glob.table.length < maxReuseTable) :
    ∃ machine, Enet.reclaim fuel handle s.machine = some (0, machine) ∧
      Tracked ⟨machine, s.handles.erase handle⟩ ∧ machine.glob.table = handle :: s.machine.glob.table ∧
        ∀ a, (machine.cell a).content = (s.machine.cell a).content := by
  obtain ⟨front, back, here⟩ := List.append_of_mem member
  have nodup := here ▸ tracked.nodup
  have pooled := here ▸ tracked.pooled
  obtain ⟨middle, removes, left, glob, relinked⟩ := handleRemoveFromPool_apply pooled nodup (here ▸ enough)
  have others := left ((pooled.pool_ne_iff nodup).mp notFirst)
  have fits : ¬ maxReuseTable ≤ middle.glob.table.length := by
    rw [glob]
    exact Nat.not_le.mpr room
  refine ⟨middle.withGlob { middle.glob with table := handle :: middle.glob.table }, ?_, ?_, ?_, relinked.content⟩
  · simp only [Enet.reclaim, bind_apply, removes, andThen_some, reuseHandle, getGlob_apply, fits, if_false, setGlob_apply]
    rfl
  · rw [here, erase_middle nodup]
    exact tracked.park here others glob relinked.live
  · rw [Machine.withGlob_glob, glob]

namespace HandleState

variable {n : Nat} {malloc : Malloc} {handle : Addr} {s s' : HandleState n} {i : Fin n}

/-- The thread that killed the handle reclaims it. -/
structure Charged (handle : Addr) (s : HandleState n) : Prop where
  running : s.crashed = false
  tracked : Tracked s.pool
  /-- At most one thread is in charge, and only of a handle that was killed. -/
  single : ∀ i j, (s.pointOf i).inCharge = true → (s.pointOf j).inCharge = true → i = j
  killed : ∀ i, (s.pointOf i).inCharge = true → (s.info handle).alive = false
  before : (s.info handle).alive = true ∨ (∃ i, (s.pointOf i).inCharge = true) → handle ∈ s.pool.handles
  after : (s.info handle).alive = false → (∀ i, (s.pointOf i).inCharge = false) → handle ∈ s.table
  safe : ∀ i, s.pointOf i ≠ .deleting .discard

private theorem exec_apply {α : Type} {prog : PoolProg ReuseTable α} {a : α} {machine : PoolMachine ReuseTable}
    (goes : prog s.pool.machine = some (a, machine)) (rest : α → HandleState n → HandleState n) :
    s.exec prog rest = rest a { s with pool := ⟨machine, s.pool.handles⟩ } := by
  rw [exec, goes]

private theorem enough_fuel (tracked : Tracked s.pool) : s.pool.handles.length < s.fuel :=
  Nat.lt_succ_of_le (tracked.pooled.chain.length_le tracked.nodup)

private theorem Fresh.charged (fresh : Fresh handle s) : Charged handle s where
  running := fresh.running
  tracked := fresh.tracked
  single := fun i j charge => by simp [pointOf, fresh.idle i, CallPoint.inCharge] at charge
  killed := fun i charge => by simp [pointOf, fresh.idle i, CallPoint.inCharge] at charge
  before := fun _ => fresh.registered
  after := fun killed => by simp [fresh.alive] at killed
  safe := fun i => by simp [pointOf, fresh.idle i]

/-- A handle is registered or parked, so it is never freed. -/
theorem Charged.live (charged : Charged handle s) : handle ∈ s.pool.machine.live := by
  have registered : handle ∈ s.pool.handles → handle ∈ s.pool.machine.live :=
    charged.tracked.pooled.chain.live handle
  by_cases alive : (s.info handle).alive = true
  · exact registered (charged.before (.inl alive))
  · by_cases charge : ∃ i, (s.pointOf i).inCharge = true
    · exact registered (charged.before (.inr charge))
    · rw [not_exists] at charge
      have parked := charged.after (by simpa using alive) fun i => by simpa using charge i
      exact (charged.tracked.parked handle parked).2

private theorem inCharge_update {caller : Caller} (same : caller.point.inCharge = (s.pointOf i).inCharge)
    (j : Fin n) :
    (Function.update s.callers i caller j).point.inCharge = (s.pointOf j).inCharge := by
  by_cases other : j = i
  · subst other
    simpa using same
  · simp [pointOf, other]

private theorem safe_update {caller : Caller} (others : ∀ j, s.pointOf j ≠ .deleting .discard)
    (safe : caller.point ≠ .deleting .discard) (j : Fin n) :
    (Function.update s.callers i caller j).point ≠ .deleting .discard := by
  by_cases other : j = i
  · subst other
    simpa using safe
  · simpa [pointOf, other] using others j

/-- Steps that neither kill the handle nor reclaim it. -/
theorem Charged.keep (charged : Charged handle s) (running : s'.crashed = false) (tracked : Tracked s'.pool)
    (alive : (s'.info handle).alive = (s.info handle).alive)
    (registered : handle ∈ s.pool.handles → handle ∈ s'.pool.handles) (parked : handle ∈ s.table → handle ∈ s'.table)
    (points : ∀ j, (s'.pointOf j).inCharge = (s.pointOf j).inCharge)
    (safe : ∀ j, s'.pointOf j ≠ .deleting .discard) : Charged handle s' where
  running := running
  tracked := tracked
  single := by simpa only [points] using charged.single
  killed := by simpa only [points, alive] using charged.killed
  before := by
    simp only [points, alive]
    exact fun there => registered (charged.before there)
  after := by
    simp only [points, alive]
    exact fun dead nobody => parked (charged.after dead nobody)
  safe := safe

/-- Steps that move one thread, not into or out of its charge. -/
theorem Charged.advance (charged : Charged handle s) (lock : RwLock (Fin n))
    (dbLock : Option (Fin n)) (caller : Caller)
    (same : caller.point.inCharge = (s.pointOf i).inCharge) (safe : caller.point ≠ .deleting .discard) :
    Charged handle { s with lock, dbLock, callers := Function.update s.callers i caller } :=
  charged.keep charged.running charged.tracked rfl id id (inCharge_update same) (safe_update charged.safe safe)

/-- A field of the handle is changed that nobody is in charge of. -/
theorem Charged.modify (charged : Charged handle s) {f : Handle → Handle}
    (same : ∀ info, (f info).next = info.next ∧ (f info).prev = info.prev) (alive : ∀ info, (f info).alive = info.alive) :
    Charged handle { s with pool := ⟨s.pool.machine.modify handle f, s.pool.handles⟩ } := by
  refine charged.keep charged.running (charged.tracked.modify handle same) ?_ id id (fun _ => rfl) charged.safe
  rw [info, Machine.modify_cell_self, alive]
  rfl

/-- What happens to other handles. -/
theorem Charged.transfer (charged : Charged handle s) {pool : PoolState ReuseTable} {lock : RwLock (Fin n)}
    (tracked : Tracked pool) (content : (pool.machine.cell handle).content = (s.info handle).content)
    (registered : handle ∈ s.pool.handles → handle ∈ pool.handles)
    (parked : handle ∈ s.table → handle ∈ pool.machine.glob.table) : Charged handle { s with pool, lock } :=
  charged.keep charged.running tracked (Handle.same_of_content content).2.1 registered parked (fun _ => rfl) charged.safe

/-- The deletion that finds the handle alive takes charge of it. -/
theorem Charged.kill (charged : Charged handle s) (alive : (s.info handle).alive = true) :
    Charged handle (s.exec (store handle fun info => { info with alive := false }) fun _ s =>
      s.move i (.deleting .test)) := by
  rw [exec_apply (store_apply charged.live)]
  have nobody : ∀ j, (s.pointOf j).inCharge ≠ true := by
    intro j charge
    exact absurd (charged.killed j charge) (by simp [alive])
  have only : ∀ j, (Function.update s.callers i ⟨(s.callers i).holds, .deleting .test⟩ j).point.inCharge = true →
      j = i := by
    intro j charge
    by_contra other
    exact nobody j (by simpa [pointOf, other] using charge)
  refine ⟨charged.running, charged.tracked.modify handle fun _ => ⟨rfl, rfl⟩,
    fun j k hereJ hereK => (only j hereJ).trans (only k hereK).symm, fun _ _ => ?_, fun _ => charged.before (.inl alive),
    fun _ charges => ?_, safe_update charged.safe nofun⟩
  · rw [move, info, Machine.modify_cell_self]
  · have here := charges i
    simp [move, pointOf, CallPoint.inCharge] at here

theorem Charged.reclaim (charged : Charged handle s) (here : s.pointOf i = .deleting .reclaim)
    (reclaims : s.Reclaims handle) :
    Charged handle (s.exec (Enet.reclaim s.fuel handle) fun lock s =>
      { s with pool := ⟨s.pool.machine, s.pool.handles.erase handle⟩ }.move i
        (.deleting (if lock = 0 then .finish else .discard))) := by
  have charge : (s.pointOf i).inCharge = true := by rw [here]; rfl
  obtain ⟨machine, goes, tracked, table, content⟩ :=
    charged.tracked.reclaim (charged.before (.inr ⟨i, charge⟩)) (enough_fuel charged.tracked) reclaims.1 reclaims.2
  rw [exec_apply goes, if_pos rfl]
  have nobody : ∀ j, (Function.update s.callers i ⟨(s.callers i).holds, .deleting .finish⟩ j).point.inCharge ≠ true := by
    intro j chargeJ
    by_cases other : j = i
    · simp [other, CallPoint.inCharge] at chargeJ
    · refine other (charged.single j i ?_ charge)
      simpa [pointOf, other] using chargeJ
  have dead : (machine.cell handle).alive = false :=
    (Handle.same_of_content (content handle)).2.1.trans (charged.killed i charge)
  have parked : handle ∈ machine.glob.table := by
    rw [table]
    exact List.mem_cons_self
  refine ⟨charged.running, tracked, fun j _ chargeJ => absurd chargeJ (nobody j),
    fun j chargeJ => absurd chargeJ (nobody j), ?_, fun _ _ => parked, safe_update charged.safe nofun⟩
  rintro (living | ⟨j, chargeJ⟩)
  · exact absurd (dead.symm.trans living) Bool.false_ne_true
  · exact absurd chargeJ (nobody j)

/-- A handle that comes out of the reuse table is as new. -/
theorem Charged.renew (charged : Charged handle s) (parked : handle ∈ s.table) {pool : PoolState ReuseTable}
    {lock : RwLock (Fin n)} (tracked : Tracked pool) (registered : handle ∈ pool.handles)
    (alive : (pool.machine.cell handle).alive = true) : Charged handle { s with pool, lock } := by
  have notRegistered : handle ∉ s.pool.handles := fun member =>
    (List.nodup_append'.mp charged.tracked.distinct).2.2 member parked
  have nobody : ∀ j, (s.pointOf j).inCharge ≠ true := fun j charge => notRegistered (charged.before (.inr ⟨j, charge⟩))
  exact ⟨charged.running, tracked, charged.single, fun j charge => absurd charge (nobody j), fun _ => registered,
    fun dead => absurd (dead.symm.trans alive) Bool.false_ne_true, charged.safe⟩

/-- A handle is created, perhaps out of the reuse table. -/
theorem Charged.register (charged : Charged handle s) : Charged handle (s.register malloc handle) := by
  obtain ⟨out, machine, goes, outcome⟩ := charged.tracked.newHandle malloc (enough_fuel charged.tracked)
  rw [HandleState.register, exec_apply goes]
  rcases outcome with ⟨rfl, _, unchanged⟩ | ⟨_, created, _⟩ | ⟨table, top, recycled⟩
  · rw [if_pos rfl]
    refine charged.transfer (charged.tracked.unchanged unchanged) ?_ id fun parked => unchanged.table ▸ parked
    rw [unchanged.cell_of_live charged.live]
    rfl
  · have different : handle ≠ out := fun same => created.fresh (same ▸ charged.live)
    rw [if_neg created.notNull]
    refine charged.transfer (charged.tracked.created created) (created.content handle different) ?_ ?_
    · exact fun member => List.mem_append_left _ member
    · exact fun parked => created.table ▸ parked
  · have tracked := charged.tracked.recycled top recycled
    have parkedOut : out ∈ s.table := by
      rw [HandleState.table, top]
      exact List.mem_cons_self
    rw [if_neg (charged.tracked.parked out parkedOut).1]
    by_cases here : handle = out
    · subst here
      exact charged.renew parkedOut tracked (by simp) recycled.unused.1
    · refine charged.transfer tracked (recycled.content handle here) ?_ ?_
      · exact fun member => List.mem_append_left _ member
      · intro parked
        rw [HandleState.table, top] at parked
        rw [recycled.table]
        exact (List.mem_cons.mp parked).resolve_left here

/-- Another handle is deleted. -/
theorem Charged.unregister {other : Addr} (charged : Charged handle s) (different : other ≠ handle)
    (registered : other ∈ s.pool.handles) (reclaims : s.Reclaims other) :
    Charged handle (s.exec (deleteOther s.fuel other) fun _ s =>
      { s with pool := ⟨s.pool.machine, s.pool.handles.erase other⟩ }) := by
  have live := charged.tracked.pooled.chain.live other registered
  have dead : Tracked ⟨s.pool.machine.modify other fun info => { info with alive := false }, s.pool.handles⟩ :=
    charged.tracked.modify other fun _ => ⟨rfl, rfl⟩
  obtain ⟨machine, goes, tracked, table, content⟩ :=
    dead.reclaim registered (enough_fuel charged.tracked) reclaims.1 reclaims.2
  have deletes : deleteOther s.fuel other s.pool.machine = some ((), machine) := by
    simp only [deleteOther, bind_apply, store_apply live, andThen_some, goes, if_true, pure_apply]
  rw [exec_apply deletes]
  refine charged.transfer tracked ?_ ?_ ?_
  · rw [content, Machine.modify_cell_of_ne different.symm]
    rfl
  · exact fun member => (List.mem_erase_of_ne different.symm).mpr member
  · intro parked
    rw [table]
    exact List.mem_cons_of_mem other parked

private theorem reach_live (charged : Charged handle s) (step : Option (HandleState n)) : s.reach handle step = step :=
  if_pos charged.live

/-- Two handles, the second of which is used. -/
def twoHandles : HandleState 2 where
  pool :=
    { machine :=
        { live := {2, 4}
          others := {1, 3, 5}
          cell := fun a => if a = 2 then ⟨6, 3, true, 0, 4, 0⟩ else ⟨7, 5, true, 0, 0, 2⟩
          glob := ⟨2, true, []⟩
          callocs := 5 }
      handles := [2, 4] }
  lock := RwLock.init
  dbLock := none
  crashed := false
  callers := fun _ => ⟨0, .idle⟩

private theorem twoHandles_fresh : Fresh 4 twoHandles where
  tracked :=
    { pooled := by simp [Pooled, Doubly, twoHandles]
      distinct := by decide
      parked := nofun }
  registered := by decide
  alive := rfl
  refcnt := rfl
  lock := rfl
  unlocked := rfl
  running := rfl
  idle := fun _ => rfl

end HandleState

end GbfLibrary.Enet
