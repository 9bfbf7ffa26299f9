import GbfLibrary.Handles.Pool

/-!
# The registry of the network library

`enet_new_handle` and `enet_delete_handle` of `enet_handle.c`, called one after the other, with the
handles in memory and the reuse table.
-/

set_option autoImplicit false

namespace GbfLibrary.Enet

open Memory Prog Systems Handles

/-- `ENET_HANDLE_MAX_REUSE_TABLE`. -/
def maxReuseTable : Nat := 128

/-- `g_reuse_table` up to `g_reuse_location`, the last entry first. -/
abbrev ReuseTable := List Addr

/-- `enet_reuse_handle`. -/
def reuseHandle (handle : Addr) : PoolProg ReuseTable Addr := do
  let glob ← getGlob
  if maxReuseTable ≤ glob.table.length then (do
    let info ← load handle
    free handle
    return info.lock)
  else (do
    setGlob fun glob => { glob with table := handle :: glob.table }
    return 0)

/-- `enet_new_handle`. -/
def newHandle (malloc : Malloc) (fuel : Nat) (needLock : Bool) : PoolProg ReuseTable Addr := do
  handleManagementInit malloc
  let glob ← getGlob
  match glob.table with
  | [] => callocHandle malloc fuel needLock
  | out :: table => (do
      store out fun info => { info with next := 0, obj := 0, prev := 0, refcnt := 0 }
      setGlob fun glob => { glob with table }
      registerHandle fuel out)

/-- The middle of `enet_delete_handle`: the lock of a handle that was freed. `reuse` is `enet_reuse_handle`. -/
def reclaimHandle {Table : Type} (reuse : Addr → PoolProg Table Addr) (fuel : Nat) (handle : Addr) :
    PoolProg Table Addr := do
  let info ← load handle
  if info.refcnt = 0 then (do
    handleRemoveFromPool fuel handle
    reuse handle)
  else return 0

/-- `lbs_rwlock_destroy`, which frees the place of the pointer that it is given, and not the lock. The place
is never a block of its own. -/
def rwlockDestroy {Table : Type} : PoolProg Table Unit := fault

/-- `enet_delete_handle` with any reuse table. -/
def deleteHandleWith {Table : Type} (reuse : Addr → PoolProg Table Addr) (fuel : Nat) (handle : Addr) :
    PoolProg Table Unit := do
  if handle = 0 then return ()
  else (do
    let info ← load handle
    openLock info.lock
    let info ← load handle
    if info.alive = false then openLock info.lock
    else (do
      store handle fun info => { info with alive := false }
      let lock ← reclaimHandle reuse fuel handle
      if lock ≠ 0 then (do
        openLock lock
        rwlockDestroy)
      else (do
        let info ← load handle
        openLock info.lock)))

/-- `enet_delete_handle`. -/
def deleteHandle : Nat → Addr → PoolProg ReuseTable Unit := deleteHandleWith reuseHandle

/-- A call. -/
inductive RegistryCall where
  | create
  | delete (handle : Addr)

namespace RegistryCall

/-- A handle is deleted once. -/
def Allowed : RegistryCall → PoolState ReuseTable → Prop
  | .create, _ => True
  | .delete handle, s => handle ∈ s.handles

/-- The pool does not point to the handle that is deleted, and the reuse table has room for it. -/
def Spares : RegistryCall → PoolState ReuseTable → Prop
  | .create, _ => True
  | .delete handle, s => s.machine.glob.pool ≠ handle ∧ s.machine.glob.table.length < maxReuseTable

instance : (call : RegistryCall) → (s : PoolState ReuseTable) → Decidable (Spares call s)
  | .create, _ => .isTrue trivial
  | .delete handle, s =>
      inferInstanceAs (Decidable (s.machine.glob.pool ≠ handle ∧ s.machine.glob.table.length < maxReuseTable))

/-- The reuse table has room for the handle that is deleted. -/
def HasRoom : RegistryCall → PoolState ReuseTable → Prop
  | .create, _ => True
  | .delete _, s => s.machine.glob.table.length < maxReuseTable

theorem Spares.hasRoom {call : RegistryCall} {s : PoolState ReuseTable} (spares : Spares call s) : HasRoom call s := by
  cases call with
  | create => trivial
  | delete handle => exact spares.2

/-- What a call does. -/
def next (malloc : Malloc) (fuel : Nat) : RegistryCall → PoolState ReuseTable → Option (PoolState ReuseTable)
  | .create, s => do
      let (out, machine) ← newHandle malloc fuel true s.machine
      return ⟨machine, if out = 0 then s.handles else s.handles ++ [out]⟩
  | .delete handle, s =>
      if handle ∈ s.handles then do
        let (_, machine) ← deleteHandle fuel handle s.machine
        return ⟨machine, s.handles.erase handle⟩
      else none

end RegistryCall

/-- The library before its first call. -/
def emptyRegistry : PoolState ReuseTable := ⟨⟨∅, ∅, fun _ => Handle.zero, ⟨0, false, []⟩, 0⟩, []⟩

/-- The handles are registered, and those in the reuse table are not. -/
structure Tracked (s : PoolState ReuseTable) : Prop where
  pooled : Pooled s.machine s.handles
  distinct : (s.handles ++ s.machine.glob.table).Nodup
  parked : ∀ a ∈ s.machine.glob.table, a ≠ 0 ∧ a ∈ s.machine.live

/-- What becomes of the last handle of the reuse table: it is registered again. -/
structure Recycled (s s' : PoolMachine ReuseTable) (nodes : List Addr) (out : Addr) (table : ReuseTable) : Prop where
  pooled : Pooled s' (nodes ++ [out])
  live : s'.live = s.live
  others : s.others ⊆ s'.others
  table : s'.glob.table = table
  unused : (s'.cell out).alive = true ∧ (s'.cell out).refcnt = 0
  lock : (s'.cell out).lock = (s.cell out).lock
  content : ∀ a ≠ out, (s'.cell a).content = (s.cell a).content

theorem Recycled.congr {s t s' : PoolMachine ReuseTable} {nodes : List Addr} {out : Addr} {table : ReuseTable}
    (recycled : Recycled t s' nodes out table) (live : t.live = s.live) (cell : t.cell = s.cell)
    (others : s.others ⊆ t.others) : Recycled s s' nodes out table where
  pooled := recycled.pooled
  live := recycled.live.trans live
  others := others.trans recycled.others
  table := recycled.table
  unused := recycled.unused
  lock := cell ▸ recycled.lock
  content := cell ▸ recycled.content

namespace Tracked

variable {s : PoolState ReuseTable} {handle : Addr} {front back : List Addr} {fuel : Nat} {malloc : Malloc}

theorem nodup (tracked : Tracked s) : s.handles.Nodup := (List.nodup_append'.mp tracked.distinct).1

/-- Changes of a handle but of its links. -/
theorem modify (tracked : Tracked s) (a : Addr) {f : Handle → Handle}
    (same : ∀ info, (f info).next = info.next ∧ (f info).prev = info.prev) :
    Tracked ⟨s.machine.modify a f, s.handles⟩ where
  pooled := by
    apply Doubly.congr tracked.pooled
    · exact tracked.pooled.chain.live
    · intro b _
      rw [Machine.modify_cell]
      split
      · exact same (s.machine.cell b)
      · exact ⟨rfl, rfl⟩
  distinct := tracked.distinct
  parked := tracked.parked

theorem unchanged (tracked : Tracked s) {machine : PoolMachine ReuseTable} (unchanged : Unchanged s.machine machine) :
    Tracked ⟨machine, s.handles⟩ where
  pooled := unchanged.pooled tracked.pooled
  distinct := unchanged.table ▸ tracked.distinct
  parked := by
    rw [unchanged.table, unchanged.live]
    exact tracked.parked

theorem created (tracked : Tracked s) {machine : PoolMachine ReuseTable} {out : Addr}
    (created : Created s.machine machine s.handles out) : Tracked ⟨machine, s.handles ++ [out]⟩ where
  pooled := created.pooled
  distinct := by
    have outside : out ∉ s.handles ++ s.machine.glob.table := by
      rw [List.mem_append, not_or]
      exact ⟨fun member => created.fresh (tracked.pooled.chain.live out member),
        fun member => created.fresh (tracked.parked out member).2⟩
    rw [created.table, List.append_assoc, List.singleton_append]
    exact List.nodup_middle.mpr (List.nodup_cons.mpr ⟨outside, tracked.distinct⟩)
  parked := by
    rw [created.table, created.live]
    exact fun a member => ⟨(tracked.parked a member).1, Finset.mem_insert_of_mem (tracked.parked a member).2⟩

theorem recycled (tracked : Tracked s) {machine : PoolMachine ReuseTable} {out : Addr} {table : ReuseTable}
    (top : s.machine.glob.table = out :: table) (recycled : Recycled s.machine machine s.handles out table) :
    Tracked ⟨machine, s.handles ++ [out]⟩ where
  pooled := recycled.pooled
  distinct := by
    rw [recycled.table, List.append_assoc, List.singleton_append, ← top]
    exact tracked.distinct
  parked := by
    rw [recycled.table, recycled.live]
    exact fun a member => tracked.parked a (top ▸ List.mem_cons_of_mem out member)

/-- A handle of the reuse table is registered again. -/
theorem recycle (tracked : Tracked s) (enough : s.handles.length < fuel) {out : Addr} {table : ReuseTable}
    (top : s.machine.glob.table = out :: table) :
    ∃ machine, registerHandle fuel out ((s.machine.modify out fun info =>
        { info with next := 0, obj := 0, prev := 0, refcnt := 0 }).withGlob { s.machine.glob with table }) =
        some (out, machine) ∧ Recycled s.machine machine s.handles out table := by
  have distinct := tracked.distinct
  have parked := tracked.parked
  rw [top] at distinct parked
  obtain ⟨nodup, _, apart⟩ := List.nodup_append'.mp distinct
  have outside : out ∉ s.handles := fun member => apart member List.mem_cons_self
  obtain ⟨notNull, live⟩ := parked out List.mem_cons_self
  obtain ⟨t, prepared⟩ : ∃ t, t = (s.machine.modify out fun info =>
    { info with next := 0, obj := 0, prev := 0, refcnt := 0 }).withGlob { s.machine.glob with table } := ⟨_, rfl⟩
  have tLive : t.live = s.machine.live := by rw [prepared, Machine.withGlob_live, Machine.modify_live]
  have new : t.cell out = { s.machine.cell out with next := 0, obj := 0, prev := 0, refcnt := 0 } := by
    rw [prepared, Machine.withGlob_cell, Machine.modify_cell_self]
  have others : ∀ a ≠ out, t.cell a = s.machine.cell a := by
    intro a different
    rw [prepared, Machine.withGlob_cell, Machine.modify_cell_of_ne different]
  have pooled : Pooled t s.handles := by
    have pool : t.glob.pool = s.machine.glob.pool := by rw [prepared, Machine.withGlob_glob]
    rw [Pooled, pool]
    apply Doubly.congr tracked.pooled
    · rw [tLive]
      exact tracked.pooled.chain.live
    · intro x member
      rw [others x fun same => outside (same ▸ member)]
      exact ⟨rfl, rfl⟩
  obtain ⟨machine, registers, linked, live', others', table', newSame, content⟩ :=
    registerHandle_apply pooled nodup outside notNull (tLive ▸ live) (by simp [new]) (Nat.le_of_lt enough)
  rw [new] at newSame
  rw [← prepared]
  refine ⟨machine, registers, linked, live'.trans tLive, ?_, ?_, (Handle.same_of_content newSame).2,
    (Handle.same_of_content newSame).1, fun a different => (content a different).trans (by rw [others a different])⟩
  · rw [others', prepared]
    exact Finset.Subset.refl _
  · rw [table', prepared, Machine.withGlob_glob]

/-- `enet_new_handle` registers one more handle: one of the reuse table, or one that was never used, if there is
memory for it. -/
theorem newHandle (tracked : Tracked s) (malloc : Malloc) (enough : s.handles.length < fuel) :
    ∃ out machine, Enet.newHandle malloc fuel true s.machine = some (out, machine) ∧
      ((out = 0 ∧ ¬ malloc.Succeeds ∧ Unchanged s.machine machine) ∨
        (s.machine.glob.table = [] ∧ Created s.machine machine s.handles out ∧ (machine.cell out).lock ≠ 0) ∨
          ∃ table, s.machine.glob.table = out :: table ∧ Recycled s.machine machine s.handles out table) := by
  obtain ⟨first, inits, live, cell, others, pool, same⟩ := handleManagementInit_apply malloc s.machine
  have unchanged : Unchanged s.machine first := ⟨live, others, pool, same, fun a => .inl (congrFun cell a)⟩
  have tracked' : Tracked ⟨first, s.handles⟩ := tracked.unchanged unchanged
  cases table : s.machine.glob.table with
  | nil =>
      by_cases serves : malloc.Serves (allocations true) first.heap
      · obtain ⟨out, machine, goes, created, locked⟩ :=
          callocHandle_apply serves tracked'.pooled tracked'.nodup (Nat.le_of_lt enough)
        refine ⟨out, machine, ?_, .inr (.inl ⟨rfl, created.congr live cell others same, locked rfl⟩)⟩
        simp only [Enet.newHandle, bind_apply, inits, andThen_some, getGlob_apply, same, table, goes]
      · obtain ⟨machine, misses, after⟩ := callocHandle_misses serves fuel
        refine ⟨0, machine, ?_, .inl ⟨rfl, fun succeeds => serves (succeeds.serves _ _), unchanged.trans after⟩⟩
        simp only [Enet.newHandle, bind_apply, inits, andThen_some, getGlob_apply, same, table, misses]
  | cons out rest =>
      obtain ⟨machine, goes, recycled⟩ := tracked'.recycle enough (same.trans table)
      have there : out ∈ first.live := (tracked'.parked out (by rw [same, table]; exact List.mem_cons_self)).2
      refine ⟨out, machine, ?_, .inr (.inr ⟨rest, rfl, ?_⟩)⟩
      · rw [← goes]
        simp only [Enet.newHandle, bind_apply, inits, andThen_some, getGlob_apply, same, table, store_apply there,
          setGlob_apply]
        rfl
      · exact recycled.congr live cell others

theorem moved (here : s.handles = front ++ handle :: back) :
    (front ++ back ++ handle :: s.machine.glob.table).Perm (s.handles ++ s.machine.glob.table) := by
  rw [here]
  apply List.perm_middle.trans
  rw [← List.cons_append]
  exact List.perm_middle.symm.append_right _

/-- A handle that was taken out of the registry is put into the reuse table. -/
theorem park (tracked : Tracked s) (here : s.handles = front ++ handle :: back) {middle : PoolMachine ReuseTable}
    (pooled : Pooled middle (front ++ back)) (glob : middle.glob = s.machine.glob)
    (live : middle.live = s.machine.live) :
    Tracked ⟨middle.withGlob { middle.glob with table := handle :: middle.glob.table }, front ++ back⟩ where
  pooled := Doubly.congr pooled pooled.chain.live fun _ _ => ⟨rfl, rfl⟩
  distinct := by
    rw [Machine.withGlob_glob, glob]
    exact (moved here).nodup_iff.mpr tracked.distinct
  parked := by
    intro a member
    rw [Machine.withGlob_glob, glob] at member
    have inside : handle ∈ s.handles := by simp [here]
    rcases List.mem_cons.mp member with rfl | member
    · exact ⟨tracked.pooled.chain.notNull a inside, live ▸ tracked.pooled.chain.live a inside⟩
    · exact ⟨(tracked.parked a member).1, live ▸ (tracked.parked a member).2⟩

end Tracked

/-- The handles are registered, alive and unused, and those in the reuse table are kept for later. -/
structure Kept (s : PoolState ReuseTable) : Prop extends Tracked s where
  unused : ∀ a ∈ s.handles, (s.machine.cell a).alive = true ∧ (s.machine.cell a).refcnt = 0
  locked : ∀ a ∈ s.handles ++ s.machine.glob.table, (s.machine.cell a).lock ≠ 0
  locks : Locks s.machine (s.handles ++ s.machine.glob.table)

namespace Kept

variable {s : PoolState ReuseTable} {handle : Addr} {front back : List Addr} {fuel : Nat} {malloc : Malloc}

theorem start : Kept emptyRegistry where
  pooled := rfl
  distinct := List.nodup_nil
  parked := nofun
  unused := nofun
  locked := nofun
  locks := ⟨nofun, nofun⟩

/-- A handle that was never used is registered. -/
theorem created (kept : Kept s) {machine : PoolMachine ReuseTable} {out : Addr} (empty : s.machine.glob.table = [])
    (created : Created s.machine machine s.handles out) (locked : (machine.cell out).lock ≠ 0) :
    Kept ⟨machine, s.handles ++ [out]⟩ := by
  have outside : out ∉ s.handles := fun member => created.fresh (kept.pooled.chain.live out member)
  have same : ∀ a ∈ s.handles, (machine.cell a).lock = (s.machine.cell a).lock ∧
      (machine.cell a).alive = (s.machine.cell a).alive ∧ (machine.cell a).refcnt = (s.machine.cell a).refcnt :=
    fun a member => Handle.same_of_content (created.content a fun here => outside (here ▸ member))
  have all : ∀ a ∈ s.handles, a ∈ s.handles ++ s.machine.glob.table :=
    fun a member => List.mem_append_left _ member
  refine ⟨kept.toTracked.created created, ?_, ?_, ?_⟩
  · intro a member
    rcases List.mem_append.mp member with inside | new
    · rw [(same a inside).2.1, (same a inside).2.2]
      exact kept.unused a inside
    · rw [List.mem_singleton.mp new]
      exact created.unused
  · intro a member
    rw [created.table, empty, List.append_nil] at member
    rcases List.mem_append.mp member with inside | new
    · rw [(same a inside).1]
      exact kept.locked a (all a inside)
    · rw [List.mem_singleton.mp new]
      exact locked
  · rw [created.table, empty, List.append_nil]
    apply created.locks outside
    exact kept.locks.congr all (fun _ _ => rfl) fun _ _ _ allocated => allocated

/-- A handle of the reuse table is registered again. -/
theorem recycled (kept : Kept s) {machine : PoolMachine ReuseTable} {out : Addr} {table : ReuseTable}
    (top : s.machine.glob.table = out :: table) (recycled : Recycled s.machine machine s.handles out table) :
    Kept ⟨machine, s.handles ++ [out]⟩ := by
  have distinct := kept.distinct
  rw [top] at distinct
  have outside : out ∉ s.handles := fun member => (List.nodup_append'.mp distinct).2.2 member List.mem_cons_self
  have lock : ∀ a, (machine.cell a).lock = (s.machine.cell a).lock := by
    intro a
    by_cases here : a = out
    · rw [here]
      exact recycled.lock
    · exact (Handle.same_of_content (recycled.content a here)).1
  have joined : s.handles ++ [out] ++ table = s.handles ++ s.machine.glob.table := by simp [top]
  refine ⟨kept.toTracked.recycled top recycled, ?_, ?_, ?_⟩
  · intro a member
    rcases List.mem_append.mp member with inside | here
    · have different : a ≠ out := fun here => outside (here ▸ inside)
      obtain ⟨_, alive, refcnt⟩ := Handle.same_of_content (recycled.content a different)
      rw [alive, refcnt]
      exact kept.unused a inside
    · rw [List.mem_singleton.mp here]
      exact recycled.unused
  · intro a member
    rw [recycled.table, joined] at member
    rw [lock]
    exact kept.locked a member
  · rw [recycled.table, joined]
    apply kept.locks.congr (List.Subset.refl _)
    · exact fun a _ => lock a
    · exact fun _ _ _ allocated => recycled.others allocated

/-- `enet_new_handle` registers one more handle. -/
theorem newHandle (kept : Kept s) (succeeds : malloc.Succeeds) (enough : s.handles.length < fuel) :
    ∃ out machine, Enet.newHandle malloc fuel true s.machine = some (out, machine) ∧ out ≠ 0 ∧
      Kept ⟨machine, s.handles ++ [out]⟩ := by
  obtain ⟨out, machine, goes, missed | ⟨empty, created, locked⟩ | ⟨table, top, recycled⟩⟩ :=
    kept.toTracked.newHandle malloc enough
  · exact absurd succeeds missed.2.1
  · exact ⟨out, machine, goes, created.notNull, kept.created empty created locked⟩
  · have notNull := (kept.parked out (top ▸ List.mem_cons_self)).1
    exact ⟨out, machine, goes, notNull, kept.recycled top recycled⟩

/-- The handle is dead and out of the registry, unless it was the first one. -/
structure Unlinked (s : PoolState ReuseTable) (machine : PoolMachine ReuseTable) (handle : Addr)
    (front back : List Addr) : Prop where
  pooled : front ≠ [] → Pooled machine (front ++ back)
  glob : machine.glob = s.machine.glob
  live : machine.live = s.machine.live
  others : machine.others = s.machine.others
  lock : ∀ a, (machine.cell a).lock = (s.machine.cell a).lock
  same : ∀ a ≠ handle, (machine.cell a).alive = (s.machine.cell a).alive ∧
    (machine.cell a).refcnt = (s.machine.cell a).refcnt

theorem unlink (kept : Kept s) (here : s.handles = front ++ handle :: back) (enough : s.handles.length < fuel) :
    ∃ machine, handleRemoveFromPool fuel handle (s.machine.modify handle fun info => { info with alive := false }) =
        some ((), machine) ∧ Unlinked s machine handle front back := by
  have nodup : (front ++ handle :: back).Nodup := here ▸ (List.nodup_append'.mp kept.distinct).1
  have pooled : Pooled (s.machine.modify handle fun info => { info with alive := false })
      (front ++ handle :: back) := by
    rw [← here]
    apply Doubly.congr kept.pooled
    · exact kept.pooled.chain.live
    · intro x _
      rw [Machine.modify_cell]
      split <;> exact ⟨rfl, rfl⟩
  obtain ⟨machine, removes, joined, glob, relinked⟩ := handleRemoveFromPool_apply pooled nodup (here ▸ enough)
  refine ⟨machine, removes, joined, glob, relinked.live, relinked.others, ?_, ?_⟩
  · intro a
    rw [(Handle.same_of_content (relinked.content a)).1, Machine.modify_cell]
    split <;> rfl
  · intro a different
    have same := (Handle.same_of_content (relinked.content a)).2
    rwa [Machine.modify_cell_of_ne different] at same

theorem Unlinked.unused {middle : PoolMachine ReuseTable} (unlinked : Unlinked s middle handle front back)
    (kept : Kept s) (here : s.handles = front ++ handle :: back) :
    ∀ a ∈ front ++ back, (middle.cell a).alive = true ∧ (middle.cell a).refcnt = 0 := by
  intro a member
  have distinct := (Tracked.moved here).nodup_iff.mpr kept.distinct
  have different : a ≠ handle := by
    rintro rfl
    exact (List.nodup_append'.mp distinct).2.2 member List.mem_cons_self
  rw [(unlinked.same a different).1, (unlinked.same a different).2]
  apply kept.unused a
  rw [here, List.perm_middle.mem_iff]
  exact List.mem_cons_of_mem handle member

theorem Unlinked.park {middle : PoolMachine ReuseTable} (unlinked : Unlinked s middle handle front back)
    (kept : Kept s) (here : s.handles = front ++ handle :: back) (notFirst : front ≠ []) :
    Kept ⟨middle.withGlob { middle.glob with table := handle :: middle.glob.table }, front ++ back⟩ := by
  have all := fun a member => (Tracked.moved here).mem_iff (a := a).mp member
  refine ⟨kept.toTracked.park here (unlinked.pooled notFirst) unlinked.glob unlinked.live,
    unlinked.unused kept here, ?_, ?_⟩
  · intro a member
    rw [Machine.withGlob_glob, unlinked.glob] at member
    exact (unlinked.lock a).symm ▸ kept.locked a (all a member)
  · rw [Machine.withGlob_glob, unlinked.glob]
    apply kept.locks.congr
    · exact all
    · exact fun a _ => unlinked.lock a
    · exact fun a _ _ allocated => unlinked.others ▸ allocated

/-- `enet_delete_handle` unregisters a handle, unless it is the first one; with a full reuse table it fails. -/
theorem deleteHandle (kept : Kept s) (here : s.handles = front ++ handle :: back)
    (enough : s.handles.length < fuel) :
    (s.machine.glob.table.length < maxReuseTable → ∃ machine, Enet.deleteHandle fuel handle s.machine =
        some ((), machine) ∧ machine.glob.pool = s.machine.glob.pool ∧
        (front ≠ [] → Kept ⟨machine, front ++ back⟩)) ∧
      (maxReuseTable ≤ s.machine.glob.table.length → Enet.deleteHandle fuel handle s.machine = none) := by
  have inside : handle ∈ s.handles := by simp [here]
  have inAll : handle ∈ s.handles ++ s.machine.glob.table := List.mem_append_left _ inside
  have live := kept.pooled.chain.live handle inside
  have notNull := kept.pooled.chain.notNull handle inside
  obtain ⟨alive, unused⟩ := kept.unused handle inside
  have locked := kept.locked handle inAll
  have lockOpen := kept.locks.allocated handle inAll locked
  obtain ⟨middle, removes, unlinked⟩ := kept.unlink here enough
  have middleHere : handle ∈ middle.live := unlinked.live ▸ live
  have middleLocked : (middle.cell handle).lock ≠ 0 := (unlinked.lock handle).symm ▸ locked
  have middleOpen : (middle.cell handle).lock ∈ middle.others := by
    rw [unlinked.lock, unlinked.others]
    exact lockOpen
  have goes : ∀ lock machine, reuseHandle handle middle = some (lock, machine) →
      Enet.deleteHandle fuel handle s.machine =
        (if lock ≠ 0 then (do
          openLock lock
          rwlockDestroy)
        else (do
          let info ← load handle
          openLock info.lock) : PoolProg ReuseTable Unit) machine := by
    intro lock machine reuses
    have dead : handle ∈ (s.machine.modify handle fun info => { info with alive := false }).live := live
    have free : ((s.machine.modify handle fun info => { info with alive := false }).cell handle).refcnt = 0 := by
      rw [Machine.modify_cell_self]
      exact unused
    simp only [Enet.deleteHandle, deleteHandleWith, reclaimHandle, if_neg notNull, bind_apply, load_apply live,
      andThen_some, openLock,
      lockOpen, or_true, if_true, alive, Bool.true_eq_false, if_false, store_apply live, load_apply dead, free,
      removes, reuses]
  have table : middle.glob.table = s.machine.glob.table := congrArg PoolGlob.table unlinked.glob
  constructor
  · intro room
    refine ⟨_, ?_, ?_, unlinked.park kept here⟩
    · rw [goes 0 (middle.withGlob { middle.glob with table := handle :: middle.glob.table })]
      · simp [openLock, middleHere, middleOpen]
      · simp [reuseHandle, table, Nat.not_le.mpr room]
    · rw [← unlinked.glob]
      rfl
  · intro full
    rw [goes (middle.cell handle).lock (middle.release handle)]
    · simp [openLock, middleOpen, middleLocked, rwlockDestroy, fault]
    · simp [reuseHandle, table, full, middleHere, Prog.free, notNull]

theorem registered (kept : Kept s) : Registered s :=
  .of_linked kept.pooled (List.nodup_append'.mp kept.distinct).1

/-- What a call does that is allowed and finds room, and when the registry is right after it. -/
theorem next (kept : Kept s) (succeeds : malloc.Succeeds) (enough : s.handles.length < fuel)
    {call : RegistryCall} : CallKeeps (RegistryCall.next malloc fuel)
      (fun call s => call.Allowed s ∧ call.HasRoom s) RegistryCall.Spares Kept call s := by
  rintro ⟨allowed, room⟩
  cases call with
  | create =>
      obtain ⟨out, machine, goes, notNull, kept'⟩ := kept.newHandle succeeds enough
      refine ⟨⟨machine, s.handles ++ [out]⟩, ?_, by simp, fun _ => kept', fun refuses => absurd trivial refuses⟩
      simp [RegistryCall.next, goes, notNull]
  | delete handle =>
      obtain ⟨front, back, here⟩ := List.append_of_mem (show handle ∈ s.handles from allowed)
      have nodup := kept.registered.distinct
      have pooled := kept.pooled
      obtain ⟨machine, goes, pool, kept'⟩ := (kept.deleteHandle here enough).1 room
      rw [here] at nodup pooled
      have notNull := pooled.chain.notNull handle (by simp)
      refine ⟨⟨machine, front ++ back⟩, ?_, ?_, ?_, ?_⟩
      · simp [RegistryCall.next, goes, here, erase_middle nodup]
      · simp only [here, List.length_append, List.length_cons]
        omega
      · intro spares
        exact kept' ((pooled.pool_ne_iff nodup).mp spares.1)
      · intro unspared
        have points : s.machine.glob.pool = handle := by
          by_contra notFirst
          exact unspared ⟨notFirst, room⟩
        apply not_registered
        · rw [pool, points]
          exact notNull
        · rw [pool, points]
          exact (List.nodup_middle.mp nodup).notMem

/-- A call is made only where it is allowed, and returns only if it finds room. -/
theorem allowed_of_next (kept : Kept s) (enough : s.handles.length < fuel) {call : RegistryCall}
    {s' : PoolState ReuseTable} (goes : call.next malloc fuel s = some s') : call.Allowed s ∧ call.HasRoom s := by
  cases call with
  | create => exact ⟨trivial, trivial⟩
  | delete handle =>
      rw [RegistryCall.next] at goes
      split at goes
      · next member =>
        refine ⟨member, Nat.not_le.mp fun full => ?_⟩
        obtain ⟨front, back, here⟩ := List.append_of_mem member
        rw [(kept.deleteHandle here enough).2 full] at goes
        cases goes
      · cases goes

end Kept

/-- As long as no call deletes the handle that the pool points to, or a handle that the reuse table has no room
for, the registry is right after every call; a call that does so leaves a registry that is not, or fails. -/
theorem registered_iff_sparesFirst (malloc : Malloc) (succeeds : malloc.Succeeds) (fuel : Nat)
    (calls : List RegistryCall) (enough : calls.length < fuel) {s : PoolState ReuseTable}
    (spares : Meets (RegistryCall.next malloc fuel) RegistryCall.Spares calls emptyRegistry)
    (runs : run (RegistryCall.next malloc fuel) calls emptyRegistry = some s) :
    Registered s ∧ ∀ call : RegistryCall, call.Allowed s →
      ((∃ s', call.next malloc fuel s = some s' ∧ Registered s') ↔ call.Spares s) := by
  have room : emptyRegistry.handles.length + calls.length < fuel := by simpa [emptyRegistry] using enough
  have step : ∀ call s, Kept s → s.handles.length < fuel → CallKeeps (RegistryCall.next malloc fuel)
      (fun call s => call.Allowed s ∧ call.HasRoom s) RegistryCall.Spares Kept call s :=
    fun _ _ kept enough => kept.next succeeds enough
  have taken : ∀ call s s', Kept s → s.handles.length < fuel → RegistryCall.next malloc fuel call s = some s' →
      call.Allowed s ∧ call.HasRoom s := fun _ _ _ kept enough => kept.allowed_of_next enough
  obtain ⟨kept, enough⟩ := reached_of_meets taken step .start room spares runs
  have after := (registered_of_meets (fun _ kept => kept.registered) taken step .start room spares runs).2
  refine ⟨kept.registered, fun call allowed => ?_⟩
  constructor
  · rintro ⟨s', goes, registered⟩
    obtain ⟨s'', goes', iff⟩ := after call (kept.allowed_of_next enough goes)
    rw [goes] at goes'
    cases goes'
    exact iff.mp registered
  · intro spared
    obtain ⟨s', goes, iff⟩ := after call ⟨allowed, spared.hasRoom⟩
    exact ⟨s', goes, iff.mpr spared⟩

/-- Two handles are created and the second one is deleted. -/
theorem registered_iff_sparesFirst_second :
    ∃ s, run (RegistryCall.next Malloc.bump 4) [.create, .create, .delete 4] emptyRegistry = some s ∧
      Registered s ∧ ∀ call : RegistryCall, call.Allowed s →
        ((∃ s', call.next Malloc.bump 4 s = some s' ∧ Registered s') ↔ call.Spares s) := by
  obtain ⟨s, runs⟩ := Option.isSome_iff_exists.mp
    (show (run (RegistryCall.next Malloc.bump 4) [.create, .create, .delete 4] emptyRegistry).isSome = true by
      decide +kernel)
  exact ⟨s, runs, registered_iff_sparesFirst Malloc.bump Malloc.bump_succeeds 4 [.create, .create, .delete 4]
    (by decide) (by decide +kernel) runs⟩

/-- Two handles are created and the first one is deleted. -/
theorem registry_of_deleted :
    Malloc.bump.Succeeds ∧ ∃ s, run (RegistryCall.next Malloc.bump 4) [.create, .create, .delete 2] emptyRegistry =
      some s ∧ ¬ Registered s := by
  refine ⟨Malloc.bump_succeeds, ?_⟩
  have kept : (run (RegistryCall.next Malloc.bump 4) [.create, .create, .delete 2] emptyRegistry).map
      (fun s => (s.machine.glob.pool, s.handles)) = some (2, [4]) := by
    decide +kernel
  obtain ⟨s, runs, rest⟩ := Option.map_eq_some_iff.mp kept
  obtain ⟨pool, handles⟩ := Prod.mk.inj rest
  refine ⟨s, runs, not_registered ?_ ?_⟩
  · rw [pool]
    decide
  · rw [pool, handles]
    decide

end GbfLibrary.Enet
