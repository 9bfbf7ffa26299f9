import GbfLibrary.Handles.Pool
import GbfLibrary.Systems.Run

/-!
# The registry of the thread pool

`thp_new_handle` and `thp_del_handle` of `thp_handle.c`, called one after the other, with the handles
in memory.
-/

set_option autoImplicit false

namespace GbfLibrary.Thp

open Memory Prog Systems Handles

/-- `thp_new_handle`. -/
def newHandle (malloc : Malloc) (fuel : Nat) (needLock : Bool) : PoolProg Unit Addr := do
  handleManagementInit malloc
  callocHandle malloc fuel needLock

/-- `thp_rwlock_destroy` on the lock of a handle. -/
def rwlockDestroy (handle : Addr) : PoolProg Unit Unit := do
  let info ← load handle
  if info.lock = 0 then return ()
  else (do
    freeOther info.lock
    store handle fun info => { info with lock := 0 })

/-- `thp_del_handle`. -/
def delHandle (fuel : Nat) (handle : Addr) : PoolProg Unit Unit := do
  if handle = 0 then return ()
  else (do
    handleRemoveFromPool fuel handle
    rwlockDestroy handle
    free handle)

/-- A call. -/
inductive RegistryCall where
  | create (needLock : Bool)
  | delete (handle : Addr)

namespace RegistryCall

/-- A handle is deleted once. -/
def Allowed : RegistryCall → PoolState Unit → Prop
  | .create _, _ => True
  | .delete handle, s => handle ∈ s.handles

/-- The pool does not point to the handle that is deleted. -/
def SparesFirst : RegistryCall → PoolState Unit → Prop
  | .create _, _ => True
  | .delete handle, s => s.machine.glob.pool ≠ handle

instance : (call : RegistryCall) → (s : PoolState Unit) → Decidable (SparesFirst call s)
  | .create _, _ => .isTrue trivial
  | .delete handle, s => inferInstanceAs (Decidable (s.machine.glob.pool ≠ handle))

/-- What a call does. -/
def next (malloc : Malloc) (fuel : Nat) : RegistryCall → PoolState Unit → Option (PoolState Unit)
  | .create needLock, s => do
      let (out, machine) ← newHandle malloc fuel needLock s.machine
      return ⟨machine, if out = 0 then s.handles else s.handles ++ [out]⟩
  | .delete handle, s =>
      if handle ∈ s.handles then do
        let (_, machine) ← delHandle fuel handle s.machine
        return ⟨machine, s.handles.erase handle⟩
      else none

end RegistryCall

/-- The library before its first call. -/
def emptyRegistry : PoolState Unit := ⟨⟨∅, ∅, fun _ => Handle.zero, ⟨0, false, ()⟩, 0⟩, []⟩

/-- The handles are registered, and each has a lock of its own. -/
structure Kept (s : PoolState Unit) : Prop where
  pooled : Pooled s.machine s.handles
  distinct : s.handles.Nodup
  locks : Locks s.machine s.handles

namespace Kept

variable {s : PoolState Unit} {handle : Addr} {front back : List Addr} {fuel : Nat} {malloc : Malloc}

theorem start : Kept emptyRegistry := ⟨rfl, List.nodup_nil, nofun, nofun⟩

theorem unchanged (kept : Kept s) {machine : PoolMachine Unit} (unchanged : Unchanged s.machine machine) :
    Kept ⟨machine, s.handles⟩ where
  pooled := unchanged.pooled kept.pooled
  distinct := kept.distinct
  locks := kept.locks.unchanged unchanged kept.pooled.chain.live

/-- Changes of a handle but of its links and its lock. -/
theorem modify (kept : Kept s) (a : Addr) {f : Handle → Handle}
    (same : ∀ info, (f info).next = info.next ∧ (f info).prev = info.prev ∧ (f info).lock = info.lock) :
    Kept ⟨s.machine.modify a f, s.handles⟩ := by
  have cells : ∀ b, ((s.machine.modify a f).cell b).next = (s.machine.cell b).next ∧
      ((s.machine.modify a f).cell b).prev = (s.machine.cell b).prev ∧
        ((s.machine.modify a f).cell b).lock = (s.machine.cell b).lock := by
    intro b
    rw [Machine.modify_cell]
    split
    · exact same (s.machine.cell b)
    · exact ⟨rfl, rfl, rfl⟩
  constructor
  · exact Doubly.congr kept.pooled kept.pooled.chain.live fun b _ => ⟨(cells b).1, (cells b).2.1⟩
  · exact kept.distinct
  · apply kept.locks.congr (List.Subset.refl _)
    · exact fun b _ => (cells b).2.2
    · exact fun _ _ _ allocated => allocated

theorem created (kept : Kept s) {machine : PoolMachine Unit} {out : Addr}
    (created : Created s.machine machine s.handles out) : Kept ⟨machine, s.handles ++ [out]⟩ := by
  have outside : out ∉ s.handles := fun member => created.fresh (kept.pooled.chain.live out member)
  refine ⟨created.pooled, ?_, created.locks outside kept.locks⟩
  exact List.nodup_append'.mpr ⟨kept.distinct, List.nodup_singleton out, List.disjoint_singleton.mpr outside⟩

/-- `thp_new_handle` registers one more handle, if there is memory for it. The first call creates the library's
own lock. -/
theorem newHandle (kept : Kept s) (malloc : Malloc) (needLock : Bool) (enough : s.handles.length < fuel) :
    ∃ out machine, Thp.newHandle malloc fuel needLock s.machine = some (out, machine) ∧
      (out = 0 ∧ ¬ malloc.Succeeds ∧ Unchanged s.machine machine ∨ Created s.machine machine s.handles out) := by
  obtain ⟨first, inits, live, cell, others, pool, table⟩ := handleManagementInit_apply malloc s.machine
  have unchanged : Unchanged s.machine first := ⟨live, others, pool, table, fun a => .inl (congrFun cell a)⟩
  by_cases serves : malloc.Serves (allocations needLock) first.heap
  · obtain ⟨out, machine, goes, created, _⟩ :=
      callocHandle_apply serves (unchanged.pooled kept.pooled) kept.distinct (Nat.le_of_lt enough)
    refine ⟨out, machine, ?_, .inr (created.congr live cell others table)⟩
    simp only [Thp.newHandle, bind_apply, inits, andThen_some, goes]
  · obtain ⟨machine, misses, after⟩ := callocHandle_misses serves fuel
    refine ⟨0, machine, ?_, .inl ⟨rfl, fun succeeds => serves (succeeds.serves _ _), unchanged.trans after⟩⟩
    simp only [Thp.newHandle, bind_apply, inits, andThen_some, misses]

/-- The lock of a handle is freed if it has one. -/
theorem rwlockDestroy_apply {machine : PoolMachine Unit} (live : handle ∈ machine.live)
    (valid : (machine.cell handle).lock ≠ 0 → (machine.cell handle).lock ∈ machine.others) :
    ∃ destroyed, rwlockDestroy handle machine = some ((), destroyed) ∧ destroyed.live = machine.live ∧
      destroyed.glob = machine.glob ∧ (∀ a ≠ handle, destroyed.cell a = machine.cell a) ∧
      (∀ lock ≠ (machine.cell handle).lock, lock ∈ machine.others → lock ∈ destroyed.others) ∧
        (destroyed.cell handle).alive = (machine.cell handle).alive ∧
          (destroyed.cell handle).refcnt = (machine.cell handle).refcnt := by
  by_cases unlocked : (machine.cell handle).lock = 0
  · refine ⟨machine, ?_, rfl, rfl, fun _ _ => rfl, fun _ _ allocated => allocated, rfl, rfl⟩
    simp [rwlockDestroy, live, unlocked]
  · let freed : PoolMachine Unit := { machine with others := machine.others.erase (machine.cell handle).lock }
    have here : handle ∈ freed.live := live
    refine ⟨freed.modify handle fun info => { info with lock := 0 }, ?_, rfl, rfl, ?_, ?_, ?_⟩
    · have frees : freeOther (machine.cell handle).lock machine = some ((), freed) := by
        simp [freeOther, unlocked, valid unlocked, freed]
      simp [rwlockDestroy, live, unlocked, frees, here]
    · exact fun a different => Machine.modify_cell_of_ne different
    · exact fun lock different allocated => Finset.mem_erase.mpr ⟨different, allocated⟩
    · rw [Machine.modify_cell_self]
      exact ⟨rfl, rfl⟩

/-- `thp_del_handle` unregisters and frees a handle, unless it is the first one. -/
theorem delHandle (kept : Kept s) (here : s.handles = front ++ handle :: back)
    (enough : s.handles.length < fuel) :
    ∃ machine, Thp.delHandle fuel handle s.machine = some ((), machine) ∧
      machine.glob.pool = s.machine.glob.pool ∧ machine.live = s.machine.live.erase handle ∧
        (∀ a, (machine.cell a).alive = (s.machine.cell a).alive ∧
          (machine.cell a).refcnt = (s.machine.cell a).refcnt) ∧
          (front ≠ [] → Kept ⟨machine, front ++ back⟩) := by
  have inside : handle ∈ s.handles := by simp [here]
  have notNull := kept.pooled.chain.notNull handle inside
  have live := kept.pooled.chain.live handle inside
  obtain ⟨middle, removes, pooled, glob, relinked⟩ :=
    handleRemoveFromPool_apply (here ▸ kept.pooled) (here ▸ kept.distinct) (here ▸ enough)
  have middleLive : handle ∈ middle.live := relinked.live ▸ live
  have same : ∀ a, (middle.cell a).lock = (s.machine.cell a).lock ∧
      (middle.cell a).alive = (s.machine.cell a).alive ∧ (middle.cell a).refcnt = (s.machine.cell a).refcnt :=
    fun a => Handle.same_of_content (relinked.content a)
  have valid : (middle.cell handle).lock ≠ 0 → (middle.cell handle).lock ∈ middle.others := by
    rw [(same handle).1, relinked.others]
    exact kept.locks.allocated handle inside
  obtain ⟨destroyed, destroys, destroyedLive, destroyedGlob, others, locks, dead⟩ :=
    rwlockDestroy_apply middleLive valid
  have destroyedHere : handle ∈ destroyed.live := destroyedLive ▸ middleLive
  have nodup : (front ++ handle :: back).Nodup := here ▸ kept.distinct
  have notIn : handle ∉ front ++ back := (List.nodup_middle.mp nodup).notMem
  have left : ∀ a ∈ front ++ back, a ≠ handle ∧ a ∈ s.handles := by
    intro a member
    refine ⟨fun same => notIn (same ▸ member), ?_⟩
    rw [here, List.perm_middle.mem_iff]
    exact List.mem_cons_of_mem handle member
  refine ⟨destroyed.release handle, ?_, ?_, ?_, ?_, ?_⟩
  · simp [Thp.delHandle, notNull, removes, destroys, Prog.free, destroyedHere]
  · rw [Machine.release_glob, destroyedGlob, glob]
  · rw [Machine.release_live, destroyedLive, relinked.live]
  · intro a
    rw [Machine.release_cell]
    by_cases this : a = handle
    · rw [this, dead.1, dead.2]
      exact (same handle).2
    · rw [others a this]
      exact (same a).2
  · intro notFirst
    have linked := pooled notFirst
    constructor
    · rw [Pooled, Machine.release_glob, destroyedGlob]
      apply Doubly.congr linked
      · intro a member
        rw [Machine.release_live, destroyedLive]
        exact Finset.mem_erase.mpr ⟨(left a member).1, linked.chain.live a member⟩
      · intro a member
        rw [Machine.release_cell, others a (left a member).1]
        exact ⟨rfl, rfl⟩
    · exact (List.nodup_middle.mp nodup).of_cons
    · apply kept.locks.congr
      · exact fun a member => (left a member).2
      · intro a member
        rw [Machine.release_cell, others a (left a member).1, (same a).1]
      · intro a member notNull allocated
        apply locks
        · rw [(same handle).1]
          intro equal
          exact (left a member).1 (kept.locks.own a (left a member).2 handle inside equal notNull)
        · rwa [relinked.others]

/-- A pool that does not point to freed memory does not point to the handle that was deleted. -/
theorem notFirst_of_pointer (kept : Kept s) (here : s.handles = front ++ handle :: back) {machine : PoolMachine Unit}
    (pool : machine.glob.pool = s.machine.glob.pool) (left : machine.live = s.machine.live.erase handle)
    (pointer : machine.Pointer machine.glob.pool) : front ≠ [] := by
  rintro rfl
  have first : s.machine.glob.pool = handle := by
    have head := kept.pooled.first
    rwa [here] at head
  rw [Machine.Pointer, pool, first, left] at pointer
  rcases pointer with null | there
  · exact kept.pooled.chain.notNull handle (by simp [here]) null
  · exact Finset.notMem_erase handle _ there

theorem registered (kept : Kept s) : Registered s := .of_linked kept.pooled kept.distinct

/-- What a call does, and when the registry is right after it. -/
theorem next (kept : Kept s) (succeeds : malloc.Succeeds) (enough : s.handles.length < fuel)
    {call : RegistryCall} : CallKeeps (RegistryCall.next malloc fuel) RegistryCall.Allowed
      RegistryCall.SparesFirst Kept call s := by
  intro allowed
  cases call with
  | create needLock =>
      obtain ⟨out, machine, goes, outcome⟩ := kept.newHandle malloc needLock enough
      have created := outcome.resolve_left fun missed => missed.2.1 succeeds
      refine ⟨⟨machine, s.handles ++ [out]⟩, ?_, by simp, fun _ => kept.created created,
        fun refuses => absurd trivial refuses⟩
      simp [RegistryCall.next, goes, created.notNull]
  | delete handle =>
      obtain ⟨front, back, here⟩ := List.append_of_mem (show handle ∈ s.handles from allowed)
      have nodup := kept.registered.distinct
      have pooled := kept.pooled
      obtain ⟨machine, goes, pool, _, _, kept'⟩ := kept.delHandle here enough
      rw [here] at nodup pooled
      have notNull := pooled.chain.notNull handle (by simp)
      refine ⟨⟨machine, front ++ back⟩, ?_, ?_, ?_, ?_⟩
      · simp [RegistryCall.next, goes, here, erase_middle nodup]
      · simp only [here, List.length_append, List.length_cons]
        omega
      · intro spares
        exact kept' ((pooled.pool_ne_iff nodup).mp spares)
      · intro first
        have points : s.machine.glob.pool = handle := not_not.mp first
        apply not_registered
        · rw [pool, points]
          exact notNull
        · rw [pool, points]
          exact (List.nodup_middle.mp nodup).notMem

end Kept

theorem RegistryCall.allowed_of_next {malloc : Malloc} {fuel : Nat} {call : RegistryCall}
    {s s' : PoolState Unit} (goes : call.next malloc fuel s = some s') : call.Allowed s := by
  cases call with
  | create needLock => trivial
  | delete handle =>
      rw [RegistryCall.next] at goes
      split at goes
      · assumption
      · cases goes

/-- As long as no call deletes the handle that the pool points to, the registry is right after every call;
a call that deletes it leaves a registry that is not. -/
theorem registered_iff_spares (malloc : Malloc) (succeeds : malloc.Succeeds) (fuel : Nat)
    (calls : List RegistryCall) (enough : calls.length < fuel) {s : PoolState Unit}
    (spares : Meets (RegistryCall.next malloc fuel) RegistryCall.SparesFirst calls emptyRegistry)
    (runs : run (RegistryCall.next malloc fuel) calls emptyRegistry = some s) :
    Registered s ∧ ∀ call : RegistryCall, call.Allowed s →
      ∃ s', call.next malloc fuel s = some s' ∧ (Registered s' ↔ call.SparesFirst s) := by
  have room : emptyRegistry.handles.length + calls.length < fuel := by simpa [emptyRegistry] using enough
  exact registered_of_meets (P := Kept) (fun _ kept => kept.registered) (fun _ _ _ _ _ => RegistryCall.allowed_of_next)
    (fun _ _ kept enough => kept.next succeeds enough) .start room spares runs

/-- Two handles are created and the second one is deleted. -/
theorem registered_iff_spares_second :
    ∃ s, run (RegistryCall.next Malloc.bump 4) [.create true, .create false, .delete 4] emptyRegistry = some s ∧
      Registered s ∧ ∀ call : RegistryCall, call.Allowed s →
        ∃ s', call.next Malloc.bump 4 s = some s' ∧ (Registered s' ↔ call.SparesFirst s) := by
  obtain ⟨s, runs⟩ := Option.isSome_iff_exists.mp
    (show (run (RegistryCall.next Malloc.bump 4) [.create true, .create false, .delete 4]
      emptyRegistry).isSome = true by decide +kernel)
  exact ⟨s, runs, registered_iff_spares Malloc.bump Malloc.bump_succeeds 4 [.create true, .create false, .delete 4]
    (by decide) (by decide +kernel) runs⟩

/-- Two handles are created and the first one is deleted. -/
theorem pool_of_deleted :
    Malloc.bump.Succeeds ∧ ∃ s, run (RegistryCall.next Malloc.bump 4)
      [.create true, .create false, .delete 2] emptyRegistry = some s ∧ ¬ Registered s := by
  refine ⟨Malloc.bump_succeeds, ?_⟩
  have kept : (run (RegistryCall.next Malloc.bump 4) [.create true, .create false, .delete 2] emptyRegistry).map
      (fun s => (s.machine.glob.pool, s.handles)) = some (2, [4]) := by
    decide +kernel
  obtain ⟨s, runs, rest⟩ := Option.map_eq_some_iff.mp kept
  obtain ⟨pool, handles⟩ := Prod.mk.inj rest
  refine ⟨s, runs, not_registered ?_ ?_⟩
  · rw [pool]
    decide
  · rw [pool, handles]
    decide

end GbfLibrary.Thp
