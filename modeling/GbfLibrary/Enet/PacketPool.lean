import GbfLibrary.Errno
import GbfLibrary.Memory.Block
import GbfLibrary.Systems.Run
import Mathlib.Data.List.Perm.Basic
import Mathlib.Data.List.Nodup
import Mathlib.Logic.Function.Basic

/-!
# The pool of packet units

`enet_init_packet_pool`, `enet_alloc_packet_unit` and `enet_free_packet_unit`. A unit is its
address; every access to the arrays of the pool outside their bounds is a fault, and so is an
assertion that fails in a `_DEBUG` build.
-/

set_option autoImplicit false

namespace GbfLibrary.Enet

open Memory Systems

def ENET_DEFAULT_PACKET_POOL_SIZE : Nat := 100

/-- `sizeof(PACKET_UNIT)`. -/
def PACKET_UNIT_SIZE : Nat := 65540

/-- The globals of `enet_packet.c`. -/
structure PacketPool where
  ready : Bool
  freeList : Nat → Nat
  packetState : Nat → Nat
  freeListIterator : Int

/-- Before the first call of `enet_init_packet_pool`. -/
def PacketPool.load : PacketPool := ⟨false, fun _ => 0, fun _ => 0, ENET_DEFAULT_PACKET_POOL_SIZE - 1⟩

/-- The loop of `enet_init_packet_pool`, for the first `count` entries. -/
def fillFreeList : Nat → (Nat → Nat) → Nat → Nat
  | 0, list => list
  | i + 1, list => Function.update (fillFreeList i list) i i

/-- `enet_init_packet_pool`; `rwlock` is what `lbs_rwlock_init` returns. -/
def initPacketPool (rwlock : Status) (pool : PacketPool) : Status × PacketPool :=
  if pool.ready = true then (.ok, pool)
  else
    let filled := { pool with
      freeList := fillFreeList ENET_DEFAULT_PACKET_POOL_SIZE pool.freeList
      freeListIterator := ENET_DEFAULT_PACKET_POOL_SIZE - 1 }
    if rwlock ≠ .ok then (.noMemory, filled)
    else (.ok, { filled with ready := true })

/-- The entry of an array of the pool. -/
def entry (array : Nat → Nat) (index : Int) : Option Nat :=
  if 0 ≤ index ∧ index < ENET_DEFAULT_PACKET_POOL_SIZE then some (array index.toNat) else none

def setEntry (array : Nat → Nat) (index : Int) (value : Nat) : Option (Nat → Nat) :=
  if 0 ≤ index ∧ index < ENET_DEFAULT_PACKET_POOL_SIZE then some (Function.update array index.toNat value)
  else none

/-- `&__packet_db[index]`. -/
def unitAt (db index : Nat) : Nat := db + PACKET_UNIT_SIZE * index

/-- `enet_alloc_packet_unit`; null is `0`. -/
def allocPacketUnit (db : Nat) (pool : PacketPool) : Option (Nat × PacketPool) := do
  if pool.freeListIterator = -1 then return (0, pool)
  else
    let index ← entry pool.freeList pool.freeListIterator
    let packetState ← setEntry pool.packetState index 1
    return (unitAt db index, { pool with
      packetState
      freeListIterator := pool.freeListIterator - 1 })

/-- The index that `enet_free_packet_unit` computes. -/
def packetIndex (db unit : Nat) : Nat :=
  unsigned ((unsigned unit : Int) - unsigned db) / PACKET_UNIT_SIZE

/-- `enet_free_packet_unit`. -/
def freePacketUnit (debug : Bool) (db unit : Nat) (pool : PacketPool) : Option PacketPool := do
  if unit = 0 then return pool
  else
    let index := packetIndex db unit
    if debug = true ∧ (ENET_DEFAULT_PACKET_POOL_SIZE ≤ index ∨ index = 0) then none
    else
      let iterator := pool.freeListIterator + 1
      if debug = true ∧ ENET_DEFAULT_PACKET_POOL_SIZE ≤ unsigned iterator then none
      else
        let packetState ← setEntry pool.packetState index 0
        let freeList ← setEntry pool.freeList iterator index
        return { pool with freeList, packetState, freeListIterator := iterator }

/-- The pool and the units that are allocated. -/
structure PoolUsers where
  pool : PacketPool
  outstanding : List Nat

inductive PoolStep where
  | alloc
  | free (unit : Nat)
  deriving DecidableEq

namespace PoolUsers

/-- After `enet_init_packet_pool`. -/
def start : PoolUsers := ⟨(initPacketPool .ok .load).2, []⟩

/-- Each call, under the lock of the pool. -/
def next (debug : Bool) (db : Nat) : PoolStep → PoolUsers → Option PoolUsers
  | .alloc, users => do
      let (unit, pool) ← allocPacketUnit db users.pool
      if unit = 0 then return { users with pool }
      else return ⟨pool, unit :: users.outstanding⟩
  | .free unit, users => do
      let pool ← freePacketUnit debug db unit users.pool
      return ⟨pool, users.outstanding.erase unit⟩

/-- Only units that are allocated are freed. -/
def Allowed : PoolStep → PoolUsers → Prop
  | .alloc, _ => True
  | .free unit, users => unit ∈ users.outstanding

instance : (step : PoolStep) → (users : PoolUsers) → Decidable (Allowed step users)
  | .alloc, _ => .isTrue trivial
  | .free unit, users => inferInstanceAs (Decidable (unit ∈ users.outstanding))

end PoolUsers

/-- The entries of the free list up to the iterator. -/
def PacketPool.stack (pool : PacketPool) : List Nat :=
  (List.range (pool.freeListIterator + 1).toNat).map pool.freeList

section Pool

variable {db index : Nat} {array : Nat → Nat} {debug : Bool} {pool : PacketPool} {used : List Nat}

private theorem fillFreeList_apply {count : Nat} (list : Nat → Nat) (inside : index < count) :
    fillFreeList count list index = index := by
  induction count with
  | zero => exact absurd inside (Nat.not_lt_zero index)
  | succ count ih =>
      rw [fillFreeList]
      by_cases last : index = count
      · rw [last, Function.update_self]
      · rw [Function.update_of_ne last, ih (by omega)]

private theorem unitAt_injective (db : Nat) : Function.Injective (unitAt db) := by
  intro index other same
  simp only [unitAt, PACKET_UNIT_SIZE] at same
  omega

/-- The index that is computed from the address of a unit is the right one, wherever the array
lies. -/
theorem packetIndex_unitAt (db : Nat) (inside : index < ENET_DEFAULT_PACKET_POOL_SIZE) :
    packetIndex db (unitAt db index) = index := by
  simp only [ENET_DEFAULT_PACKET_POOL_SIZE] at inside
  have offset : unsigned ((unsigned (unitAt db index) : Int) - unsigned db) = PACKET_UNIT_SIZE * index := by
    rw [unsigned_sub_unsigned, unitAt, Int.natCast_add, Int.add_comm, Int.add_sub_cancel]
    simp only [unsigned, PACKET_UNIT_SIZE]
    omega
  rw [packetIndex, offset]
  exact Nat.mul_div_cancel_left index (by decide)

private theorem entry_natCast (inside : index < ENET_DEFAULT_PACKET_POOL_SIZE) :
    entry array index = some (array index) := by
  rw [entry, if_pos ⟨Int.natCast_nonneg _, Int.ofNat_lt.mpr inside⟩, Int.toNat_natCast]

private theorem setEntry_natCast (value : Nat) (inside : index < ENET_DEFAULT_PACKET_POOL_SIZE) :
    setEntry array index value = some (Function.update array index value) := by
  rw [setEntry, if_pos ⟨Int.natCast_nonneg _, Int.ofNat_lt.mpr inside⟩, Int.toNat_natCast]

/-- The stack and the indices in use are a permutation of all indices, and the iterator and the
states tell which is which. -/
structure Divided (pool : PacketPool) (used : List Nat) : Prop where
  iterator : -1 ≤ pool.freeListIterator
  all : (pool.stack ++ used).Perm (List.range ENET_DEFAULT_PACKET_POOL_SIZE)
  states : ∀ index < ENET_DEFAULT_PACKET_POOL_SIZE, pool.packetState index = if index ∈ used then 1 else 0

private theorem start_divided : Divided PoolUsers.start.pool [] := by
  refine ⟨by decide, ?_, fun _ _ => rfl⟩
  rw [List.append_nil]
  apply List.Perm.of_eq
  have fill : ∀ index ∈ List.range ENET_DEFAULT_PACKET_POOL_SIZE,
      fillFreeList ENET_DEFAULT_PACKET_POOL_SIZE (fun _ => 0) index = index :=
    fun index member => fillFreeList_apply _ (List.mem_range.mp member)
  exact (List.map_congr_left fill).trans (List.map_id _)

namespace Divided

theorem length (divided : Divided pool used) :
    (pool.freeListIterator + 1).toNat + used.length = ENET_DEFAULT_PACKET_POOL_SIZE := by
  have lengths := divided.all.length_eq
  rwa [List.length_append, PacketPool.stack, List.length_map, List.length_range, List.length_range] at lengths

theorem nodup (divided : Divided pool used) : (pool.stack ++ used).Nodup :=
  divided.all.nodup_iff.mpr List.nodup_range

theorem mem_iff (divided : Divided pool used) :
    index ∈ pool.stack ∨ index ∈ used ↔ index < ENET_DEFAULT_PACKET_POOL_SIZE := by
  rw [← List.mem_append, divided.all.mem_iff, List.mem_range]

private theorem mem_stack_iff (divided : Divided pool used) :
    index ∈ pool.stack ↔ index < ENET_DEFAULT_PACKET_POOL_SIZE ∧ index ∉ used := by
  have apart := (List.nodup_append'.mp divided.nodup).2.2
  rw [← divided.mem_iff]
  constructor
  · exact fun free => ⟨.inl free, apart free⟩
  · rintro ⟨free | taken, notUsed⟩
    · exact free
    · exact absurd taken notUsed

private theorem alloc_null (divided : Divided pool used) (db : Nat) (empty : pool.freeListIterator = -1) :
    allocPacketUnit db pool = some (0, pool) ∧ ∀ index < ENET_DEFAULT_PACKET_POOL_SIZE, index ∈ used := by
  refine ⟨by rw [allocPacketUnit, if_pos empty]; rfl, fun index inside => ?_⟩
  rcases divided.mem_iff.mpr inside with free | taken
  · simp [PacketPool.stack, empty] at free
  · exact taken

private theorem alloc_some (divided : Divided pool used) (db : Nat) (left : pool.freeListIterator ≠ -1) :
    ∃ index pool', allocPacketUnit db pool = some (unitAt db index, pool') ∧
      index < ENET_DEFAULT_PACKET_POOL_SIZE ∧ index ∉ used ∧ Divided pool' (index :: used) := by
  have length := divided.length
  obtain ⟨iterator, all, states⟩ := divided
  obtain ⟨top, count⟩ := Int.eq_ofNat_of_zero_le (show 0 ≤ pool.freeListIterator by omega)
  have stack : pool.stack = (List.range top).map pool.freeList ++ [pool.freeList top] := by
    rw [PacketPool.stack, count, show ((top : Int) + 1).toNat = top + 1 by omega, List.range_succ,
      List.map_append]
    rfl
  rw [stack, List.append_assoc] at all
  have member : pool.freeList top ∈ List.range ENET_DEFAULT_PACKET_POOL_SIZE :=
    all.mem_iff.mp (by simp)
  have inside := List.mem_range.mp member
  have apart := (List.nodup_append'.mp (all.nodup_iff.mpr List.nodup_range)).2.1
  have small : top < ENET_DEFAULT_PACKET_POOL_SIZE := by omega
  refine ⟨pool.freeList top, { pool with
    packetState := Function.update pool.packetState (pool.freeList top) 1
    freeListIterator := top - 1 }, ?_, inside, (List.nodup_cons.mp apart).1, ?_, ?_, ?_⟩
  · rw [allocPacketUnit, if_neg left, count, entry_natCast small]
    simp only [Option.bind_eq_bind, Option.bind_some, setEntry_natCast 1 inside]
    rfl
  · simp only
    omega
  · simpa [PacketPool.stack] using all
  · intro other here
    by_cases same : other = pool.freeList top
    · simp [same]
    · simp [same, states other here]

theorem free (divided : Divided pool used) {db : Nat} (placed : 0 < db) (taken : index ∈ used)
    (checked : debug = true → index ≠ 0) :
    ∃ pool', freePacketUnit debug db (unitAt db index) pool = some pool' ∧
      Divided pool' (used.erase index) := by
  have length := divided.length
  have inside : index < ENET_DEFAULT_PACKET_POOL_SIZE := divided.mem_iff.mp (.inr taken)
  have distinct := divided.nodup
  obtain ⟨iterator, all, states⟩ := divided
  have positive := List.length_pos_of_mem taken
  obtain ⟨top, count⟩ := Int.eq_ofNat_of_zero_le (show 0 ≤ pool.freeListIterator + 1 by omega)
  have small : top < ENET_DEFAULT_PACKET_POOL_SIZE := by omega
  have first : ¬ (debug = true ∧ (ENET_DEFAULT_PACKET_POOL_SIZE ≤ index ∨ index = 0)) := by
    rintro ⟨on, outside | zero⟩
    · omega
    · exact checked on zero
  have second : ¬ (debug = true ∧ ENET_DEFAULT_PACKET_POOL_SIZE ≤ unsigned (top : Int)) := by
    rintro ⟨-, outside⟩
    simp only [unsigned, ENET_DEFAULT_PACKET_POOL_SIZE] at outside small
    omega
  refine ⟨{ pool with
    freeList := Function.update pool.freeList top index
    packetState := Function.update pool.packetState index 0
    freeListIterator := top }, ?_, ?_, ?_, ?_⟩
  · have notNull : unitAt db index ≠ 0 := by
      rw [unitAt]
      omega
    rw [freePacketUnit, if_neg notNull]
    simp only [packetIndex_unitAt db inside, count]
    rw [if_neg first, if_neg second, setEntry_natCast 0 inside]
    simp only [Option.bind_eq_bind, Option.bind_some, setEntry_natCast index small]
    rfl
  · simp only
    omega
  · have stack : pool.stack = (List.range top).map pool.freeList := by
      rw [PacketPool.stack, count, Int.toNat_natCast]
    have others : (List.range top).map (Function.update pool.freeList top index) =
        (List.range top).map pool.freeList :=
      List.map_congr_left fun i member => Function.update_of_ne (Nat.ne_of_lt (List.mem_range.mp member)) _ _
    rw [PacketPool.stack, show ((top : Int) + 1).toNat = top + 1 by omega, List.range_succ, List.map_append,
      others, List.append_assoc]
    simp only [List.map_singleton, Function.update_self, List.singleton_append]
    rw [stack] at all
    exact ((List.perm_cons_erase taken).symm.append_left _).trans all
  · intro other here
    have usedNodup := (List.nodup_append'.mp distinct).2.1
    by_cases same : other = index
    · simp [same, usedNodup.not_mem_erase]
    · simp [same, states other here, List.mem_erase_of_ne same]

end Divided

end Pool

/-- No unit has two owners, and the pool knows which ones have one. -/
structure Exclusive (db : Nat) (users : PoolUsers) : Prop where
  distinct : users.outstanding.Nodup
  units : ∀ unit ∈ users.outstanding, ∃ index < ENET_DEFAULT_PACKET_POOL_SIZE, unit = unitAt db index
  stackDistinct : users.pool.stack.Nodup
  stackFree : ∀ index, index ∈ users.pool.stack ↔
    index < ENET_DEFAULT_PACKET_POOL_SIZE ∧ unitAt db index ∉ users.outstanding
  states : ∀ index < ENET_DEFAULT_PACKET_POOL_SIZE,
    users.pool.packetState index = 1 ↔ unitAt db index ∈ users.outstanding
  alloc : ∃ unit pool, allocPacketUnit db users.pool = some (unit, pool) ∧ unit ∉ users.outstanding ∧
    (unit = 0 ↔ ∀ index < ENET_DEFAULT_PACKET_POOL_SIZE, unitAt db index ∈ users.outstanding)

namespace PoolUsers

variable {debug : Bool} {db : Nat} {users users' : PoolUsers} {step : PoolStep} {steps : List PoolStep}

/-- The units that are allocated are the ones that the pool misses. -/
def Held (db : Nat) (users : PoolUsers) : Prop :=
  ∃ used, users.outstanding = used.map (unitAt db) ∧ Divided users.pool used

private theorem start_held (db : Nat) : Held db start := ⟨[], rfl, start_divided⟩

private theorem unitAt_ne_zero (placed : 0 < db) (index : Nat) : unitAt db index ≠ 0 := by
  rw [unitAt]
  omega

/-- A step that frees no unit without having it goes on, unless it frees the first unit in a
`_DEBUG` build. -/
theorem next_some (placed : 0 < db) (held : Held db users) (allowed : Allowed step users)
    (checked : debug = true → step ≠ .free (unitAt db 0)) :
    ∃ users', next debug db step users = some users' ∧ Held db users' := by
  obtain ⟨used, outstanding, divided⟩ := held
  cases step with
  | alloc =>
      by_cases empty : users.pool.freeListIterator = -1
      · exact ⟨users, by simp [next, (divided.alloc_null db empty).1], used, outstanding, divided⟩
      · obtain ⟨index, pool, allocates, _, _, after⟩ := divided.alloc_some db empty
        exact ⟨⟨pool, unitAt db index :: users.outstanding⟩,
          by simp [next, allocates, unitAt_ne_zero placed], index :: used, by simp [outstanding], after⟩
  | free unit =>
      rw [Allowed, outstanding] at allowed
      obtain ⟨index, taken, rfl⟩ := List.mem_map.mp allowed
      have notFirst : debug = true → index ≠ 0 := fun on zero => checked on (zero ▸ rfl)
      obtain ⟨pool, frees, after⟩ := divided.free placed taken notFirst
      refine ⟨⟨pool, users.outstanding.erase (unitAt db index)⟩, by simp [next, frees], used.erase index, ?_, after⟩
      rw [outstanding, List.map_erase (unitAt_injective db)]

/-- The first unit cannot be freed in a `_DEBUG` build. -/
theorem next_free_first (placed : 0 < db) : next true db (.free (unitAt db 0)) users = none := by
  have first : packetIndex db (unitAt db 0) = 0 := packetIndex_unitAt db (by decide)
  simp [next, freePacketUnit, unitAt_ne_zero placed, first]

private theorem next_held (placed : 0 < db) (held : Held db users) (allowed : Allowed step users)
    (steps : next debug db step users = some users') : Held db users' := by
  have notFirst : debug = true → step ≠ .free (unitAt db 0) := by
    rintro rfl rfl
    rw [next_free_first placed] at steps
    cases steps
  obtain ⟨after, steps', held'⟩ := next_some placed held allowed notFirst
  cases steps.symm.trans steps'
  exact held'

theorem Held.exclusive (placed : 0 < db) (held : Held db users) : Exclusive db users := by
  obtain ⟨used, outstanding, divided⟩ := held
  obtain ⟨stackNodup, usedNodup, _⟩ := List.nodup_append'.mp divided.nodup
  have mem : ∀ index, unitAt db index ∈ users.outstanding ↔ index ∈ used := by
    intro index
    rw [outstanding, List.mem_map_of_injective (unitAt_injective db)]
  refine ⟨?_, ?_, stackNodup, ?_, ?_, ?_⟩
  · rw [outstanding]
    exact usedNodup.map (unitAt_injective db)
  · intro unit member
    rw [outstanding] at member
    obtain ⟨index, taken, rfl⟩ := List.mem_map.mp member
    exact ⟨index, divided.mem_iff.mp (.inr taken), rfl⟩
  · intro index
    rw [mem, divided.mem_stack_iff]
  · intro index inside
    rw [mem, divided.states index inside]
    split <;> simp [*]
  · have zero : 0 ∉ users.outstanding := by
      rw [outstanding]
      intro member
      obtain ⟨index, _, null⟩ := List.mem_map.mp member
      exact unitAt_ne_zero placed index null
    by_cases empty : users.pool.freeListIterator = -1
    · obtain ⟨allocates, all⟩ := divided.alloc_null db empty
      exact ⟨0, users.pool, allocates, zero, iff_of_true rfl fun index inside => (mem index).mpr (all index inside)⟩
    · obtain ⟨index, pool, allocates, inside, left, _⟩ := divided.alloc_some db empty
      refine ⟨unitAt db index, pool, allocates, fun member => left ((mem index).mp member), ?_⟩
      refine iff_of_false (unitAt_ne_zero placed index) fun all => left ((mem index).mp (all index inside))

/-- A run in which only allocated units are freed does not stop, unless it frees the first unit
in a `_DEBUG` build. -/
theorem run_some (placed : 0 < db) (held : Held db users)
    (allowed : Meets (next debug db) Allowed steps users)
    (checked : debug = true → .free (unitAt db 0) ∉ steps) :
    ∃ users', run (next debug db) steps users = some users' := by
  induction steps generalizing users with
  | nil => exact ⟨users, rfl⟩
  | cons step steps ih =>
      obtain ⟨here, later⟩ := allowed
      obtain ⟨between, steps', held'⟩ := next_some placed held here fun on same =>
        checked on (same ▸ List.mem_cons_self)
      obtain ⟨users', runs⟩ := ih held' (later between steps') fun on member =>
        checked on (List.mem_cons_of_mem _ member)
      exact ⟨users', run_cons.mpr ⟨between, steps', runs⟩⟩

/-- Whatever is allocated and freed, no unit has two owners. -/
theorem run_exclusive (placed : 0 < db) (allowed : Meets (next debug db) Allowed steps start) :
    (debug = false → ∃ users, run (next debug db) steps start = some users) ∧
      ∀ users, run (next debug db) steps start = some users → Exclusive db users := by
  constructor
  · rintro rfl
    exact run_some placed (start_held db) allowed nofun
  · intro users runs
    have held := run_invariant_of_meets (fun step users users' => next_held placed) (start_held db) allowed runs
    exact held.exclusive placed

theorem run_exclusive_one :
    (false = false → ∃ users, run (next false 4096) [.alloc, .free (unitAt 4096 99)] start = some users) ∧
      ∀ users, run (next false 4096) [.alloc, .free (unitAt 4096 99)] start = some users →
        Exclusive 4096 users :=
  run_exclusive (by decide) (by decide)

/-- In a `_DEBUG` build no assertion fails if and only if the first unit is never freed. -/
theorem run_asserts_iff (placed : 0 < db) (allowed : Meets (next true db) Allowed steps start) :
    (∃ users, run (next true db) steps start = some users) ↔ .free (unitAt db 0) ∉ steps := by
  constructor
  · rintro ⟨users, runs⟩ member
    obtain ⟨front, back, rfl⟩ := List.append_of_mem member
    obtain ⟨between, _, runs⟩ := run_append.mp runs
    obtain ⟨_, steps, _⟩ := run_cons.mp runs
    rw [next_free_first placed] at steps
    cases steps
  · exact fun absent => run_some placed (start_held db) allowed fun _ => absent

theorem run_asserts_iff_one :
    (∃ users, run (next true 4096) [.alloc, .free (unitAt 4096 99)] start = some users) ↔
      PoolStep.free (unitAt 4096 0) ∉ [.alloc, .free (unitAt 4096 99)] :=
  run_asserts_iff (by decide) (by decide)

/-- Units are allocated from the last one down to the first, and the first is freed. -/
theorem run_allocs {count : Nat} (few : count ≤ ENET_DEFAULT_PACKET_POOL_SIZE) (placed : 0 < db)
    (filled : ∀ index < ENET_DEFAULT_PACKET_POOL_SIZE, users.pool.freeList index = index)
    (iterator : users.pool.freeListIterator = (count : Int) - 1)
    (first : count = 0 → unitAt db 0 ∈ users.outstanding) :
    Meets (next true db) Allowed (List.replicate count .alloc ++ [.free (unitAt db 0)]) users ∧
      run (next true db) (List.replicate count .alloc ++ [.free (unitAt db 0)]) users = none := by
  induction count generalizing users with
  | zero =>
      have stops : next true db (.free (unitAt db 0)) users = none := next_free_first placed
      exact ⟨⟨first rfl, fun _ _ => trivial⟩, by simp [run, stops]⟩
  | succ count ih =>
      have inside : count < ENET_DEFAULT_PACKET_POOL_SIZE := few
      have top : users.pool.freeListIterator = (count : Int) := by omega
      have allocates : ∃ packetState, allocPacketUnit db users.pool = some (unitAt db count,
          { users.pool with packetState, freeListIterator := count - 1 }) := by
        refine ⟨Function.update users.pool.packetState count 1, ?_⟩
        rw [allocPacketUnit, if_neg (by omega), top, entry_natCast inside, filled count inside]
        simp only [Option.bind_eq_bind, Option.bind_some, setEntry_natCast 1 inside]
        rfl
      obtain ⟨packetState, allocates⟩ := allocates
      have steps : next true db .alloc users = some
          ⟨{ users.pool with packetState, freeListIterator := count - 1 },
            unitAt db count :: users.outstanding⟩ := by
        simp [next, allocates, unitAt_ne_zero placed]
      have rest := @ih ⟨{ users.pool with packetState, freeListIterator := count - 1 },
        unitAt db count :: users.outstanding⟩ (Nat.le_of_lt few) filled rfl fun zero => by simp [zero]
      rw [List.replicate_succ, List.cons_append]
      refine ⟨⟨trivial, fun after same => ?_⟩, ?_⟩
      · cases steps.symm.trans same
        exact rest.1
      · rw [run, steps]
        exact rest.2

/-- All units are allocated, and the assertion on the index fails for the last of them. -/
theorem run_asserts :
    Meets (next true 4096) Allowed (List.replicate 100 .alloc ++ [.free (unitAt 4096 0)]) start ∧
      run (next true 4096) (List.replicate 100 .alloc ++ [.free (unitAt 4096 0)]) start = none :=
  run_allocs (Nat.le_refl 100) (by decide) (fun _ inside => fillFreeList_apply _ inside) rfl nofun

end PoolUsers

end GbfLibrary.Enet
