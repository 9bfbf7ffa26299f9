import GbfLibrary.Enet.HandlePool

/-!
# The table of parked handles

`g_reuse_table` slot by slot: `enet_new_handle` takes the last parked handle out of it,
`enet_delete_handle` parks one, and `enet_free_reuse_handle` drains it.
-/

set_option autoImplicit false

namespace GbfLibrary.Enet.Slots

open Memory Prog Systems Handles

/-- `g_reuse_table` and `g_reuse_location`. -/
structure SlotTable where
  slots : Int → Addr
  location : Int

/-- The table without its last handle. -/
def SlotTable.pop (table : SlotTable) : SlotTable :=
  ⟨Function.update table.slots table.location 0, table.location - 1⟩

/-- The table with one more handle. -/
def SlotTable.push (table : SlotTable) (handle : Addr) : SlotTable :=
  ⟨Function.update table.slots (table.location + 1) handle, table.location + 1⟩

private theorem SlotTable.pop_last (table : SlotTable) : table.pop.slots table.location = 0 :=
  Function.update_self ..

theorem SlotTable.pop_of_ne (table : SlotTable) {i : Int} (different : i ≠ table.location) :
    table.pop.slots i = table.slots i :=
  Function.update_of_ne different ..

theorem SlotTable.push_last (table : SlotTable) (handle : Addr) :
    (table.push handle).slots (table.location + 1) = handle :=
  Function.update_self ..

theorem SlotTable.push_of_ne (table : SlotTable) (handle : Addr) {i : Int} (different : i ≠ table.location + 1) :
    (table.push handle).slots i = table.slots i :=
  Function.update_of_ne different ..

abbrev SlotMachine := PoolMachine SlotTable

/-- An entry of the table, which has `ENET_HANDLE_MAX_REUSE_TABLE` + 1 of them. -/
def slot (i : Int) : PoolProg SlotTable Addr := do
  let glob ← getGlob
  if 0 ≤ i ∧ i ≤ maxReuseTable then return glob.table.slots i else fault

def setSlot (i : Int) (a : Addr) : PoolProg SlotTable Unit :=
  if 0 ≤ i ∧ i ≤ maxReuseTable then
    setGlob fun glob => { glob with table := { glob.table with slots := Function.update glob.table.slots i a } }
  else fault

def setLocation (location : Int) : PoolProg SlotTable Unit :=
  setGlob fun glob => { glob with table := { glob.table with location } }

/-- `enet_reuse_handle`. -/
def reuseHandle (handle : Addr) : PoolProg SlotTable Addr := do
  let glob ← getGlob
  if (maxReuseTable : Int) ≤ glob.table.location then (do
    let info ← load handle
    free handle
    return info.lock)
  else (do
    setLocation (glob.table.location + 1)
    setSlot (glob.table.location + 1) handle
    return 0)

/-- The middle of `enet_new_handle`: the last parked handle leaves the table. -/
def takeParked : PoolProg SlotTable Addr := do
  let glob ← getGlob
  let out ← slot glob.table.location
  store out fun info => { info with next := 0, obj := 0, prev := 0, refcnt := 0 }
  setSlot glob.table.location 0
  setLocation (glob.table.location - 1)
  return out

/-- `enet_new_handle`. -/
def newHandle (malloc : Malloc) (fuel : Nat) (needLock : Bool) : PoolProg SlotTable Addr := do
  handleManagementInit malloc
  let glob ← getGlob
  if glob.table.location = 0 then callocHandle malloc fuel needLock
  else (do
    let out ← takeParked
    registerHandle fuel out)

/-- `enet_delete_handle`. -/
def deleteHandle : Nat → Addr → PoolProg SlotTable Unit := deleteHandleWith reuseHandle

/-- `enet_free_reuse_handle`. -/
def freeReuseHandle : Nat → PoolProg SlotTable Unit
  | 0 => fault
  | fuel + 1 => do
    let glob ← getGlob
    if 0 ≤ glob.table.location then (do
      let node ← slot glob.table.location
      let _ ← load node
      rwlockDestroy
      free node
      setSlot glob.table.location 0
      setLocation (glob.table.location - 1)
      freeReuseHandle fuel)
    else return ()

/-- A call. -/
inductive TableCall where
  | create (needLock : Bool)
  | delete (handle : Addr)
  | freeReuse

namespace TableCall

/-- What a call does. -/
def next (malloc : Malloc) (fuel : Nat) : TableCall → SlotMachine → Option SlotMachine
  | .create needLock, s => (Slots.newHandle malloc fuel needLock s).map Prod.snd
  | .delete handle, s => (Slots.deleteHandle fuel handle s).map Prod.snd
  | .freeReuse, s => (Slots.freeReuseHandle fuel s).map Prod.snd

/-- A handle that is reclaimed finds room in the table, and the table is never drained. -/
def HasRoom : TableCall → SlotMachine → Prop
  | .create _, _ => True
  | .delete handle, s => handle ≠ 0 → (s.cell handle).alive = true → (s.cell handle).refcnt = 0 →
      s.glob.table.location < maxReuseTable
  | .freeReuse, _ => False

instance : (call : TableCall) → (s : SlotMachine) → Decidable (call.HasRoom s)
  | .create _, _ => .isTrue trivial
  | .delete handle, s => inferInstanceAs (Decidable (handle ≠ 0 → (s.cell handle).alive = true →
      (s.cell handle).refcnt = 0 → s.glob.table.location < maxReuseTable))
  | .freeReuse, _ => .isFalse id

end TableCall

/-- The library before its first call. -/
def start : SlotMachine := ⟨∅, ∅, fun _ => Handle.zero, ⟨0, false, ⟨fun _ => 0, 0⟩⟩, 0⟩

/-- The handle is in the table. -/
def Parked (a : Addr) (s : SlotMachine) : Prop :=
  ∃ i, 0 < i ∧ i ≤ s.glob.table.location ∧ s.glob.table.slots i = a

/-- The slots up to the location, but for slot 0, hold parked handles, and the others nothing. -/
structure TableRight (s : SlotMachine) : Prop where
  low : 0 ≤ s.glob.table.location
  high : s.glob.table.location ≤ maxReuseTable
  parked : ∀ a, Parked a s → a ≠ 0 ∧ a ∈ s.live ∧ (s.cell a).alive = false
  distinct : ∀ i j, 0 < i → i ≤ s.glob.table.location → 0 < j → j ≤ s.glob.table.location →
    s.glob.table.slots i = s.glob.table.slots j → i = j
  empty : ∀ i, i ≤ 0 ∨ s.glob.table.location < i → s.glob.table.slots i = 0

/-- The table is right, and the handle is not in it. -/
structure Clear (handle : Addr) (s : SlotMachine) : Prop where
  right : TableRight s
  apart : ¬ Parked handle s

/-- A program that leaves the table right for as long as the handle is not in it. -/
abbrev KeepsClear (handle : Addr) {α : Type} (prog : PoolProg SlotTable α) : Prop :=
  Relates (fun s s' => Clear handle s → Clear handle s') prog

variable {s s' : SlotMachine} {handle : Addr} {malloc : Malloc} {fuel : Nat}

theorem TableRight.start : TableRight start := by
  constructor
  · exact Int.le_refl 0
  · decide
  · rintro a ⟨i, positive, low, _⟩
    exact absurd positive (Int.not_lt.mpr low)
  · intro i j positive low
    exact absurd positive (Int.not_lt.mpr low)
  · exact fun _ _ => rfl

/-- The table stays right while nothing happens to the handles in it. -/
theorem TableRight.congr (right : TableRight s) (table : s'.glob.table = s.glob.table)
    (kept : ∀ a, Parked a s → a ∈ s.live → (s.cell a).alive = false → a ∈ s'.live ∧ (s'.cell a).alive = false) :
    TableRight s' := by
  constructor
  · rw [table]
    exact right.low
  · rw [table]
    exact right.high
  · intro a parked
    rw [Parked, table] at parked
    obtain ⟨notNull, live, dead⟩ := right.parked a parked
    exact ⟨notNull, kept a parked live dead⟩
  · rw [table]
    exact right.distinct
  · rw [table]
    exact right.empty

namespace Clear

theorem congr (clear : Clear handle s) (table : s'.glob.table = s.glob.table)
    (kept : ∀ a ≠ handle, a ∈ s.live → (s.cell a).alive = false → a ∈ s'.live ∧ (s'.cell a).alive = false) :
    Clear handle s' := by
  refine ⟨clear.right.congr table fun a parked => kept a ?_, ?_⟩
  · rintro rfl
    exact clear.apart parked
  · rw [Parked, table]
    exact clear.apart

theorem relinked (clear : Clear handle s) (relinked : Relinked s s') : Clear handle s' := by
  apply clear.congr relinked.table
  intro a _ live dead
  rw [relinked.live, (Handle.same_of_content (relinked.content a)).2.1]
  exact ⟨live, dead⟩

theorem modify (clear : Clear handle s) (f : Handle → Handle) : Clear handle (s.modify handle f) := by
  apply clear.congr (congrArg PoolGlob.table (Machine.modify_glob ..))
  intro a different live dead
  rw [Machine.modify_live, Machine.modify_cell_of_ne different]
  exact ⟨live, dead⟩

theorem release (clear : Clear handle s) : Clear handle (s.release handle) := by
  have table : (s.release handle).glob.table = s.glob.table := rfl
  apply clear.congr table
  exact fun a different live dead => ⟨Finset.mem_erase.mpr ⟨different, live⟩, dead⟩

end Clear

theorem keepsClear_trans (handle : Addr) (s between s' : SlotMachine) (first : Clear handle s → Clear handle between)
    (rest : Clear handle between → Clear handle s') (clear : Clear handle s) : Clear handle s' :=
  rest (first clear)

theorem keepsClear_registerHandle (fuel : Nat) (handle : Addr) : KeepsClear handle (registerHandle fuel handle) := by
  refine .bind (keepsClear_trans handle) ?_ fun _ => ?_
  · exact (relinks_appendHandle fuel handle).mono fun _ _ relinked clear => clear.relinked relinked
  · refine .bind (keepsClear_trans handle) (.store fun s clear => ?_) fun _ => .pure (fun _ clear => clear) handle
    exact clear.modify _

theorem keepsClear_rwlockInit (malloc : Malloc) (handle : Addr) : KeepsClear handle (rwlockInit malloc handle) := by
  refine .bind (keepsClear_trans handle) (.callocOther fun s s' live cell glob clear => ?_) fun lock => ?_
  · apply clear.congr (congrArg PoolGlob.table glob)
    rw [live, cell]
    exact fun _ _ here dead => ⟨here, dead⟩
  · refine .ite (.pure (fun _ clear => clear) _) (.bind (keepsClear_trans handle) (.store fun s clear => ?_) fun _ => ?_)
    · exact clear.modify _
    · exact .pure (fun _ clear => clear) _

theorem TableRight.extend (right : TableRight s) (fresh : handle ∉ s.live) : Clear handle (s.extend handle Handle.zero) := by
  have table : (s.extend handle Handle.zero).glob.table = s.glob.table := rfl
  constructor
  · apply right.congr table
    intro a _ live dead
    have different : a ≠ handle := fun here => fresh (here ▸ live)
    exact ⟨Finset.mem_insert_of_mem live, by rwa [Machine.extend_cell_of_ne different]⟩
  · rw [Parked, table]
    exact fun parked => fresh (right.parked handle parked).2.1

theorem TableRight.callocHandle (right : TableRight s) {needLock : Bool} {out : Addr}
    (goes : callocHandle malloc fuel needLock s = some (out, s')) : TableRight s' := by
  rw [Handles.callocHandle, bind_eq_some] at goes
  obtain ⟨fresh, between, allocates, goes⟩ := goes
  cases picked : malloc.pick (s.live ∪ s.others) s.callocs with
  | none =>
      rw [calloc_none _ picked] at allocates
      cases allocates
      cases goes
      exact right.congr rfl fun _ _ live dead => ⟨live, dead⟩
  | some a =>
      obtain ⟨allocates', notNull, new, _⟩ := calloc_some Handle.zero picked
      rw [allocates'] at allocates
      obtain ⟨rfl, rfl⟩ := Prod.mk.inj (Option.some.inj allocates)
      have keeps : KeepsClear a (if needLock = false then registerHandle fuel a
          else (do
            let ready ← rwlockInit malloc a
            if ready = true then registerHandle fuel a
            else (do
              free a
              return 0))) := by
        refine .ite (keepsClear_registerHandle fuel a) ?_
        refine .bind (keepsClear_trans a) (keepsClear_rwlockInit malloc a) fun ready => ?_
        refine .ite (keepsClear_registerHandle fuel a) ?_
        refine .bind (keepsClear_trans a) (.free (fun _ clear => clear) fun s clear => ?_) fun _ => ?_
        · exact clear.release
        · exact .pure (fun _ clear => clear) _
      rw [if_neg notNull] at goes
      exact (keeps _ _ _ goes (right.extend new)).right

theorem TableRight.last (right : TableRight s) (notEmpty : s.glob.table.location ≠ 0) :
    Parked (s.glob.table.slots s.glob.table.location) s := by
  have low := right.low
  exact ⟨s.glob.table.location, by omega, Int.le_refl _, rfl⟩

theorem TableRight.pop (right : TableRight s) (notEmpty : s.glob.table.location ≠ 0)
    (table : s'.glob.table = s.glob.table.pop)
    (kept : ∀ a ≠ s.glob.table.slots s.glob.table.location, a ∈ s.live → (s.cell a).alive = false →
      a ∈ s'.live ∧ (s'.cell a).alive = false) : Clear (s.glob.table.slots s.glob.table.location) s' := by
  have low := right.low
  have high := right.high
  have location : s'.glob.table.location = s.glob.table.location - 1 := by rw [table, SlotTable.pop]
  have slots : ∀ i ≠ s.glob.table.location, s'.glob.table.slots i = s.glob.table.slots i := by
    intro i different
    rw [table, SlotTable.pop_of_ne _ different]
  have apart : ¬ Parked (s.glob.table.slots s.glob.table.location) s' := by
    rintro ⟨i, positive, low', same⟩
    rw [slots i (by omega)] at same
    have last := right.distinct i _ positive (by omega) (by omega) (Int.le_refl _) same
    omega
  refine ⟨?_, apart⟩
  constructor
  · omega
  · omega
  · intro a parked
    have different : a ≠ s.glob.table.slots s.glob.table.location := fun here => apart (here ▸ parked)
    obtain ⟨i, positive, low', same⟩ := parked
    rw [slots i (by omega)] at same
    obtain ⟨notNull, live, dead⟩ := right.parked a ⟨i, positive, by omega, same⟩
    exact ⟨notNull, kept a different live dead⟩
  · intro i j positive low' positive' low'' same
    rw [slots i (by omega), slots j (by omega)] at same
    exact right.distinct i j positive (by omega) positive' (by omega) same
  · intro i outside
    by_cases last : i = s.glob.table.location
    · rw [table, last, SlotTable.pop_last]
    · rw [slots i last]
      exact right.empty i (by omega)

theorem Clear.push (clear : Clear handle s) (room : s.glob.table.location < maxReuseTable)
    (table : s'.glob.table = s.glob.table.push handle)
    (live : s'.live = s.live) (cell : s'.cell = s.cell)
    (good : handle ≠ 0 ∧ handle ∈ s.live ∧ (s.cell handle).alive = false) : TableRight s' := by
  have low := clear.right.low
  have location : s'.glob.table.location = s.glob.table.location + 1 := by rw [table, SlotTable.push]
  have last : s'.glob.table.slots (s.glob.table.location + 1) = handle := by
    rw [table, SlotTable.push_last]
  have slots : ∀ i ≠ s.glob.table.location + 1, s'.glob.table.slots i = s.glob.table.slots i := by
    intro i different
    rw [table, SlotTable.push_of_ne _ _ different]
  constructor
  · omega
  · omega
  · rintro a ⟨i, positive, low', same⟩
    rw [live, cell]
    by_cases here : i = s.glob.table.location + 1
    · rw [here, last] at same
      exact same ▸ good
    · rw [slots i here] at same
      exact clear.right.parked a ⟨i, positive, by omega, same⟩
  · intro i j positive low' positive' low'' same
    by_cases here : i = s.glob.table.location + 1 <;> by_cases there : j = s.glob.table.location + 1
    · omega
    · rw [here, last, slots j there] at same
      exact absurd ⟨j, positive', by omega, same.symm⟩ clear.apart
    · rw [there, last, slots i here] at same
      exact absurd ⟨i, positive, by omega, same⟩ clear.apart
    · rw [slots i here, slots j there] at same
      exact clear.right.distinct i j positive (by omega) positive' (by omega) same
  · intro i outside
    rw [slots i (by omega)]
    exact clear.right.empty i (by omega)

theorem TableRight.takeParked (right : TableRight s) (notEmpty : s.glob.table.location ≠ 0) :
    ∃ out s', takeParked s = some (out, s') ∧ Parked out s ∧ Clear out s' := by
  have low := right.low
  have high := right.high
  obtain ⟨_, live, _⟩ := right.parked _ (right.last notEmpty)
  obtain ⟨t, prepared⟩ : ∃ t, t = (s.modify (s.glob.table.slots s.glob.table.location) fun info =>
    { info with next := 0, obj := 0, prev := 0, refcnt := 0 }).withGlob
      { s.glob with table := s.glob.table.pop } := ⟨_, rfl⟩
  refine ⟨s.glob.table.slots s.glob.table.location, t, ?_, right.last notEmpty, ?_⟩
  · simp only [Slots.takeParked, slot, setSlot, setLocation, bind_apply, getGlob_apply, andThen_some, low,
      high, and_self, if_true, pure_apply, store_apply live, setGlob_apply]
    rw [prepared]
    rfl
  · apply right.pop notEmpty
    · rw [prepared]
      rfl
    · intro a different live dead
      rw [prepared, Machine.withGlob_cell, Machine.modify_cell_of_ne different]
      exact ⟨live, dead⟩

theorem TableRight.newHandle (right : TableRight s) {needLock : Bool} {out : Addr}
    (goes : newHandle malloc fuel needLock s = some (out, s')) : TableRight s' := by
  obtain ⟨first, inits, live, cell, _, _, table⟩ := handleManagementInit_apply malloc s
  have right' : TableRight first := by
    apply right.congr table
    rw [live, cell]
    exact fun _ _ here dead => ⟨here, dead⟩
  simp only [Slots.newHandle, bind_apply, inits, andThen_some, getGlob_apply, Prog.ite_apply] at goes
  split at goes
  · exact right'.callocHandle goes
  · next notEmpty =>
    obtain ⟨parked, between, takes, _, clear⟩ := right'.takeParked notEmpty
    rw [takes, andThen_some] at goes
    exact (keepsClear_registerHandle fuel parked _ _ _ goes clear).right

private theorem openLock_eq_some {lock : Addr} (opens : openLock lock s = some ((), s')) : s' = s := by
  simp only [openLock] at opens
  split at opens
  · cases opens
    rfl
  · cases opens

theorem reuseHandle_apply (low : 0 ≤ s.glob.table.location) (room : s.glob.table.location < maxReuseTable) :
    reuseHandle handle s = some (0, s.withGlob { s.glob with table := s.glob.table.push handle }) := by
  have inside : 0 ≤ s.glob.table.location + 1 ∧ s.glob.table.location + 1 ≤ maxReuseTable := by omega
  simp only [reuseHandle, bind_apply, getGlob_apply, andThen_some, if_neg (Int.not_le.mpr room), setLocation, setSlot,
    if_pos inside, setGlob_apply]
  rfl

/-- A handle that was alive leaves the registry, and enters the table if nobody uses it. -/
theorem Clear.reclaimHandle (clear : Clear handle s) (notNull : handle ≠ 0) (dead : (s.cell handle).alive = false)
    (room : (s.cell handle).refcnt = 0 → s.glob.table.location < maxReuseTable) {lock : Addr}
    (goes : reclaimHandle reuseHandle fuel handle s = some (lock, s')) : TableRight s' := by
  rw [Enet.reclaimHandle, bind_eq_some] at goes
  obtain ⟨info, between, loads, goes⟩ := goes
  obtain ⟨live, rfl, rfl⟩ := load_eq_some loads
  split at goes
  · next unused =>
    obtain ⟨_, removed, removes, goes⟩ := bind_eq_some.mp goes
    have relinked := relinks_handleRemoveFromPool fuel handle _ _ _ removes
    have low := clear.right.low
    have cleared := clear.relinked relinked
    rw [reuseHandle_apply (by rwa [relinked.table]) (by rw [relinked.table]; exact room unused)] at goes
    cases goes
    refine cleared.push (by rw [relinked.table]; exact room unused) ?_ rfl rfl ?_
    · rfl
    · rw [relinked.live, (Handle.same_of_content (relinked.content handle)).2.1]
      exact ⟨notNull, live, dead⟩
  · cases goes
    exact clear.right

private theorem not_live_of_full (notNull : handle ≠ 0) (unused : (s.cell handle).refcnt = 0)
    (full : (maxReuseTable : Int) ≤ s.glob.table.location) {lock : Addr}
    (reclaims : reclaimHandle reuseHandle fuel handle s = some (lock, s')) : handle ∉ s'.live := by
  rw [Enet.reclaimHandle, bind_eq_some] at reclaims
  obtain ⟨_, _, loads, removes⟩ := reclaims
  obtain ⟨_, rfl, rfl⟩ := load_eq_some loads
  rw [if_pos unused] at removes
  obtain ⟨_, removed, removes, reuses⟩ := bind_eq_some.mp removes
  have relinked := relinks_handleRemoveFromPool fuel handle _ _ _ removes
  rw [reuseHandle, bind_apply, getGlob_apply, andThen_some, relinked.table, if_pos full] at reuses
  obtain ⟨_, _, loads, frees⟩ := bind_eq_some.mp reuses
  obtain ⟨live, _, rfl⟩ := load_eq_some loads
  rw [bind_apply, free, if_neg notNull, if_pos live] at frees
  cases frees
  exact Finset.notMem_erase handle _

private theorem deleteHandle_eq_some (notNull : handle ≠ 0) (deletes : deleteHandle fuel handle s = some ((), s')) :
    handle ∈ s.live ∧ ((s.cell handle).alive = false → s' = s) ∧ ((s.cell handle).alive = true →
      reclaimHandle reuseHandle fuel handle (s.modify handle fun info => { info with alive := false }) = some (0, s') ∧
      handle ∈ s'.live) := by
  rw [Slots.deleteHandle, deleteHandleWith, if_neg notNull, bind_eq_some] at deletes
  obtain ⟨info, _, loads, rest⟩ := deletes
  obtain ⟨live, rfl, rfl⟩ := load_eq_some loads
  obtain ⟨_, _, locks, unlocks⟩ := bind_eq_some.mp rest
  obtain rfl := openLock_eq_some locks
  rw [bind_apply, load_apply live, andThen_some] at unlocks
  refine ⟨live, fun dead => ?_, fun alive => ?_⟩
  · rw [if_pos dead] at unlocks
    exact openLock_eq_some unlocks
  · rw [if_neg (Bool.not_eq_false _ ▸ alive), bind_apply, store_apply live, andThen_some] at unlocks
    obtain ⟨lock, _, reclaims, ends⟩ := bind_eq_some.mp unlocks
    split at ends
    · obtain ⟨_, _, _, fails⟩ := bind_eq_some.mp ends
      cases fails
    · next free =>
      obtain rfl := not_not.mp free
      obtain ⟨_, _, loads, opens⟩ := bind_eq_some.mp ends
      obtain ⟨here, _, rfl⟩ := load_eq_some loads
      obtain rfl := openLock_eq_some opens
      exact ⟨reclaims, here⟩

theorem TableRight.deleteHandle (right : TableRight s) (room : TableCall.HasRoom (.delete handle) s)
    (deletes : deleteHandle fuel handle s = some ((), s')) : TableRight s' := by
  by_cases null : handle = 0
  · rw [Slots.deleteHandle, deleteHandleWith, if_pos null] at deletes
    cases deletes
    exact right
  · obtain ⟨_, same, reclaims⟩ := deleteHandle_eq_some null deletes
    cases alive : (s.cell handle).alive with
    | false => exact same alive ▸ right
    | true =>
        have clear : Clear handle s := by
          refine ⟨right, fun parked => ?_⟩
          rw [(right.parked handle parked).2.2] at alive
          cases alive
        apply (clear.modify _).reclaimHandle null _ _ (reclaims alive).1
        · rw [Machine.modify_cell_self]
        · rw [Machine.modify_cell_self]
          exact room null alive

/-- A call that finds room keeps the table right. -/
theorem TableRight.next (right : TableRight s) {call : TableCall} (room : call.HasRoom s)
    (goes : call.next malloc fuel s = some s') : TableRight s' := by
  cases call with
  | create needLock =>
      obtain ⟨⟨out, _⟩, creates, rfl⟩ := Option.map_eq_some_iff.mp goes
      exact right.newHandle creates
  | delete handle =>
      obtain ⟨⟨_, _⟩, deletes, rfl⟩ := Option.map_eq_some_iff.mp goes
      exact right.deleteHandle room deletes
  | freeReuse => exact room.elim

/-- `enet_free_reuse_handle` destroys the lock of whatever the last slot holds, also of nothing. -/
theorem TableRight.freeReuseHandle (right : TableRight s) : freeReuseHandle fuel s = none := by
  cases fuel with
  | zero => rfl
  | succ fuel =>
      simp only [Slots.freeReuseHandle, slot, bind_apply, getGlob_apply, andThen_some, right.low, right.high,
        and_self, if_true, pure_apply, load]
      split
      · rfl
      · rfl

/-- A handle for which there is no room is freed, and then its lock is destroyed or opened. -/
theorem TableRight.fails (right : TableRight s) {call : TableCall} (noRoom : ¬ call.HasRoom s) :
    call.next malloc fuel s = none := by
  cases call with
  | create needLock => exact absurd trivial noRoom
  | delete handle =>
      rw [TableCall.HasRoom] at noRoom
      push Not at noRoom
      obtain ⟨notNull, alive, unused, full⟩ := noRoom
      by_contra goes
      obtain ⟨after, goes⟩ := Option.ne_none_iff_exists'.mp goes
      obtain ⟨⟨_, _⟩, deletes, rfl⟩ := Option.map_eq_some_iff.mp goes
      obtain ⟨live, _, reclaims⟩ := deleteHandle_eq_some notNull deletes
      obtain ⟨reclaims, here⟩ := reclaims alive
      have unused' : ((s.modify handle fun info => { info with alive := false }).cell handle).refcnt = 0 := by
        rwa [Machine.modify_cell_self]
      exact not_live_of_full notNull unused' full reclaims here
  | freeReuse =>
      rw [TableCall.next, right.freeReuseHandle]
      rfl

/-- As long as no call drains the table, or deletes a handle for which the table has no room, the table is right after
every call, and its last handle can be taken; a call that does so fails. -/
theorem tableRight_of_hasRoom (malloc : Malloc) (fuel : Nat) (calls : List TableCall) {s : SlotMachine}
    (room : Meets (TableCall.next malloc fuel) TableCall.HasRoom calls start)
    (runs : run (TableCall.next malloc fuel) calls start = some s) :
    TableRight s ∧ (s.glob.table.location ≠ 0 →
      ∃ out s', takeParked s = some (out, s') ∧ Parked out s ∧ ¬ Parked out s' ∧ TableRight s') ∧
      ∀ call : TableCall, ¬ call.HasRoom s → call.next malloc fuel s = none := by
  have right : TableRight s :=
    run_invariant_of_meets (fun _ _ _ right room goes => right.next room goes) .start room runs
  refine ⟨right, fun notEmpty => ?_, fun call noRoom => right.fails noRoom⟩
  obtain ⟨out, s', takes, parked, clear⟩ := right.takeParked notEmpty
  exact ⟨out, s', takes, parked, clear.apart, clear.right⟩

/-- Two handles are created, the second one is deleted, and a third one is created. -/
theorem tableRight_of_hasRoom_third :
    ∃ s, run (TableCall.next Malloc.bump 4) [.create true, .create true, .delete 4, .create true] start = some s ∧
      TableRight s ∧ (s.glob.table.location ≠ 0 →
        ∃ out s', takeParked s = some (out, s') ∧ Parked out s ∧ ¬ Parked out s' ∧ TableRight s') ∧
      ∀ call : TableCall, ¬ call.HasRoom s → call.next Malloc.bump 4 s = none := by
  obtain ⟨s, runs⟩ := Option.isSome_iff_exists.mp
    (show (run (TableCall.next Malloc.bump 4) [.create true, .create true, .delete 4, .create true] start).isSome = true
      by decide +kernel)
  exact ⟨s, runs, tableRight_of_hasRoom Malloc.bump 4 [.create true, .create true, .delete 4, .create true]
    (by decide +kernel) runs⟩

/-- One handle is parked, and the table is drained; or nothing was parked, and slot 0 is dereferenced. -/
theorem freeReuseHandle_of_parked :
    (∃ s, run (TableCall.next Malloc.bump 4) [.create true, .create true, .delete 4] start = some s ∧ Parked 4 s ∧
      ∀ fuel, TableCall.next Malloc.bump fuel .freeReuse s = none) ∧
      start.glob.table.slots start.glob.table.location = 0 ∧
      ∀ fuel, TableCall.next Malloc.bump fuel .freeReuse start = none := by
  have parks : (run (TableCall.next Malloc.bump 4) [.create true, .create true, .delete 4] start).map
      (fun s => (s.glob.table.location, s.glob.table.slots 1)) = some (1, 4) := by
    decide +kernel
  have room : Meets (TableCall.next Malloc.bump 4) TableCall.HasRoom [.create true, .create true, .delete 4] start := by
    decide +kernel
  obtain ⟨s, runs, table⟩ := Option.map_eq_some_iff.mp parks
  obtain ⟨location, slot⟩ := Prod.mk.inj table
  have right : TableRight s :=
    run_invariant_of_meets (fun _ _ _ right room goes => right.next room goes) .start room runs
  refine ⟨⟨s, runs, ⟨1, Int.one_pos, by rw [location], slot⟩, fun fuel => ?_⟩, rfl, fun fuel => ?_⟩
  · exact right.fails (show ¬ TableCall.HasRoom .freeReuse s from id)
  · exact TableRight.start.fails (show ¬ TableCall.HasRoom .freeReuse start from id)

end GbfLibrary.Enet.Slots
