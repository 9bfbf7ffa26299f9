import GbfLibrary.Enet.ReuseTable
import GbfLibrary.Memory.SameHeap

/-!
# The parked handles as a list

The registry with its table slot by slot does what the registry with the list of parked handles does.
-/

set_option autoImplicit false

namespace GbfLibrary.Enet.Slots

open Memory Prog Systems Handles

/-- The parked handles, the last one first. -/
def SlotTable.entries (table : SlotTable) : ReuseTable :=
  (List.range table.location.toNat).map fun i : Nat => table.slots (table.location - i)

/-- The globals of the two registries: the list is what is parked in the slots. -/
structure Shows (glob : PoolGlob SlotTable) (glob' : PoolGlob ReuseTable) : Prop where
  pool : glob'.pool = glob.pool
  init : glob'.init = glob.init
  table : glob'.table = glob.table.entries
  low : 0 ≤ glob.table.location
  high : glob.table.location ≤ maxReuseTable

section Entries

variable {table : SlotTable} {glob : PoolGlob SlotTable} {glob' : PoolGlob ReuseTable}

private theorem SlotTable.length_entries (table : SlotTable) : table.entries.length = table.location.toNat := by
  rw [entries, List.length_map, List.length_range]

private theorem SlotTable.entries_cons (positive : 0 < table.location) :
    table.entries = table.slots table.location :: table.pop.entries := by
  obtain ⟨count, here⟩ : ∃ count : Nat, table.location = count + 1 := ⟨(table.location - 1).toNat, by omega⟩
  have before : table.pop.location = count := by rw [pop, here, Int.add_sub_cancel]
  rw [entries, entries, before, here, Int.toNat_natCast, show ((count : Int) + 1).toNat = count + 1 by omega,
    List.range_succ_eq_map, List.map_cons, List.map_map]
  refine congrArg₂ List.cons (by simp) (List.map_congr_left fun i member => ?_)
  have below := List.mem_range.mp member
  rw [pop_of_ne table (by omega)]
  exact congrArg table.slots (by simp only [Nat.succ_eq_add_one]; omega)

private theorem SlotTable.entries_push (low : 0 ≤ table.location) (handle : Addr) :
    (table.push handle).entries = handle :: table.entries := by
  have positive : 0 < (table.push handle).location := Int.lt_add_one_of_le low
  rw [entries_cons positive]
  refine congrArg₂ List.cons (push_last table handle) ?_
  have same : (table.push handle).pop.location = table.location := Int.add_sub_cancel ..
  rw [entries, entries, same]
  refine List.map_congr_left fun i member => ?_
  have below := List.mem_range.mp member
  have different : table.location - i ≠ table.location + 1 := by omega
  rw [pop_of_ne _ different, push_of_ne table handle different]

theorem Shows.empty_iff (shows : Shows glob glob') : glob.table.location = 0 ↔ glob'.table = [] := by
  have length := congrArg List.length shows.table
  rw [SlotTable.length_entries] at length
  rw [← List.length_eq_zero_iff, length]
  have low := shows.low
  omega

private theorem Shows.full_iff (shows : Shows glob glob') :
    (maxReuseTable : Int) ≤ glob.table.location ↔ maxReuseTable ≤ glob'.table.length := by
  rw [shows.table, SlotTable.length_entries]
  have low := shows.low
  omega

theorem Shows.push (shows : Shows glob glob') (room : glob.table.location < maxReuseTable) (handle : Addr) :
    Shows { glob with table := glob.table.push handle } { glob' with table := handle :: glob'.table } := by
  refine ⟨shows.pool, shows.init, ?_, Int.le_add_one shows.low, room⟩
  rw [SlotTable.entries_push shows.low, ← shows.table]

theorem Shows.pop (shows : Shows glob glob') (positive : 0 < glob.table.location) {rest : ReuseTable}
    (first : glob'.table = glob.table.slots glob.table.location :: rest) :
    Shows { glob with table := glob.table.pop } { glob' with table := rest } := by
  have entries := shows.table.symm.trans first
  rw [SlotTable.entries_cons positive] at entries
  have low := shows.high
  refine ⟨shows.pool, shows.init, (List.cons.inj entries).2.symm, ?_, ?_⟩
  · exact Int.le_sub_one_of_lt positive
  · exact Int.le_trans (Int.sub_le_self _ (by decide)) low

end Entries

/-!
## The functions of the two registries
-/

section Functions

private theorem simulates_findLoop (handle : Addr) (fuel : Nat) (node : Addr) :
    Simulates Shows (findLoop handle fuel node) (findLoop handle fuel node) := by
  induction fuel generalizing node with
  | zero => exact .fault
  | succ fuel ih =>
      refine .cond (.pure _) (.cond (.pure _) ?_)
      exact .bind (.load node) fun info => ih info.next

private theorem simulates_findHandleInPool (fuel : Nat) (handle : Addr) :
    Simulates Shows (findHandleInPool fuel handle) (findHandleInPool fuel handle) := by
  refine .getGlob fun glob glob' shows => ?_
  rw [shows.pool]
  exact simulates_findLoop handle fuel glob.pool

private theorem simulates_appendHandle (fuel : Nat) (handle : Addr) :
    Simulates Shows (appendHandle fuel handle) (appendHandle fuel handle) := by
  refine .getGlob fun glob glob' shows => ?_
  rw [shows.pool]
  refine .cond (.setGlob fun glob glob' shows => ?_) ?_
  · exact ⟨rfl, shows.init, shows.table, shows.low, shows.high⟩
  · exact .bind (.lastNode Handle.next fuel glob.pool) fun last => .bind (.store _ _) fun _ => .store _ _

private theorem simulates_storeUnlessNull (a : Addr) (f : Handle → Handle) :
    Simulates Shows (storeUnlessNull a f) (storeUnlessNull a f) :=
  .cond (.pure _) (.store a f)

private theorem simulates_handleRemoveFromPool (fuel : Nat) (handle : Addr) :
    Simulates Shows (handleRemoveFromPool fuel handle) (handleRemoveFromPool fuel handle) := by
  refine .cond (.pure _) (.bind (simulates_findHandleInPool fuel handle) fun node => .cond (.pure _) ?_)
  refine .bind (.load node) fun info => .bind (simulates_storeUnlessNull _ _) fun _ => ?_
  exact .bind (.load node) fun info => simulates_storeUnlessNull _ _

private theorem simulates_rwlockInit (malloc : Malloc) (handle : Addr) :
    Simulates Shows (rwlockInit malloc handle) (rwlockInit malloc handle) := by
  refine .bind (.callocOther malloc) fun lock => .cond (.pure _) ?_
  exact .bind (.store _ _) fun _ => .pure _

private theorem simulates_handleManagementInit (malloc : Malloc) :
    Simulates Shows (handleManagementInit malloc) (handleManagementInit malloc) := by
  refine .getGlob fun glob glob' shows => ?_
  rw [shows.init]
  refine .cond (.bind (.callocOther malloc) fun lock => .cond (.setGlob fun glob glob' shows => ?_) (.pure _)) (.pure _)
  exact ⟨shows.pool, rfl, shows.table, shows.low, shows.high⟩

private theorem simulates_registerHandle (fuel : Nat) (handle : Addr) :
    Simulates Shows (registerHandle fuel handle) (registerHandle fuel handle) :=
  .bind (simulates_appendHandle fuel handle) fun _ => .bind (.store _ _) fun _ => .pure _

private theorem simulates_callocHandle (malloc : Malloc) (fuel : Nat) (needLock : Bool) :
    Simulates Shows (callocHandle malloc fuel needLock) (callocHandle malloc fuel needLock) := by
  refine .bind (.calloc malloc Handle.zero) fun out => .cond (.pure _) (.cond (simulates_registerHandle fuel out) ?_)
  refine .bind (simulates_rwlockInit malloc out) fun ready => .cond (simulates_registerHandle fuel out) ?_
  exact .bind (.free out) fun _ => .pure _

private theorem simulates_openLock (lock : Addr) : Simulates Shows (openLock lock) (openLock lock) := by
  intro s t same
  rw [openLock, openLock, same.others]
  split
  · exact .some ⟨rfl, same⟩
  · exact .none

private theorem simulates_reuseHandle (handle : Addr) :
    Simulates Shows (Slots.reuseHandle handle) (Enet.reuseHandle handle) := by
  intro s t same
  by_cases full : (maxReuseTable : Int) ≤ s.glob.table.location
  · rw [Slots.reuseHandle, Enet.reuseHandle, bind_apply, bind_apply, getGlob_apply, getGlob_apply, andThen_some,
      andThen_some, if_pos full, if_pos (same.glob.full_iff.mp full)]
    exact Simulates.bind (.load handle) (fun info => .bind (.free handle) fun _ => .pure _) s t same
  · have room := Int.not_le.mp full
    rw [reuseHandle_apply same.glob.low room, Enet.reuseHandle, bind_apply, getGlob_apply, andThen_some,
      if_neg (mt same.glob.full_iff.mpr full)]
    exact .some ⟨rfl, same.withGlob (same.glob.push room handle)⟩

private theorem simulates_deleteHandle (fuel : Nat) (handle : Addr) :
    Simulates Shows (Slots.deleteHandle fuel handle) (Enet.deleteHandle fuel handle) := by
  have reclaims : Simulates Shows (reclaimHandle Slots.reuseHandle fuel handle)
      (reclaimHandle Enet.reuseHandle fuel handle) := by
    refine .bind (.load handle) fun info => .cond ?_ (.pure _)
    exact .bind (simulates_handleRemoveFromPool fuel handle) fun _ => simulates_reuseHandle handle
  refine .cond (.pure _) (.bind (.load handle) fun info => .bind (simulates_openLock _) fun _ => ?_)
  refine .bind (.load handle) fun info => .cond (simulates_openLock _) (.bind (.store _ _) fun _ => ?_)
  refine .bind reclaims fun lock => .cond (.bind (simulates_openLock lock) fun _ => .fault) ?_
  exact .bind (.load handle) fun info => simulates_openLock _

/-- What `enet_new_handle` clears of a parked handle. -/
def cleared (info : Handle) : Handle := { info with next := 0, obj := 0, prev := 0, refcnt := 0 }

private theorem takeParked_apply {s : SlotMachine} (low : 0 ≤ s.glob.table.location)
    (high : s.glob.table.location ≤ maxReuseTable) :
    takeParked s = if s.glob.table.slots s.glob.table.location ∈ s.live then
      some (s.glob.table.slots s.glob.table.location,
        (s.modify (s.glob.table.slots s.glob.table.location) cleared).withGlob
          { s.glob with table := s.glob.table.pop })
      else none := by
  have inside : 0 ≤ s.glob.table.location ∧ s.glob.table.location ≤ maxReuseTable := ⟨low, high⟩
  rw [takeParked, bind_apply, getGlob_apply, andThen_some, bind_apply, slot, bind_apply, getGlob_apply, andThen_some,
    if_pos inside, pure_apply, andThen_some, bind_apply, store]
  split
  · simp only [andThen_some, bind_apply, setSlot, if_pos inside, setLocation, setGlob_apply, pure_apply]
    rfl
  · rfl

private theorem simulates_newHandle (malloc : Malloc) (fuel : Nat) (needLock : Bool) :
    Simulates Shows (Slots.newHandle malloc fuel needLock) (Enet.newHandle malloc fuel needLock) := by
  refine .bind (simulates_handleManagementInit malloc) fun _ s t same => ?_
  rw [bind_apply, bind_apply, getGlob_apply, getGlob_apply, andThen_some, andThen_some]
  have shows := same.glob
  by_cases empty : s.glob.table.location = 0
  · rw [if_pos empty, shows.empty_iff.mp empty]
    exact simulates_callocHandle malloc fuel needLock s t same
  · have low := shows.low
    have positive : 0 < s.glob.table.location := by omega
    have first := shows.table.trans (SlotTable.entries_cons positive)
    rw [if_neg empty, first, bind_apply, takeParked_apply low shows.high]
    dsimp only
    rw [bind_apply, store, same.live]
    split
    · rw [andThen_some, andThen_some, bind_apply, setGlob_apply, andThen_some]
      apply simulates_registerHandle
      exact (same.modify _ cleared).withGlob (shows.pop positive first)
    · exact .none

end Functions

/-- The call on the slots. -/
def onSlots : RegistryCall → TableCall
  | .create => .create true
  | .delete handle => .delete handle

section Runs

variable {malloc : Malloc} {fuel : Nat}

private theorem start_same : SameHeap Shows Slots.start emptyRegistry.machine :=
  ⟨rfl, rfl, rfl, rfl, rfl, rfl, rfl, Int.le_refl 0, by decide⟩

private theorem next_onSlots {call : RegistryCall} {s s' : PoolState ReuseTable} {t : SlotMachine}
    (alike : SameHeap Shows t s.machine) (goes : call.next malloc fuel s = some s') :
    ∃ t', (onSlots call).next malloc fuel t = some t' ∧ SameHeap Shows t' s'.machine := by
  cases call with
  | create =>
      obtain ⟨⟨out, machine⟩, creates, same⟩ := Option.bind_eq_some_iff.mp goes
      cases same
      obtain ⟨t', runs, after⟩ := (simulates_newHandle malloc fuel true).returns alike creates
      exact ⟨t', congrArg (Option.map Prod.snd) runs, after⟩
  | delete handle =>
      obtain ⟨_, goes⟩ := Option.ite_none_right_eq_some.mp goes
      obtain ⟨⟨_, machine⟩, deletes, same⟩ := Option.bind_eq_some_iff.mp goes
      cases same
      obtain ⟨t', runs, after⟩ := (simulates_deleteHandle fuel handle).returns alike deletes
      exact ⟨t', congrArg (Option.map Prod.snd) runs, after⟩

/-- Every run of the registry with the list is one of the registry with the slots, over the same handles. -/
theorem run_onSlots {calls : List RegistryCall} {s : PoolState ReuseTable}
    (runs : run (RegistryCall.next malloc fuel) calls emptyRegistry = some s) :
    ∃ t, run (TableCall.next malloc fuel) (calls.map onSlots) Slots.start = some t ∧ SameHeap Shows t s.machine := by
  have steps : ∀ (call : RegistryCall) (s s' : PoolState ReuseTable) (t : SlotMachine), SameHeap Shows t s.machine →
      call.next malloc fuel s = some s' →
      Matches (TableCall.next malloc fuel) (fun s t => SameHeap Shows t s.machine) (some (onSlots call)) s' t :=
    fun _ _ _ _ alike goes => next_onSlots alike goes
  obtain ⟨t, follows, alike⟩ := run_simulation steps start_same runs
  exact ⟨t, by rwa [List.filterMap_eq_map'] at follows, alike⟩

end Runs

end GbfLibrary.Enet.Slots
