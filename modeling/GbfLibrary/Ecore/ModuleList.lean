import GbfLibrary.Ecore.Parse
import GbfLibrary.Memory.Chain

/-!
# The list of modules

`config_to_list` turns the text of a list of modules into that list.
-/

set_option autoImplicit false

namespace GbfLibrary.Ecore

open Memory Prog

/-- A node holds an item, each string with the rest of its array cleared. -/
structure ModuleListNode.Stores (node : ModuleListNode) (item : ModuleItem) : Prop where
  name : node.name = item.name ++ List.replicate (ECORE_MODULE_NAME_LEN - item.name.length) 0
  path : node.path = item.path ++ List.replicate (ECORE_MODULE_PATH_LEN - item.path.length) 0
  mode : node.mode = item.mode
  type : node.type = item.type

section Nodes

variable {malloc : Malloc} {s s' : Machine ModuleListNode Unit} {node : Addr} {nodes : List Addr}
  {group : Group} {groups : List Group} {name path : Bytes}

/-- The record of a new node. -/
def ModuleItem.record (item : ModuleItem) : ModuleListNode :=
  ⟨filled item.name ModuleListNode.zero.name, filled item.path ModuleListNode.zero.path, item.mode,
    item.type, 0, 0⟩

theorem filled_replicate {field : Bytes} {size : Nat} (room : field.length < size) :
    filled field (List.replicate size 0) = field ++ List.replicate (size - field.length) 0 := by
  rw [filled, List.drop_replicate, ← List.replicate_succ]
  congr 2
  omega

theorem length_filled {field buffer : Bytes} (plain : Plain field) (room : buffer.length = 260) :
    (filled field buffer).length = 260 := by
  have short := plain.short
  simp only [filled, List.length_append, List.length_cons, List.length_drop]
  omega

private theorem ModuleItem.record_stores (item : ModuleItem) (next prev : Addr) :
    ({ item.record with next, prev } : ModuleListNode).Stores item where
  name := filled_replicate (show item.name.length < 260 from Nat.lt_succ_of_le (Nat.le_succ_of_le item.plainName.short))
  path := filled_replicate (show item.path.length < 260 from Nat.lt_succ_of_le (Nat.le_succ_of_le item.plainPath.short))
  mode := rfl
  type := rfl

private theorem moduleListNodeAlloc_apply (malloc : Malloc) (item : ModuleItem) (name path : Bytes)
    (s : Machine ModuleListNode Unit) :
    (malloc.pick s.heap.1 s.heap.2 = none ∧
      moduleListNodeAlloc malloc (filled item.name name) (filled item.path path) item.mode item.type s =
        some (none, s.miss)) ∨
      ∃ a, malloc.pick s.heap.1 s.heap.2 = some a ∧ a ≠ 0 ∧ a ∉ s.live ∧
        moduleListNodeAlloc malloc (filled item.name name) (filled item.path path) item.mode item.type s =
          some (some a, s.extend a item.record) := by
  have copiesName : ecoreStrcpy ModuleListNode.zero.name ECORE_MODULE_NAME_LEN (filled item.name name) =
      some (filled item.name ModuleListNode.zero.name) :=
    ecoreStrcpy_eq item.plainName.noNul (Nat.lt_of_le_of_lt item.plainName.short (by decide))
      (by simp [ModuleListNode.zero]) _
  have copiesPath : ecoreStrcpy ModuleListNode.zero.path ECORE_MODULE_PATH_LEN (filled item.path path) =
      some (filled item.path ModuleListNode.zero.path) :=
    ecoreStrcpy_eq item.plainPath.noNul (Nat.lt_of_le_of_lt item.plainPath.short (by decide))
      (by simp [ModuleListNode.zero]) _
  cases picked : malloc.pick s.heap.1 s.heap.2 with
  | none =>
      left
      refine ⟨rfl, ?_⟩
      simp [moduleListNodeAlloc, calloc_none _ picked]
  | some a =>
      right
      obtain ⟨allocates, notNull, fresh, _⟩ := calloc_some ModuleListNode.zero picked
      refine ⟨a, rfl, notNull, fresh, ?_⟩
      simp only [moduleListNodeAlloc, bind_apply, allocates, andThen_some, Prog.ite_apply, if_neg notNull,
        copiesName, copiesPath]
      rw [store_apply (by simp), andThen_some, pure_apply, Machine.extend_modify]
      rfl

private theorem zero_notMem_configText (groups : List Group) : 0 ∉ configText groups := by
  intro member
  obtain ⟨group, _, inText⟩ := List.mem_flatMap.mp member
  rcases List.mem_append.mp inText with inFront | inBack
  · exact group.zero_notMem_front inFront
  · exact group.zero_notMem_back inBack

theorem serves_succ {n : Nat} {heap : Finset Addr × Nat} {a : Addr}
    (picked : malloc.pick heap.1 heap.2 = some a) :
    malloc.Serves (n + 1) heap ↔ malloc.Serves n (insert a heap.1, heap.2 + 1) := by
  constructor
  · rintro ⟨address, picks, rest⟩
    cases picked.symm.trans picks
    exact rest
  · exact fun rest => ⟨a, picked, rest⟩

private theorem not_serves_succ {n : Nat} {heap : Finset Addr × Nat} (missed : malloc.pick heap.1 heap.2 = none) :
    ¬ malloc.Serves (n + 1) heap := by
  rintro ⟨address, picked, _⟩
  cases missed.symm.trans picked

/-- What the loop adds behind `node`. -/
structure Added (s s' : Machine ModuleListNode Unit) (node : Addr) (nodes : List Addr)
    (groups : List Group) : Prop where
  linked : Doubly ModuleListNode.next ModuleListNode.prev s' node (s'.cell node).next nodes
  stores : List.Forall₂ (fun a group => (s'.cell a).Stores group.item) nodes groups
  fresh : ∀ a ∈ nodes, a ∉ s.live
  nodup : nodes.Nodup
  live : s.live ⊆ s'.live
  others : ∀ a ∈ s.live, a ≠ node → s'.cell a = s.cell a
  same : s'.cell node = { s.cell node with next := (s'.cell node).next }

theorem Added.nil (final : (s.cell node).next = 0) : Added s s node [] [] where
  linked := final
  stores := .nil
  fresh := by simp
  nodup := .nil
  live := Finset.Subset.refl _
  others _ _ _ := rfl
  same := rfl

/-- A node linked behind `node`, and what is added behind that. -/
theorem Added.cons {a : Addr} {groups : List Group} {nodes : List Addr} (present : node ∈ s.live)
    (notNull : a ≠ 0) (fresh : a ∉ s.live)
    (added : Added (((s.extend a group.item.record).modify node fun record => { record with next := a }).modify a
      fun record => { record with prev := node }) s' a nodes groups) :
    Added s s' node (a :: nodes) (group :: groups) := by
  have different : node ≠ a := fun same => fresh (same ▸ present)
  obtain ⟨linked, stores, freshNodes, nodup, live, others, same⟩ := added
  simp only [Machine.modify_live, Machine.extend_live, Finset.mem_insert, not_or] at freshNodes live others
  rw [Machine.modify_cell_self, Machine.modify_cell_of_ne different.symm, Machine.extend_cell_self] at same
  have here : s'.cell node = { s.cell node with next := a } := by
    rw [others node (.inr present) different, Machine.modify_cell_of_ne different, Machine.modify_cell_self,
      Machine.extend_cell_of_ne different]
  constructor
  case linked =>
    refine ⟨by rw [here], notNull, live (Finset.mem_insert_self ..), ?_, linked⟩
    rw [same]
  case stores =>
    refine .cons ?_ stores
    rw [same]
    exact group.item.record_stores _ _
  case fresh =>
    intro b member
    cases member with
    | head => exact fresh
    | tail _ inNodes => exact (freshNodes b inNodes).2
  case nodup => exact List.nodup_cons.mpr ⟨fun member => (freshNodes a member).1 rfl, nodup⟩
  case live => exact fun b member => live (Finset.mem_insert_of_mem member)
  case others =>
    intro b member elsewhere
    have apart : b ≠ a := fun same => fresh (same ▸ member)
    rw [others b (.inr member) apart, Machine.modify_cell_of_ne apart, Machine.modify_cell_of_ne elsewhere,
      Machine.extend_cell_of_ne apart]
  case same => rw [here]

/-- The loop adds the items that are left, or the process ends. -/
theorem configToListLoop_apply (malloc : Malloc) {fuel : Nat} {skipped : Bytes} (passed : Passed skipped)
    (enough : groups.length < fuel) (isText : IsText (skipped ++ configText groups))
    {item : NextItem} (rest : item.s = skipped ++ configText groups ++ [0])
    (nameRoom : item.name.length = ECORE_MODULE_NAME_LEN)
    (pathRoom : item.path.length = ECORE_MODULE_PATH_LEN) (present : node ∈ s.live)
    (final : (s.cell node).next = 0) :
    ∃ outcome s', configToListLoop malloc fuel item node s = some (outcome, s') ∧
      (malloc.Serves groups.length s.heap → outcome = some () ∧ ∃ nodes, Added s s' node nodes groups) ∧
      (¬ malloc.Serves groups.length s.heap → outcome = none) := by
  obtain ⟨fuel, rfl⟩ := Nat.exists_eq_succ_of_ne_zero (Nat.ne_of_gt (Nat.zero_lt_of_lt enough))
  induction groups generalizing fuel skipped item node s with
  | nil =>
      have parses : parseConfigNextItem item.s item.name item.path = some none := by
        rw [rest, configText, List.flatMap_nil, List.append_nil]
        rw [configText, List.flatMap_nil, List.append_nil] at isText
        exact parseConfigNextItem_none passed isText _ _
      refine ⟨some (), s, ?_, ?_, fun refused => absurd trivial refused⟩
      · simp [configToListLoop, parses]
      · exact fun _ => ⟨rfl, [], Added.nil final⟩
  | cons group groups ih =>
      obtain ⟨parsed, parses, left, isName, isPath, isMode, isType⟩ :
          ∃ parsed, parseConfigNextItem item.s item.name item.path = some (some parsed) ∧
            parsed.s = group.back ++ configText groups ++ [0] ∧
            parsed.name = filled group.item.name item.name ∧
            parsed.path = filled group.item.path item.path ∧ parsed.mode = group.item.mode ∧
            parsed.type = group.item.type := by
        rw [rest]
        exact ⟨_, parseConfigNextItem_eq passed group nameRoom pathRoom isText, rfl, rfl, rfl, rfl, rfl⟩
      have later : IsText (group.back ++ configText groups) := by
        have whole := isText.of_append
        rw [configText, List.flatMap_cons, Group.text, List.append_assoc] at whole
        exact whole.of_append
      simp only [List.length_cons] at enough
      obtain ⟨fuel, rfl⟩ := Nat.exists_eq_succ_of_ne_zero (show fuel ≠ 0 by omega)
      rcases moduleListNodeAlloc_apply malloc group.item item.name item.path s with
        ⟨missed, exits⟩ | ⟨a, picked, notNull, fresh, allocates⟩
      · refine ⟨none, s.miss, ?_, fun serves => absurd serves (not_serves_succ missed), fun _ => rfl⟩
        simp [configToListLoop, parses, isName, isPath, isMode, isType, exits]
      · have different : a ≠ node := fun same => fresh (same ▸ present)
        obtain ⟨t, isLinked⟩ : ∃ t, t = ((s.extend a group.item.record).modify node
            fun record => { record with next := a }).modify a fun record => { record with prev := node } :=
          ⟨_, rfl⟩
        have inLive : a ∈ t.live := by simp [isLinked]
        have last : (t.cell a).next = 0 := by
          rw [isLinked, Machine.modify_cell_self, Machine.modify_cell_of_ne different,
            Machine.extend_cell_self]
          rfl
        have heap : t.heap = (insert a s.heap.1, s.heap.2 + 1) := by simp [isLinked]
        have served : malloc.Serves (groups.length + 1) s.heap ↔ malloc.Serves groups.length t.heap := by
          rw [heap]
          exact serves_succ picked
        obtain ⟨outcome, after, runs, serves, refuses⟩ := ih group.back_passed later left
          (by rw [isName]; exact length_filled group.item.plainName nameRoom)
          (by rw [isPath]; exact length_filled group.item.plainPath pathRoom) inLive last fuel
          (by omega)
        rw [← served] at serves refuses
        refine ⟨outcome, after, ?_, fun all => ?_, refuses⟩
        · rw [configToListLoop, parses]
          simpa [isName, isPath, isMode, isType, allocates, present, ← isLinked] using runs
        · obtain ⟨done, nodes, added⟩ := serves all
          exact ⟨done, a :: nodes, Added.cons present notNull fresh (isLinked ▸ added)⟩

/-- `config_to_list` returns the list of these items, each linked to its neighbours. If there
is no memory for one of them, it ends the process. -/
def Parses (malloc : Malloc) (fuel : Nat) (name path : Bytes) (groups : List Group)
    (s : Machine ModuleListNode Unit) : Prop :=
  ∃ outcome s', configToList malloc fuel name path (configText groups ++ [0]) s = some (outcome, s') ∧
    (malloc.Serves groups.length s.heap → ∃ head nodes, outcome = some (.ok, some head) ∧ nodes.Nodup ∧
      Doubly ModuleListNode.next ModuleListNode.prev s' 0 head nodes ∧
      List.Forall₂ (fun a group => (s'.cell a).Stores group.item) nodes groups) ∧
    (¬ malloc.Serves groups.length s.heap → outcome = none)

/-- A configuration that is written as it should be is read as it is written. Its size is an
`unsigned`, as that of every file which the caller reads. -/
theorem configToList_parses (malloc : Malloc) (groups : List Group) (nonempty : groups ≠ [])
    (short : (configText groups).length < 4294967296) (name path : Bytes)
    (nameRoom : name.length = ECORE_MODULE_NAME_LEN) (pathRoom : path.length = ECORE_MODULE_PATH_LEN)
    (fuel : Nat) (enough : groups.length ≤ fuel) (s : Machine ModuleListNode Unit) :
    Parses malloc fuel name path groups s := by
  cases groups with
  | nil => exact absurd rfl nonempty
  | cons group groups =>
      have isText : IsText ([] ++ (group.text ++ configText groups)) :=
        ⟨zero_notMem_configText (group :: groups), short⟩
      obtain ⟨parsed, parses, left, isName, isPath, isMode, isType⟩ :
          ∃ parsed, parseConfigNextItem (configText (group :: groups) ++ [0]) name path = some (some parsed) ∧
            parsed.s = group.back ++ configText groups ++ [0] ∧
            parsed.name = filled group.item.name name ∧ parsed.path = filled group.item.path path ∧
            parsed.mode = group.item.mode ∧ parsed.type = group.item.type :=
        ⟨_, parseConfigNextItem_eq Passed.nil group nameRoom pathRoom isText, rfl, rfl, rfl, rfl, rfl⟩
      have later : IsText (group.back ++ configText groups) := by
        rw [List.nil_append, Group.text, List.append_assoc] at isText
        exact isText.of_append
      rcases moduleListNodeAlloc_apply malloc group.item name path s with
        ⟨missed, exits⟩ | ⟨head, picked, notNull, fresh, allocates⟩
      · refine ⟨none, s.miss, ?_, fun serves => absurd serves (not_serves_succ missed), fun _ => rfl⟩
        rw [configToList, parses]
        simp [isName, isPath, isMode, isType, exits]
      · have served : malloc.Serves (groups.length + 1) s.heap ↔
            malloc.Serves groups.length (s.extend head group.item.record).heap := by
          rw [Machine.extend_heap]
          exact serves_succ picked
        obtain ⟨outcome, after, runs, serves, refuses⟩ := configToListLoop_apply malloc group.back_passed
          (show groups.length < fuel from enough) later left
          (by rw [isName]; exact length_filled group.item.plainName nameRoom)
          (by rw [isPath]; exact length_filled group.item.plainPath pathRoom)
          (show head ∈ (s.extend head group.item.record).live by simp)
          (by rw [Machine.extend_cell_self]; rfl)
        rw [← served] at serves refuses
        cases outcome with
        | none =>
            have refused : ¬ malloc.Serves (groups.length + 1) s.heap := fun all => by cases (serves all).1
            refine ⟨none, after, ?_, fun all => absurd all refused, fun _ => rfl⟩
            rw [configToList, parses]
            simp [isName, isPath, isMode, isType, allocates, runs]
        | some =>
            have all : malloc.Serves (groups.length + 1) s.heap := by
              by_contra refused
              cases refuses refused
            obtain ⟨_, nodes, added⟩ := serves all
            refine ⟨some (.ok, some head), after, ?_, fun _ => ⟨head, head :: nodes, rfl, ?_, ?_, ?_⟩,
              fun refused => absurd all refused⟩
            · rw [configToList, parses]
              simp [isName, isPath, isMode, isType, allocates, runs]
            · refine List.nodup_cons.mpr ⟨fun member => ?_, added.nodup⟩
              exact added.fresh head member (by simp)
            · refine ⟨rfl, notNull, added.live (by simp), ?_, added.linked⟩
              rw [added.same, Machine.extend_cell_self]
              rfl
            · refine .cons ?_ added.stores
              rw [added.same, Machine.extend_cell_self]
              exact group.item.record_stores _ _

end Nodes

/-- Two items, one with carriage returns and without a path. -/
theorem configToList_parses_two :
    let first : Group := ⟨⟨[97], [46, 47], 1, 2, ⟨by decide, by decide, by decide, by decide, by decide⟩,
      ⟨by decide, by decide, by decide, by decide, by decide⟩⟩, false, false, false, false⟩
    let second : Group := ⟨⟨[98, 97], [], 2, 3, ⟨by decide, by decide, by decide, by decide, by decide⟩,
      ⟨by decide, by decide, by decide, by decide, by decide⟩⟩, true, true, true, true⟩
    Parses Malloc.bump 2 (List.replicate ECORE_MODULE_NAME_LEN 7) (List.replicate ECORE_MODULE_PATH_LEN 7)
      [first, second] ⟨∅, ∅, fun _ => ModuleListNode.zero, (), 0⟩ :=
  configToList_parses Malloc.bump _ (by simp) (by decide) _ _ List.length_replicate List.length_replicate 2
    (by decide) _

end GbfLibrary.Ecore
