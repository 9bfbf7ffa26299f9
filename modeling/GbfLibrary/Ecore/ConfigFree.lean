import GbfLibrary.Ecore.Config
import GbfLibrary.Memory.Beside

/-!
# The memory of a configuration

`config_list_free` gives back what `config_to_list` allocated, whatever the text was.
-/

set_option autoImplicit false

namespace GbfLibrary.Ecore

open Memory Prog

def configListFree (fuel : Nat) (list : Addr) : ModuleProg Unit := freeChain ModuleListNode.next fuel list

/-- The list at `head` holds what is allocated beside `base`. -/
structure Listed (base : Finset Addr) (s : Machine ModuleListNode Unit) (head : Addr) (nodes : List Addr) : Prop where
  chain : Chain ModuleListNode.next s head nodes
  nodup : nodes.Nodup
  fresh : ∀ a ∈ nodes, a ∉ base
  live : s.live = base ∪ nodes.toFinset

section Lists

variable {malloc : Malloc} {fuel : Nat} {base : Finset Addr} {s s' : Machine ModuleListNode Unit} {head node : Addr}
  {nodes front : List Addr} {name path : Bytes} {mode type : Nat}

/-- What an allocation of a node that returned did. -/
theorem moduleListNodeAlloc_cases {outcome : Option Addr}
    (allocates : moduleListNodeAlloc malloc name path mode type s = some (outcome, s')) :
    (outcome = none ∧ s' = s.miss) ∨ ∃ a record, outcome = some a ∧ a ≠ 0 ∧ a ∉ s.live ∧ a ∉ s.others ∧
      record.next = 0 ∧ s' = s.extend a record := by
  unfold moduleListNodeAlloc at allocates
  obtain ⟨a, s₁, first, allocates⟩ := bind_eq_some.mp allocates
  cases picked : malloc.pick (s.live ∪ s.others) s.callocs with
  | none =>
      rw [calloc_none _ picked] at first
      cases first
      cases allocates
      exact .inl ⟨rfl, rfl⟩
  | some b =>
      obtain ⟨runs, notNull, fresh, apart⟩ := calloc_some ModuleListNode.zero picked
      rw [runs] at first
      cases first
      rw [if_neg notNull] at allocates
      cases copiesName : ecoreStrcpy ModuleListNode.zero.name ECORE_MODULE_NAME_LEN name with
      | none =>
          rw [copiesName] at allocates
          cases allocates
      | some =>
          cases copiesPath : ecoreStrcpy ModuleListNode.zero.path ECORE_MODULE_PATH_LEN path with
          | none =>
              rw [copiesName, copiesPath] at allocates
              cases allocates
          | some =>
              simp only [copiesName, copiesPath] at allocates
              rw [bind_apply, store_apply (by simp), andThen_some, pure_apply, Machine.extend_modify] at allocates
              cases allocates
              exact .inr ⟨_, _, rfl, notNull, fresh, apart, rfl, rfl⟩

/-- A new node is linked behind the last one. -/
theorem Listed.snoc {a : Addr} {record : ModuleListNode} (listed : Listed base s head (front ++ [node])) (notNull : a ≠ 0)
    (outside : a ∉ s.live) (final : record.next = 0) :
    Listed base (((s.extend a record).modify node fun record => { record with next := a }).modify a
      fun record => { record with prev := node }) head (front ++ [node, a]) := by
  obtain ⟨chain, nodup, fresh, live⟩ := listed
  have apart : a ∉ front ++ [node] := fun member => outside (chain.live a member)
  have extended : Chain ModuleListNode.next (s.extend a record) head (front ++ [node]) := (Chain.extend apart).mpr chain
  constructor
  case chain =>
    refine Chain.modify_link (by simp) (extended.snoc nodup apart notNull (by simp) ?_ rfl)
    rw [Machine.extend_cell_self, final]
  case nodup =>
    rw [show front ++ [node, a] = (front ++ [node]) ++ [a] by simp]
    exact List.nodup_append'.mpr ⟨nodup, List.nodup_singleton a, List.disjoint_singleton.mpr apart⟩
  case fresh =>
    rw [live] at outside
    intro b member
    rcases List.mem_append.mp member with inFront | last
    · exact fresh b (List.mem_append_left _ inFront)
    · simp only [List.mem_cons, List.not_mem_nil, or_false] at last
      rcases last with rfl | rfl
      · exact fresh b (by simp)
      · exact fun old => outside (Finset.mem_union_left _ old)
  case live =>
    rw [Machine.modify_live, Machine.modify_live, Machine.extend_live, live]
    ext b
    simp
    tauto

private theorem configToListLoop_listed {item : NextItem} (listed : Listed base s head (front ++ [node]))
    (returns : configToListLoop malloc fuel item node s = some (some (), s')) :
    ∃ nodes, Listed base s' head nodes ∧ s'.others = s.others := by
  induction fuel generalizing s front node item with
  | zero => cases returns
  | succ fuel ih =>
      rw [configToListLoop] at returns
      rcases parses : parseConfigNextItem item.s item.name item.path with _ | _ | parsed
      · rw [parses] at returns
        cases returns
      · rw [parses] at returns
        cases returns
        exact ⟨_, listed, rfl⟩
      · simp only [parses] at returns
        obtain ⟨outcome, s₁, allocates, returns⟩ := bind_eq_some.mp returns
        rcases moduleListNodeAlloc_cases allocates with ⟨rfl, _⟩ | ⟨a, record, rfl, notNull, fresh, _, final, rfl⟩
        · cases returns
        · have present : node ∈ s.live := listed.chain.live node (by simp)
          have linked := listed.snoc notNull fresh final
          simp only [bind_apply, store_apply, Machine.extend_live, Machine.modify_live, Finset.mem_insert, present,
            or_true, true_or, andThen_some] at returns
          rw [show front ++ [node, a] = (front ++ [node]) ++ [a] by simp] at linked
          obtain ⟨nodes, listed', others⟩ := ih linked returns
          exact ⟨nodes, listed', by simpa using others⟩

theorem configToList_listed {conf : Bytes} (returns : configToList malloc fuel name path conf s = some (some (.ok, some head), s')) :
    ∃ nodes, Listed s.live s' head nodes ∧ s'.others = s.others := by
  unfold configToList at returns
  rcases parses : parseConfigNextItem conf name path with _ | _ | parsed
  · rw [parses] at returns
    cases returns
  · rw [parses] at returns
    cases returns
  · simp only [parses] at returns
    obtain ⟨outcome, s₁, allocates, returns⟩ := bind_eq_some.mp returns
    rcases moduleListNodeAlloc_cases allocates with ⟨rfl, _⟩ | ⟨a, record, rfl, notNull, fresh, _, final, rfl⟩
    · cases returns
    · obtain ⟨result, s₂, loops, returns⟩ := bind_eq_some.mp returns
      cases result with
      | none => cases returns
      | some =>
          cases returns
          have single : Listed s.live (s.extend head record) head ([] ++ [head]) := by
            refine ⟨⟨rfl, notNull, by simp, ?_⟩, by simp, by simpa using fresh, ?_⟩
            · rw [Machine.extend_cell_self]
              exact final
            · rw [Machine.extend_live]
              ext b
              simp
          obtain ⟨nodes, listed, others⟩ := configToListLoop_listed single loops
          exact ⟨nodes, listed, by simpa using others⟩

end Lists

/-- A list from any text: `config_list_free` gives back all the memory that reading the text took. -/
theorem configToList_frees (malloc : Malloc) (fuel : Nat) (name path conf : Bytes) (s s' : Machine ModuleListNode Unit)
    (list : Addr) (returns : configToList malloc fuel name path conf s = some (some (.ok, some list), s')) :
    ∃ nodes, Chain ModuleListNode.next s' list nodes ∧ nodes.Nodup ∧ (∀ a ∈ nodes, a ∉ s.live) ∧
      ∀ more, nodes.length < more → ∃ after, configListFree more list s' = some ((), after) ∧
        after.live = s.live ∧ after.others = s.others := by
  obtain ⟨nodes, ⟨chain, nodup, fresh, live⟩, others⟩ := configToList_listed returns
  refine ⟨nodes, chain, nodup, fresh, fun more enough => ?_⟩
  obtain ⟨after, frees, rest, same, _⟩ := chain.freeChain nodup enough
  refine ⟨after, frees, ?_, same.trans others⟩
  have apart : Disjoint s.live nodes.toFinset :=
    Finset.disjoint_left.mpr fun a old member => fresh a (List.mem_toFinset.mp member) old
  rw [rest, live, Finset.union_sdiff_cancel_right apart]

/-- One item, and the memory that it takes. -/
def oneItem : Option (Option (EcoreStatus × Option Addr) × Machine ModuleListNode Unit) :=
  configToList .bump 2 (List.replicate ECORE_MODULE_NAME_LEN 7) (List.replicate ECORE_MODULE_PATH_LEN 7)
    (nameKey ++ [97, 10] ++ pathKey ++ [10] ++ modeKey ++ [50, 10] ++ typeKey ++ [49, 10, 0])
    ⟨∅, ∅, fun _ => ModuleListNode.zero, (), 0⟩

theorem configToList_frees_oneItem : ∃ s' nodes, Chain ModuleListNode.next s' 1 nodes ∧ nodes.Nodup ∧
    (∀ a ∈ nodes, a ∉ (∅ : Finset Addr)) ∧
    ∀ more, nodes.length < more → ∃ after, configListFree more 1 s' = some ((), after) ∧ after.live = ∅ ∧
      after.others = ∅ := by
  have returns : oneItem.map Prod.fst = some (some (.ok, some 1)) := by decide +kernel
  obtain ⟨⟨outcome, s'⟩, runs, rfl⟩ := Option.map_eq_some_iff.mp returns
  exact ⟨s', configToList_frees .bump 2 _ _ _ _ s' 1 runs⟩

end GbfLibrary.Ecore
