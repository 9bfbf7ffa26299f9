import GbfLibrary.Ecore.Modules
import Mathlib.Data.List.TakeWhile

/-!
# The index of a module

`get_module_index` goes through the tree of the modules and compares their names.
-/

set_option autoImplicit false

namespace GbfLibrary.Ecore

open Memory Rbtree Prog

theorem zero_notMem_cString (buffer : Bytes) : 0 ∉ cString buffer := by
  intro member
  simpa using List.mem_takeWhile_imp member

theorem cString_append {text : Bytes} (plain : 0 ∉ text) (rest : Bytes) : cString (text ++ 0 :: rest) = text := by
  have goes : ∀ c ∈ text, decide (c ≠ 0) = true := fun c member =>
    decide_eq_true fun zero => plain (zero ▸ member)
  rw [cString, List.takeWhile_append_of_pos goes, List.takeWhile_cons_of_neg (by simp), List.append_nil]

/-- The name of a module ends within its array. -/
structure EcoreModule.Terminated (mod : EcoreModule) : Prop where
  ends : ∃ rest, mod.name = cString mod.name ++ 0 :: rest
  short : (cString mod.name).length < ECORE_MODULE_NAME_LEN

/-- Every entry of the tree is a module with its id. -/
structure LoadedModules (fuel : Nat) (s : ModuleMemory) : Prop where
  tree : ∃ shape nodes levels, Holds s.tree shape nodes levels ∧ shape.labels.length < fuel
  module : ∀ key p, Bound fuel s.tree key p → ∃ mod, s.modules p = some mod ∧ mod.id = key ∧ mod.Terminated

/-- The module with this id has this name. -/
def Named (fuel : Nat) (s : ModuleMemory) (key : Word) (name : Bytes) : Prop :=
  ∃ p mod, Bound fuel s.tree key p ∧ s.modules p = some mod ∧ cString mod.name = name

def DistinctNames (fuel : Nat) (s : ModuleMemory) : Prop :=
  ∀ key key' name, Named fuel s key name → Named fuel s key' name → key = key'

/-- The index is that of the module with the name, and -1 exactly if there is none. -/
structure FindsModule (fuel : Nat) (s : ModuleMemory) (query : Bytes) (index : Int) : Prop where
  found : ∀ key, Named fuel s key query → index = key.toInt
  absent : index = -1 ↔ ∀ key, ¬ Named fuel s key query

/-- `ecore_strcmp` does not tell these names apart. -/
def Clash (name query : Bytes) : Prop := name <+: query ∨ query <+: name

instance (name query : Bytes) : Decidable (Clash name query) := inferInstanceAs (Decidable (_ ∨ _))

theorem Clash.refl (name : Bytes) : Clash name name := .inl (List.prefix_refl name)

/-- The first module, in the order of the ids, whose name clashes. -/
structure FirstClash (fuel : Nat) (s : ModuleMemory) (query : Bytes) (key : Word) (name : Bytes) : Prop where
  named : Named fuel s key name
  clash : Clash name query
  first : ∀ key' name', Named fuel s key' name' → Clash name' query → key.toInt ≤ key'.toInt

/-- The name of the module at a node. -/
def nodeName (s : ModuleMemory) (a : Addr) : Bytes :=
  ((s.modules (s.tree.cell a).data).map fun mod => cString mod.name).getD []

section Index

variable {s : ModuleMemory} {tree : RbTree} {self a : Addr} {fuel limit : Nat} {query : Bytes} {key : Word}
  {done rest : List Addr}

/-- What the loop makes of the rest of the nodes. -/
def IndexOf (s : ModuleMemory) (query : Bytes) (rest : List Addr) (index : Int) : Prop :=
  (index = -1 ∧ ∀ a ∈ rest, ¬ Clash (nodeName s a) query) ∨
    ∃ front a back, rest = front ++ a :: back ∧ Clash (nodeName s a) query ∧ index = (s.tree.cell a).key.toInt ∧
      ∀ b ∈ front, ¬ Clash (nodeName s b) query

theorem IndexOf.cons {index : Int} (differs : ¬ Clash (nodeName s a) query) (found : IndexOf s query rest index) :
    IndexOf s query (a :: rest) index := by
  rcases found with ⟨missing, nowhere⟩ | ⟨front, b, back, rfl, clash, here, before⟩
  · refine .inl ⟨missing, ?_⟩
    rintro b (_ | ⟨_, member⟩)
    · exact differs
    · exact nowhere b member
  · refine .inr ⟨a :: front, b, back, rfl, clash, here, ?_⟩
    rintro c (_ | ⟨_, member⟩)
    · exact differs
    · exact before c member

/-- The loop ends at the first node with a name that clashes. -/
theorem findModule_walk (good : 0 ∉ s.tree.live) (rep : Rep s.tree tree self true) (nodup : tree.labels.Nodup)
    (enough : tree.labels.length < fuel) (here : tree.walk .right = done ++ rest) (inLimit : rest.length < limit)
    (plain : 0 ∉ query)
    (modules : ∀ a ∈ rest, ∃ mod, s.modules (s.tree.cell a).data = some mod ∧ mod.Terminated) :
    ∃ index, findModule s.modules fuel (query ++ [0]) limit (rest.headD 0) s.tree = some (index, s.tree) ∧
      IndexOf s query rest index := by
  induction rest generalizing done limit with
  | nil =>
      obtain ⟨limit, rfl⟩ : ∃ more, limit = more + 1 := ⟨limit - 1, by omega⟩
      exact ⟨-1, rfl, .inl ⟨rfl, fun a member => absurd member List.not_mem_nil⟩⟩
  | cons a rest ih =>
      obtain ⟨limit, rfl⟩ : ∃ more, limit = more + 1 := ⟨limit - 1, by omega⟩
      rw [List.length_cons] at inLimit
      have live : a ∈ s.tree.live := rep.live a (((tree.walk_perm .right).mem_iff).mp (by simp [here]))
      have notNull : a ≠ 0 := fun null => good (null ▸ live)
      obtain ⟨mod, allocated, ⟨tail, ends⟩, short⟩ := modules a List.mem_cons_self
      have name : nodeName s a = cString mod.name := by simp [nodeName, allocated]
      have compares : ecoreStrcmp mod.name (query ++ [0]) ECORE_MODULE_NAME_LEN =
          some (if Clash (nodeName s a) query then 0 else -1) := by
        rw [name, ends, cString_append (zero_notMem_cString _)]
        exact ecoreStrcmp_eq (zero_notMem_cString _) plain short (by decide) tail []
      rw [List.headD_cons, findModule, if_neg notNull]
      simp only [bind_apply, load_apply live, andThen_some, allocated, compares]
      by_cases clash : Clash (nodeName s a) query
      · refine ⟨(s.tree.cell a).key.toInt, ?_, .inr ⟨[], a, rest, rfl, clash, rfl, by simp⟩⟩
        simp [clash]
      · have step := neighbour_walk .forth good rep nodup enough here
        have split : tree.walk .right = (done ++ [a]) ++ rest := by simpa using here
        obtain ⟨index, finds, found⟩ := ih split (show rest.length < limit by omega)
          fun b member => modules b (List.mem_cons_of_mem a member)
        refine ⟨index, ?_, found.cons clash⟩
        have goes : ¬ (-1 : Byte) = 0 := by decide
        rw [if_neg clash, if_neg goes]
        simp only [bind_apply, rbtNext, step, andThen_some, finds]

/-- What `get_module_index` returns, in terms of the nodes in the order of their keys. -/
theorem getModuleIndex_walk (loaded : LoadedModules fuel s) (plain : 0 ∉ query) :
    ∃ (nodes : List Addr) (index : Int), getModuleIndex fuel (query ++ [0]) s = some (index, s) ∧
      IndexOf s query nodes index ∧
      (nodes.map fun a => (s.tree.cell a).key.toInt).Pairwise (· < ·) ∧
      ∀ key name, Named fuel s key name ↔ ∃ a ∈ nodes, (s.tree.cell a).key = key ∧ nodeName s a = name := by
  obtain ⟨shape, spare, levels, holds, enough⟩ := loaded.tree
  have walks := holds.walks enough
  have modules : ∀ a ∈ shape.walk .right, ∃ mod, s.modules (s.tree.cell a).data = some mod ∧ mod.Terminated := by
    intro a member
    obtain ⟨mod, allocated, _, terminated⟩ := loaded.module _ _ ((walks.stored _ _).mpr ⟨a, member, rfl, rfl⟩)
    exact ⟨mod, allocated, terminated⟩
  have inLimit : (shape.walk .right).length < fuel := by rwa [(shape.walk_perm .right).length_eq]
  obtain ⟨index, finds, found⟩ := findModule_walk holds.stocked.good holds.rep
    (List.nodup_append'.mp holds.stocked.nodup).1 enough (List.nil_append _).symm inLimit plain modules
  refine ⟨shape.walk .right, index, ?_, found, walks.increasing, ?_⟩
  · simp only [getModuleIndex, bind_apply, holds.first enough, andThen_some, finds]
    rfl
  · intro key name
    constructor
    · rintro ⟨p, mod, bound, allocated, rfl⟩
      obtain ⟨a, member, rfl, rfl⟩ := (walks.stored key p).mp bound
      exact ⟨a, member, rfl, by simp [nodeName, allocated]⟩
    · rintro ⟨a, member, rfl, rfl⟩
      obtain ⟨mod, allocated, _⟩ := modules a member
      exact ⟨_, mod, (walks.stored _ _).mpr ⟨a, member, rfl, rfl⟩, allocated, by simp [nodeName, allocated]⟩

theorem Named.unique {name name' : Bytes} (named : Named fuel s key name) (named' : Named fuel s key name') :
    name = name' := by
  obtain ⟨p, mod, ⟨a, finds, _, rfl⟩, allocated, rfl⟩ := named
  obtain ⟨q, mod', ⟨b, finds', _, rfl⟩, allocated', rfl⟩ := named'
  obtain rfl : a = b := congrArg Prod.fst (Option.some.inj (finds.symm.trans finds'))
  rw [Option.some.inj (allocated.symm.trans allocated')]

theorem FirstClash.unique {key' : Word} {name name' : Bytes} (first : FirstClash fuel s query key name)
    (first' : FirstClash fuel s query key' name') : key = key' ∧ name = name' := by
  obtain rfl : key = key' := BitVec.eq_of_toInt_eq (Int.le_antisymm
    (first.first key' name' first'.named first'.clash) (first'.first key name first.named first.clash))
  exact ⟨rfl, first.named.unique first'.named⟩

/-- It returns the id of the first module with a name that clashes, or -1. -/
theorem getModuleIndex_spec (loaded : LoadedModules fuel s) (plain : 0 ∉ query) :
    ∃ index, getModuleIndex fuel (query ++ [0]) s = some (index, s) ∧
      ((index = -1 ∧ ∀ key name, Named fuel s key name → ¬ Clash name query) ∨
        ∃ key name, FirstClash fuel s query key name ∧ index = key.toInt) := by
  obtain ⟨nodes, index, finds, found, increasing, named⟩ := getModuleIndex_walk loaded plain
  refine ⟨index, finds, ?_⟩
  rcases found with ⟨missing, nowhere⟩ | ⟨front, a, back, rfl, clash, here, before⟩
  · left
    refine ⟨missing, ?_⟩
    rintro key name present
    obtain ⟨a, member, _, rfl⟩ := (named key name).mp present
    exact nowhere a member
  · right
    refine ⟨_, nodeName s a, ⟨(named _ _).mpr ⟨a, by simp, rfl, rfl⟩, clash, ?_⟩, here⟩
    intro key' name' present clash'
    obtain ⟨b, member, rfl, rfl⟩ := (named key' name').mp present
    rw [List.map_append, List.map_cons, List.pairwise_append, List.pairwise_cons] at increasing
    rcases List.mem_append.mp member with inFront | inRest
    · exact absurd clash' (before b inFront)
    · rcases List.mem_cons.mp inRest with rfl | inBack
      · exact Int.le_refl _
      · exact Int.le_of_lt (increasing.2.1.1 _ (List.mem_map_of_mem inBack))

/-- The right module is found exactly if the first one whose name clashes with the query is the one with that
name. -1 is also the id of a module, after all others. -/
theorem getModuleIndex_iff (fuel : Nat) (s : ModuleMemory) (loaded : LoadedModules fuel s)
    (distinct : DistinctNames fuel s) (query : Bytes) (plain : 0 ∉ query) :
    (∃ index, getModuleIndex fuel (query ++ [0]) s = some (index, s) ∧ FindsModule fuel s query index) ↔
      ∀ key name, FirstClash fuel s query key name →
        (name = query ∧ key ≠ -1) ∨ (key = -1 ∧ ∀ key', ¬ Named fuel s key' query) := by
  obtain ⟨index, finds, outcome⟩ := getModuleIndex_spec loaded plain
  have result : (∃ index, getModuleIndex fuel (query ++ [0]) s = some (index, s) ∧ FindsModule fuel s query index) ↔
      FindsModule fuel s query index := by
    constructor
    · rintro ⟨other, finds', good⟩
      obtain rfl : index = other := congrArg Prod.fst (Option.some.inj (finds.symm.trans finds'))
      exact good
    · exact fun good => ⟨index, finds, good⟩
  rw [result]
  rcases outcome with ⟨rfl, nowhere⟩ | ⟨key, name, first, rfl⟩
  · have absent : ∀ key, ¬ Named fuel s key query := fun key named => nowhere key query named (.refl query)
    exact iff_of_true ⟨fun key named => absurd named (absent key), iff_of_true rfl absent⟩
      fun key name first => absurd first.clash (nowhere key name first.named)
  · have minusOne : key.toInt = -1 ↔ key = -1 :=
      ⟨fun same => BitVec.eq_of_toInt_eq (same.trans (by decide)), fun same => same ▸ by decide⟩
    constructor
    · rintro ⟨found, absent⟩ key' name' first'
      obtain ⟨rfl, rfl⟩ := first.unique first'
      rw [minusOne] at absent
      by_cases present : ∃ key', Named fuel s key' query
      · obtain ⟨key', named⟩ := present
        obtain rfl : key = key' := BitVec.eq_of_toInt_eq (found key' named)
        exact .inl ⟨first.named.unique named, fun last => absent.mp last key named⟩
      · rw [not_exists] at present
        exact .inr ⟨absent.mpr present, present⟩
    · intro condition
      rcases condition key name first with ⟨rfl, notLast⟩ | ⟨last, absent⟩
      · refine ⟨fun key' named => by rw [distinct key key' name first.named named], ?_⟩
        exact iff_of_false (mt minusOne.mp notLast) fun absent => absent key first.named
      · exact ⟨fun key' named => absurd named (absent key'), iff_of_true (minusOne.mpr last) absent⟩

end Index

/-- A module with this id and this name, and everything it needs. -/
def sample (id : Word) (name : Bytes) : EcoreModule :=
  ⟨id, ECORE_MODULE_TYPE_SPRITE, ECORE_MODULE_MODE_PARALLEL, name ++ List.replicate (260 - name.length) 0,
    EcoreModule.zero.path, true, true, true, true, true⟩

private theorem sample_terminated (id : Word) {name : Bytes} (plain : 0 ∉ name) (short : name.length < 260) :
    (sample id name).Terminated := by
  have ends : (sample id name).name = name ++ 0 :: List.replicate (259 - name.length) 0 := by
    rw [← List.replicate_succ, show 259 - name.length + 1 = 260 - name.length by omega]
    rfl
  have name_eq : cString (sample id name).name = name := by rw [ends, cString_append plain]
  exact ⟨⟨_, by rw [name_eq, ends]⟩, by rwa [name_eq]⟩

theorem newTree_isSome : (rbtNewTree .bump true 0 0 emptyMemory).isSome = true := rfl

private theorem twoInserts_isSome : (runCalls .bump 4 [.insert 1 16 false false, .insert 2 32 false false]
    ((rbtNewTree .bump true 0 0 emptyMemory).get newTree_isSome).2).isSome = true := rfl

/-- The modules `a` and `ab`. -/
def twoModules : ModuleMemory :=
  { ModuleMemory.start ((runCalls .bump 4 [.insert 1 16 false false, .insert 2 32 false false]
      ((rbtNewTree .bump true 0 0 emptyMemory).get newTree_isSome).2).get twoInserts_isSome).2 with
    modules := fun p =>
      if p = 16 then some (sample 1 [97]) else if p = 32 then some (sample 2 [97, 98]) else none
    moduleIndex := 3 }

theorem twoModules_tree : ∃ shape nodes levels, Holds twoModules.tree shape nodes levels ∧ shape.labels.length < 4 := by
  have reached : Reached .bump 4 [.insert 1 16 false false, .insert 2 32 false false] twoModules.tree :=
    ⟨emptyMemory, 0, 0, _, _, by simp [emptyMemory], rfl, rfl⟩
  obtain ⟨shape, nodes, levels, holds, short⟩ := reached.holds (by decide)
  exact ⟨shape, nodes, levels, holds, Nat.lt_of_le_of_lt short (by decide)⟩

private theorem twoModules_bound (key p : Word) :
    Bound 4 twoModules.tree key p ↔ (key = 1 ∧ p = 16) ∨ (key = 2 ∧ p = 32) := by
  obtain ⟨shape, _, _, holds, short⟩ := twoModules_tree
  have walks := holds.walks short
  have nodes : shape.walk .right = [2, 3] :=
    congrArg Prod.fst (Option.some.inj (walks.forth.symm.trans (show _ = some ([2, 3], twoModules.tree) from rfl)))
  rw [walks.stored key p, nodes]
  have first : (twoModules.tree.cell 2).key = 1 ∧ (twoModules.tree.cell 2).data = 16 := ⟨rfl, rfl⟩
  have second : (twoModules.tree.cell 3).key = 2 ∧ (twoModules.tree.cell 3).data = 32 := ⟨rfl, rfl⟩
  simp [first, second, eq_comm]

private theorem twoModules_named (key : Word) (name : Bytes) :
    Named 4 twoModules key name ↔ (key = 1 ∧ name = [97]) ∨ (key = 2 ∧ name = [97, 98]) := by
  have first : ∃ mod, twoModules.modules 16 = some mod ∧ cString mod.name = [97] := ⟨_, rfl, rfl⟩
  have second : ∃ mod, twoModules.modules 32 = some mod ∧ cString mod.name = [97, 98] := ⟨_, rfl, rfl⟩
  obtain ⟨mod, allocated, is⟩ := first
  obtain ⟨mod', allocated', is'⟩ := second
  constructor
  · rintro ⟨p, here, bound, there, rfl⟩
    rcases (twoModules_bound key p).mp bound with ⟨rfl, rfl⟩ | ⟨rfl, rfl⟩
    · rw [← Option.some.inj (allocated.symm.trans there), is]
      exact .inl ⟨rfl, rfl⟩
    · rw [← Option.some.inj (allocated'.symm.trans there), is']
      exact .inr ⟨rfl, rfl⟩
  · rintro (⟨rfl, rfl⟩ | ⟨rfl, rfl⟩)
    · exact ⟨16, mod, (twoModules_bound 1 16).mpr (.inl ⟨rfl, rfl⟩), allocated, is⟩
    · exact ⟨32, mod', (twoModules_bound 2 32).mpr (.inr ⟨rfl, rfl⟩), allocated', is'⟩

private theorem twoModules_loaded : LoadedModules 4 twoModules where
  tree := twoModules_tree
  module key p bound := by
    rcases (twoModules_bound key p).mp bound with ⟨rfl, rfl⟩ | ⟨rfl, rfl⟩
    · exact ⟨_, rfl, rfl, sample_terminated 1 (by decide) (by decide)⟩
    · exact ⟨_, rfl, rfl, sample_terminated 2 (by decide) (by decide)⟩

private theorem twoModules_distinct : DistinctNames 4 twoModules := by
  intro key key' name named named'
  rw [twoModules_named] at named named'
  rcases named with ⟨rfl, rfl⟩ | ⟨rfl, rfl⟩
  · rcases named' with ⟨rfl, _⟩ | ⟨_, other⟩
    · rfl
    · cases other
  · rcases named' with ⟨_, other⟩ | ⟨rfl, _⟩
    · cases other
    · rfl

/-- `a` is found. -/
theorem getModuleIndex_iff_first :
    ∃ index, getModuleIndex 4 ([97] ++ [0]) twoModules = some (index, twoModules) ∧
      FindsModule 4 twoModules [97] index := by
  refine (getModuleIndex_iff 4 twoModules twoModules_loaded twoModules_distinct [97] (by decide)).mpr ?_
  intro key name first
  have earliest := first.first 1 [97] ((twoModules_named 1 [97]).mpr (.inl ⟨rfl, rfl⟩)) (.refl [97])
  rcases (twoModules_named key name).mp first.named with ⟨rfl, rfl⟩ | ⟨rfl, rfl⟩
  · exact .inl ⟨rfl, by decide⟩
  · exact absurd earliest (by decide)

/-- For `ab`, the index of `a` is returned. -/
theorem getModuleIndex_prefix : ¬ ∀ (fuel : Nat) (s : ModuleMemory), LoadedModules fuel s → DistinctNames fuel s →
    ∀ query : Bytes, 0 ∉ query →
      ∃ index, getModuleIndex fuel (query ++ [0]) s = some (index, s) ∧ FindsModule fuel s query index := by
  intro all
  obtain ⟨index, finds, found, _⟩ := all 4 twoModules twoModules_loaded twoModules_distinct [97, 98] (by decide)
  have returns : getModuleIndex 4 ([97, 98] ++ [0]) twoModules = some (1, twoModules) := rfl
  obtain rfl : (1 : Int) = index := congrArg Prod.fst (Option.some.inj (returns.symm.trans finds))
  exact absurd (found 2 ((twoModules_named 2 [97, 98]).mpr (.inr ⟨rfl, rfl⟩))) (by decide)

end GbfLibrary.Ecore
