import GbfLibrary.Ecore.Copies
import Mathlib.Algebra.GroupWithZero.Nat

/-!
# Loads and starts of modules

Sequences of `ecore_load_modules` and `ecore_start_modules`, and the masters they leave in the tree.
-/

set_option autoImplicit false

namespace GbfLibrary.Ecore

open Memory Rbtree Prog

/-- Every library is there, with its four functions. -/
def Loader.Finds (loader : Loader) : Prop := ∀ fullname, loader.library fullname = some ⟨true, true, true, true⟩

/-- A library that is not there has a name that `printf` takes for a format with arguments. -/
def Loader.Misprints (loader : Loader) : Prop := ∃ fullname, loader.library fullname = none ∧ printf fullname = none

theorem Loader.Finds.prints {loader : Loader} (finds : loader.Finds) : ¬ loader.Misprints := by
  rintro ⟨fullname, missing, _⟩
  rw [finds fullname] at missing
  cases missing

/-- The node of a list, with arrays of their sizes. -/
structure ModuleListNode.Sized (node : ModuleListNode) : Prop where
  name : node.name.length = ECORE_MODULE_NAME_LEN
  path : node.path.length = ECORE_MODULE_PATH_LEN

section Load

variable {loader : Loader} {malloc : Malloc} {fuel remaining : Nat} {s s' : ModuleMemory} {name path : Bytes}
  {type mode : Nat}

/-- The strings of a module end in their arrays. -/
structure EcoreModule.Prepared (mod : EcoreModule) : Prop where
  name : mod.Terminated
  path : ∃ text rest, mod.path = text ++ 0 :: rest ∧ 0 ∉ text ∧ text.length < ECORE_MODULE_PATH_LEN

private theorem prepareModuleNames_returns (nameLength : name.length = ECORE_MODULE_NAME_LEN)
    (pathLength : path.length = ECORE_MODULE_PATH_LEN) :
    ∃ mod, prepareModuleNames .zero name (some path) = some mod ∧ mod.Prepared := by
  have copiesName : ∃ text rest, ecoreStrcpy EcoreModule.zero.name ECORE_MODULE_NAME_LEN name =
      some (text ++ 0 :: rest) ∧ 0 ∉ text ∧ text.length < ECORE_MODULE_NAME_LEN ∧ _ :=
    ecoreStrcpy_ends (by decide) (by simp [EcoreModule.zero]) (by omega)
  have copiesPath : ∃ text rest, ecoreStrcpy EcoreModule.zero.path ECORE_MODULE_PATH_LEN path =
      some (text ++ 0 :: rest) ∧ 0 ∉ text ∧ text.length < ECORE_MODULE_PATH_LEN ∧ _ :=
    ecoreStrcpy_ends (by decide) (by simp [EcoreModule.zero]) (by omega)
  obtain ⟨text, rest, copies, plain, short, _⟩ := copiesName
  obtain ⟨text', rest', copies', plain', short', _⟩ := copiesPath
  refine ⟨{ EcoreModule.zero with name := text ++ 0 :: rest, path := text' ++ 0 :: rest' }, ?_, ⟨?_, ?_⟩, ?_⟩
  · simp [prepareModuleNames, copies, copies']
  · exact ⟨rest, by rw [cString_append plain]⟩
  · rwa [cString_append plain]
  · exact ⟨text', rest', rfl, plain', short'⟩

/-- The path and the name fit the buffer together. -/
theorem fullName_returns {mod : EcoreModule} (prepared : mod.Prepared) :
    ∃ fullname, fullName loader.stack mod = some fullname := by
  obtain ⟨⟨⟨rest, ends⟩, short⟩, text, rest', path, plain, short'⟩ := prepared
  have noNul := zero_notMem_cString mod.name
  generalize cString mod.name = name at *
  have room : loader.stack.length = 520 := loader.stackLength
  unfold ECORE_MODULE_NAME_LEN at short
  unfold ECORE_MODULE_PATH_LEN at short'
  have copiesName : ecoreStrcpy loader.stack 520 mod.name = some (name ++ 0 :: loader.stack.drop (name.length + 1)) := by
    rw [ends]
    exact ecoreStrcpy_eq noNul (by omega) (by omega) rest
  have copiesPath : ecoreStrcpy loader.stack 520 mod.path =
      some (text ++ 0 :: loader.stack.drop (text.length + 1)) := by
    rw [path]
    exact ecoreStrcpy_eq plain (by omega) (by omega) rest'
  have first : ∃ c, mod.path.head? = some c := by
    rw [path]
    cases text <;> exact ⟨_, rfl⟩
  obtain ⟨c, first⟩ := first
  by_cases zero : c = 0
  · exact ⟨_, by simpa [fullName, first, zero, ECORE_MODULE_PATH_LEN, ECORE_MODULE_NAME_LEN] using copiesName⟩
  · have inside : 520 - text.length ≤ (0 :: loader.stack.drop (text.length + 1)).length := by
      rw [List.length_cons, List.length_drop]
      omega
    have appends := ecoreStrcpy_eq noNul (show name.length < 520 - text.length by omega) inside rest
    rw [← ends] at appends
    obtain ⟨fullname, whole⟩ : ∃ fullname,
        ecoreStrcat (text ++ 0 :: loader.stack.drop (text.length + 1)) 520 mod.name = some fullname :=
      ⟨_, by rw [ecoreStrcat_eq plain (by omega), appends, Option.map_some]⟩
    refine ⟨fullname, ?_⟩
    simp only [fullName, first, Option.bind_eq_bind, Option.bind_some]
    rw [if_pos zero]
    simp only [ECORE_MODULE_PATH_LEN, ECORE_MODULE_NAME_LEN, Nat.reduceAdd, copiesPath, Option.bind_some, whole]

private theorem prepareModuleEntries_cases (loader : Loader) {mod : EcoreModule} (prepared : mod.Prepared) :
    (prepareModuleEntries loader mod = none ∧ loader.Misprints) ∨
      prepareModuleEntries loader mod = some (.failToLoadLibrary, mod) ∨
        ∃ library : Library, prepareModuleEntries loader mod = some (.ok, { mod with
          entry := true, onload := library.onload, onstart := library.onstart, onmessage := library.onmessage,
          onunload := library.onunload }) := by
  obtain ⟨fullname, whole⟩ : ∃ fullname, fullName loader.stack mod = some fullname := fullName_returns prepared
  simp only [prepareModuleEntries, whole, Option.bind_eq_bind, Option.bind_some]
  cases found : loader.library (cString fullname) with
  | none =>
      cases printed : printf (cString fullname) with
      | none => exact .inl ⟨rfl, cString fullname, found, printed⟩
      | some _ => exact .inr (.inl rfl)
  | some library => exact .inr (.inr ⟨library, rfl⟩)

theorem checkModuleStatus_ne_multipleMasters (mod : EcoreModule) : checkModuleStatus mod false ≠ .multipleMasters := by
  simp only [checkModuleStatus, Bool.false_eq_true, and_false, if_false]
  repeat' split
  all_goals decide

/-- Between the calls: a number of loads have room, and no call has noted a master. -/
structure Ready (fuel remaining : Nat) (s : ModuleMemory) : Prop where
  tree : ∃ shape nodes levels, Holds s.tree shape nodes levels ∧ shape.labels.length + remaining < fuel
  module : ∀ key p, Bound fuel s.tree key p → ∃ mod, s.modules p = some mod ∧ mod.id = key ∧ mod.Terminated
  flag : s.isMasterLoaded = false

theorem Ready.loaded (ready : Ready fuel remaining s) : LoadedModules fuel s where
  tree := by
    obtain ⟨shape, nodes, levels, holds, room⟩ := ready.tree
    exact ⟨shape, nodes, levels, holds, by omega⟩
  module := ready.module

theorem Ready.mono {less : Nat} (ready : Ready fuel remaining s) (fewer : less ≤ remaining) : Ready fuel less s where
  tree := by
    obtain ⟨shape, nodes, levels, holds, room⟩ := ready.tree
    exact ⟨shape, nodes, levels, holds, by omega⟩
  module := ready.module
  flag := ready.flag

/-- The tree and its modules are as they were. -/
structure Kept (s s' : ModuleMemory) : Prop where
  tree : Unchanged s.tree s'.tree
  modules : ∀ p mod, s.modules p = some mod → s'.modules p = some mod
  flag : s'.isMasterLoaded = s.isMasterLoaded

theorem Kept.refl (s : ModuleMemory) : Kept s s := ⟨.refl s.tree, fun _ _ => id, rfl⟩

/-- A module has been put into the tree. -/
structure Inserted (fuel : Nat) (s s' : ModuleMemory) (p : Word) (mod : EcoreModule) : Prop where
  fresh : s.modules p = none
  modules : s'.modules = Function.update s.modules p (some mod)
  absent : ∀ q, ¬ Bound fuel s.tree mod.id q
  bound : ∀ key q, Bound fuel s'.tree key q ↔ (key = mod.id ∧ q = p) ∨ Bound fuel s.tree key q
  flag : s'.isMasterLoaded = s.isMasterLoaded

theorem bound_unchanged {tree tree' : RbMachine} {shape : RbTree} {nodes : List Addr} {levels : Nat} {key p : Word}
    (holds : Holds tree shape nodes levels) (enough : shape.labels.length < fuel) (unchanged : Unchanged tree tree') :
    Bound fuel tree' key p ↔ Bound fuel tree key p :=
  ((holds.unchanged unchanged).search_bound enough).trans (holds.search_bound enough).symm

theorem Ready.kept (ready : Ready fuel remaining s) (kept : Kept s s') : Ready fuel remaining s' := by
  obtain ⟨shape, nodes, levels, holds, room⟩ := ready.tree
  refine ⟨⟨shape, nodes, levels, holds.unchanged kept.tree, room⟩, ?_, kept.flag.trans ready.flag⟩
  intro key p bound
  obtain ⟨mod, allocated, named⟩ := ready.module key p ((bound_unchanged holds (by omega) kept.tree).mp bound)
  exact ⟨mod, kept.modules p mod allocated, named⟩

theorem Ready.inserted {p : Word} {mod : EcoreModule} (ready : Ready fuel (remaining + 1) s)
    (inserted : Inserted fuel s s' p mod) (terminated : mod.Terminated)
    (tree : ∃ shape nodes levels, Holds s'.tree shape nodes levels ∧ shape.labels.length + remaining < fuel) :
    Ready fuel remaining s' := by
  refine ⟨tree, ?_, inserted.flag.trans ready.flag⟩
  intro key q bound
  rw [inserted.modules]
  rcases (inserted.bound key q).mp bound with ⟨rfl, rfl⟩ | old
  · exact ⟨mod, Function.update_self .., rfl, terminated⟩
  · obtain ⟨other, allocated, named⟩ := ready.module key q old
    have different : q ≠ p := by
      rintro rfl
      rw [inserted.fresh] at allocated
      cases allocated
    exact ⟨other, by rwa [Function.update_of_ne different], named⟩

/-- The insertion of a module under the next id. -/
theorem insertModuleToTree_outcome (malloc : Malloc) (ready : Ready fuel (remaining + 1) s) {p : Word}
    {mod : EcoreModule} (fresh : s.modules p = none) (terminated : mod.Terminated) :
    ∃ rc s', insertModuleToTree malloc fuel p (s.put p mod) = some (rc, s') ∧ rc ≠ .multipleMasters ∧
      s'.modules = Function.update s.modules p (some { mod with id := s.moduleIndex }) ∧
      s'.isMasterLoaded = s.isMasterLoaded ∧
      (((rc = .ok → FirstNodeFails malloc s.tree) ∧ Unchanged s.tree s'.tree) ∨
        (rc = .ok ∧ Inserted fuel s s' p { mod with id := s.moduleIndex } ∧ Ready fuel remaining s')) := by
  obtain ⟨shape, nodes, levels, holds, room⟩ := ready.tree
  obtain ⟨code, old, tree, shape', nodes', levels', inserts, holds', longer, outcome⟩ :=
    rbtInsert_adds malloc holds (show shape.labels.length + 1 < fuel by omega) s.moduleIndex p
  let s' : ModuleMemory := ⟨tree, Function.update s.modules p (some { mod with id := s.moduleIndex }),
    s.moduleIndex + 1, s.masterIndex, s.isMasterLoaded⟩
  refine ⟨if code = .ok then .ok else .failToInsertMod, s', ?_, by split <;> decide, rfl, rfl, ?_⟩
  · simp [insertModuleToTree, ModuleMemory.put, ready.flag, inserts, s']
  · rcases outcome with ⟨rfl, absent, entries⟩ | ⟨fails, unchanged⟩
    · have inserted : Inserted fuel s s' p { mod with id := s.moduleIndex } := by
        refine ⟨fresh, rfl, ?_, ?_, rfl⟩
        · intro q bound
          exact absent q ((holds.search_bound (by omega)).mp bound)
        · intro key q
          rw [holds'.search_bound (by omega), holds.search_bound (by omega), entries, Prod.mk.injEq]
      exact .inr ⟨rfl, inserted, ready.inserted inserted ⟨terminated.ends, terminated.short⟩
        ⟨shape', nodes', levels', holds', by omega⟩⟩
    · refine .inl ⟨fun ok => fails ?_, unchanged⟩
      by_contra refused
      rw [if_neg refused] at ok
      cases ok

theorem ecoreModuleFree_put (s : ModuleMemory) {p : Word} (fresh : s.modules p = none) (mod : EcoreModule) :
    ecoreModuleFree p (s.put p mod) = s := by
  simp only [ecoreModuleFree, ModuleMemory.put, Function.update_idem]
  rw [← fresh, Function.update_eq_self]

/-- A load keeps the modules there are, and puts the new one into the tree if it can. -/
theorem ecoreLoadModuleDummy_outcome (loader : Loader) (malloc : Malloc) (ready : Ready fuel (remaining + 1) s)
    (nameLength : name.length = ECORE_MODULE_NAME_LEN) (pathLength : path.length = ECORE_MODULE_PATH_LEN)
    (type mode : Nat) :
    (ecoreLoadModuleDummy loader malloc fuel (some name) (some path) type mode s = none ∧ loader.Misprints) ∨
      ∃ rc s', ecoreLoadModuleDummy loader malloc fuel (some name) (some path) type mode s = some (rc, s') ∧
        Ready fuel remaining s' ∧ rc ≠ some .multipleMasters ∧
        (((rc = some .ok → FirstNodeFails malloc s.tree) ∧ Kept s s') ∨
          (rc = some .ok ∧ ∃ p mod, mod.type = type ∧ Inserted fuel s s' p mod)) := by
  have less : remaining ≤ remaining + 1 := Nat.le_succ remaining
  cases picked : loader.calloc s with
  | none =>
      refine .inr ⟨none, s, by simp [ecoreLoadModuleDummy, picked], ready.mono less, by simp, .inl ⟨?_, .refl s⟩⟩
      intro ok
      cases ok
  | some p =>
      obtain ⟨_, fresh⟩ := loader.fresh s p picked
      obtain ⟨mod, prepares, prepared⟩ := prepareModuleNames_returns nameLength pathLength
      rcases prepareModuleEntries_cases loader prepared with ⟨entries, misprints⟩ | entries | ⟨library, entries⟩
      · exact .inl ⟨by simp [ecoreLoadModuleDummy, picked, prepares, entries], misprints⟩
      · refine .inr ⟨some .failToLoadLibrary, s, ?_, ready.mono less, by decide, .inl ⟨?_, .refl s⟩⟩
        · simp [ecoreLoadModuleDummy, picked, prepares, entries, ecoreModuleFree_put s fresh]
        · intro ok
          cases ok
      right
      let filled : EcoreModule := { mod with
        entry := true, onload := library.onload, onstart := library.onstart, onmessage := library.onmessage,
        onunload := library.onunload, type, runningMode := mode }
      have terminated : filled.Terminated := ⟨prepared.name.ends, prepared.name.short⟩
      have notMasters : checkModuleStatus filled s.isMasterLoaded ≠ .multipleMasters :=
        ready.flag ▸ checkModuleStatus_ne_multipleMasters filled
      by_cases checks : checkModuleStatus filled s.isMasterLoaded = .ok
      case neg =>
        refine ⟨some (checkModuleStatus filled s.isMasterLoaded), s, ?_, ready.mono less, ?_, .inl ⟨?_, .refl s⟩⟩
        · simp [ecoreLoadModuleDummy, picked, prepares, entries, filled, checks, ecoreModuleFree_put s fresh]
        · simpa using notMasters
        · exact fun ok => absurd (Option.some.inj ok) checks
      case pos =>
        obtain ⟨rc, s', inserts, notMasters, modules, flag, outcome⟩ :=
          insertModuleToTree_outcome malloc ready fresh terminated
        have loads : ecoreLoadModuleDummy loader malloc fuel (some name) (some path) type mode s =
            some (some rc, if rc = .ok then s' else ecoreModuleFree p s') := by
          simp only [ecoreLoadModuleDummy, picked, prepares, entries, Option.bind_eq_bind, Option.bind_some, ne_eq,
            not_true_eq_false, if_false]
          rw [if_neg (not_not.mpr checks), inserts]
          simp only [Option.bind_some, ite_not]
          split <;> rfl
        refine ⟨some rc, _, loads, ?_⟩
        rcases outcome with ⟨fails, unchanged⟩ | ⟨rfl, inserted, ready'⟩
        · by_cases ok : rc = .ok
          · rw [if_pos ok]
            have kept : Kept s s' := by
              refine ⟨unchanged, ?_, flag⟩
              intro q other allocated
              have different : q ≠ p := by
                rintro rfl
                rw [fresh] at allocated
                cases allocated
              rw [modules, Function.update_of_ne different, allocated]
            exact ⟨(ready.kept kept).mono less, by simp [ok], .inl ⟨fun _ => fails ok, kept⟩⟩
          · rw [if_neg ok]
            have freed : (ecoreModuleFree p s').modules = s.modules := by
              rw [ecoreModuleFree, modules, Function.update_idem, ← fresh, Function.update_eq_self]
            have kept : Kept s (ecoreModuleFree p s') :=
              ⟨unchanged, fun q other allocated => by rw [freed, allocated], flag⟩
            exact ⟨(ready.kept kept).mono less, by simpa using notMasters,
              .inl ⟨fun accepted => absurd (Option.some.inj accepted) ok, kept⟩⟩
        · exact ⟨ready', by decide, .inr ⟨rfl, p, _, rfl, inserted⟩⟩

end Load

section Start

variable {s : ModuleMemory} {tree : RbTree} {self : Addr} {fuel remaining limit : Nat} {done rest : List Addr}

/-- A start changes only which module is the master. -/
def Started (s s' : ModuleMemory) : Prop :=
  s'.tree = s.tree ∧ s'.modules = s.modules ∧ s'.isMasterLoaded = s.isMasterLoaded

private theorem startModuleOnload_started (mod : EcoreModule) (index : Word) (s : ModuleMemory) :
    Started s (startModuleOnload mod index s).2 := by
  unfold startModuleOnload
  split
  · exact ⟨rfl, rfl, rfl⟩
  · split <;> exact ⟨rfl, rfl, rfl⟩

/-- A module of a type that there is. -/
def EcoreModule.Startable (mod : EcoreModule) : Prop :=
  mod.type = ECORE_MODULE_TYPE_MASTER ∨ mod.type = ECORE_MODULE_TYPE_SLAVE ∨ mod.type = ECORE_MODULE_TYPE_SPRITE

private theorem startModuleOnload_code (mod : EcoreModule) (index : Word) (s : ModuleMemory) :
    (mod.Startable ∧ (startModuleOnload mod index s).1 = .ok) ∨
      (¬ mod.Startable ∧ (startModuleOnload mod index s).1 = .errorTypeMode) := by
  unfold startModuleOnload EcoreModule.Startable
  split
  · next master => exact .inl ⟨.inl master, rfl⟩
  · next other =>
      split
      · next good => exact .inl ⟨.inr good, rfl⟩
      · next bad => exact .inr ⟨not_or.mpr ⟨other, bad⟩, rfl⟩

/-- The result of a start without a master: the first module of no type ends it. -/
def StartOutcome (s : ModuleMemory) (nodes : List Addr) (rc : ModuleCode) : Prop :=
  (rc = .ok ∧ ∀ a ∈ nodes, ∀ mod, s.modules (s.tree.cell a).data = some mod → mod.Startable) ∨
    (rc = .errorTypeMode ∧ ∃ a ∈ nodes, ∃ mod, s.modules (s.tree.cell a).data = some mod ∧ ¬ mod.Startable)

private theorem startLoop_walk (good : 0 ∉ s.tree.live) (rep : Rep s.tree tree self true) (nodup : tree.labels.Nodup)
    (enough : tree.labels.length < fuel) (here : tree.walk .right = done ++ rest) (inLimit : rest.length < limit)
    (modules : ∀ a ∈ rest, ∃ mod, s.modules (s.tree.cell a).data = some mod) (rc : ModuleCode) :
    ∃ rc' s', startLoop fuel limit (rest.headD 0) rc s = some (rc', s') ∧ Started s s' ∧
      (s.isMasterLoaded = false → rc = .ok → StartOutcome s rest rc') := by
  induction rest generalizing done limit s rc with
  | nil =>
      obtain ⟨limit, rfl⟩ : ∃ more, limit = more + 1 := ⟨limit - 1, by omega⟩
      exact ⟨rc, s, rfl, ⟨rfl, rfl, rfl⟩, fun _ ok => .inl ⟨ok, by simp⟩⟩
  | cons a rest ih =>
      obtain ⟨limit, rfl⟩ : ∃ more, limit = more + 1 := ⟨limit - 1, by omega⟩
      rw [List.length_cons] at inLimit
      have live : a ∈ s.tree.live := rep.live a (((tree.walk_perm .right).mem_iff).mp (by simp [here]))
      have notNull : a ≠ 0 := fun null => good (null ▸ live)
      obtain ⟨mod, allocated⟩ := modules a List.mem_cons_self
      have onload := startModuleOnload_started mod (s.tree.cell a).key s
      have code := startModuleOnload_code mod (s.tree.cell a).key s
      rw [List.headD_cons, startLoop, if_neg notNull]
      simp only [load_apply live, Option.bind_eq_bind, Option.bind_some, allocated]
      generalize startModuleOnload mod (s.tree.cell a).key s = result at onload code ⊢
      obtain ⟨rc₁, s₁⟩ := result
      obtain ⟨sameTree, sameModules, sameFlag⟩ := onload
      by_cases stops : rc₁ ≠ .ok ∧ s₁.isMasterLoaded = false
      · refine ⟨rc₁, s₁, if_pos stops, ⟨sameTree, sameModules, sameFlag⟩, fun _ _ => .inr ?_⟩
        rcases code with ⟨_, ok⟩ | ⟨bad, refused⟩
        · exact absurd ok stops.1
        · exact ⟨refused, a, List.mem_cons_self, mod, allocated, bad⟩
      · have step := neighbour_walk .forth good rep nodup enough here
        have split : tree.walk .right = (done ++ [a]) ++ rest := by simpa using here
        obtain ⟨rc', s', runs, ⟨tree', modules', flag'⟩, later⟩ := ih (show 0 ∉ s₁.tree.live by rwa [sameTree])
          (show Rep s₁.tree tree self true by rwa [sameTree]) split (show rest.length < limit by omega)
          (fun b member => by rw [sameTree, sameModules]; exact modules b (List.mem_cons_of_mem a member)) rc₁
        refine ⟨rc', s', ?_, ⟨tree'.trans sameTree, modules'.trans sameModules, flag'.trans sameFlag⟩, fun flag _ => ?_⟩
        · have next : rbtNext fuel a s₁.tree = some (rest.headD 0, s₁.tree) := by
            rw [sameTree]
            exact step
          rw [if_neg stops]
          simp only [next, Option.bind_some]
          exact runs
        · have noMaster : s₁.isMasterLoaded = false := sameFlag.trans flag
          have ok : rc₁ = .ok := by
            by_contra refused
            exact stops ⟨refused, noMaster⟩
          have type : mod.Startable := by
            rcases code with ⟨good, _⟩ | ⟨_, refused⟩
            · exact good
            · cases ok.symm.trans refused
          rw [StartOutcome, sameTree, sameModules] at later
          refine (later noMaster ok).imp (And.imp_right fun all => ?_) (And.imp_right fun found => ?_)
          · intro b member other there
            rcases List.mem_cons.mp member with rfl | behind
            · rwa [Option.some.inj (there.symm.trans allocated)]
            · exact all b behind other there
          · obtain ⟨b, behind, bad⟩ := found
            exact ⟨b, List.mem_cons_of_mem a behind, bad⟩

theorem ecoreStartModules_walk (ready : Ready fuel remaining s) :
    ∃ rc s' nodes, ecoreStartModules fuel s = some (rc, s') ∧ Started s s' ∧ StartOutcome s nodes rc ∧
      ∀ key p, Bound fuel s.tree key p ↔ ∃ a ∈ nodes, (s.tree.cell a).key = key ∧ (s.tree.cell a).data = p := by
  obtain ⟨shape, spare, levels, holds, room⟩ := ready.tree
  have enough : shape.labels.length < fuel := by omega
  have walks := holds.walks enough
  have modules : ∀ a ∈ shape.walk .right, ∃ mod, s.modules (s.tree.cell a).data = some mod := by
    intro a member
    obtain ⟨mod, allocated, _⟩ := ready.module _ _ ((walks.stored _ _).mpr ⟨a, member, rfl, rfl⟩)
    exact ⟨mod, allocated⟩
  have inLimit : (shape.walk .right).length < fuel := by rwa [(shape.walk_perm .right).length_eq]
  obtain ⟨rc, s', runs, started, code⟩ := startLoop_walk holds.stocked.good holds.rep
    (List.nodup_append'.mp holds.stocked.nodup).1 enough (List.nil_append _).symm inLimit modules .ok
  exact ⟨rc, s', shape.walk .right, by rw [ecoreStartModules, holds.first enough]; exact runs, started,
    code ready.flag rfl, walks.stored⟩

theorem ecoreStartModules_outcome (ready : Ready fuel remaining s) :
    ∃ rc s', ecoreStartModules fuel s = some (rc, s') ∧ Started s s' := by
  obtain ⟨rc, s', _, runs, started, _⟩ := ecoreStartModules_walk ready
  exact ⟨rc, s', runs, started⟩

theorem Started.kept {s' : ModuleMemory} (started : Started s s') : Kept s s' := by
  obtain ⟨tree, modules, flag⟩ := started
  exact ⟨tree ▸ .refl _, fun p mod allocated => by rw [modules, allocated], flag⟩

end Start

inductive ModuleCall where
  | load (list : List ModuleListNode)
  | start

/-- How many modules a call may load. -/
def ModuleCall.loads : ModuleCall → Nat
  | .load list => list.length
  | .start => 0

def ModuleCall.Sized : ModuleCall → Prop
  | .load list => ∀ node ∈ list, node.Sized
  | .start => True

/-- A load that has returned. -/
structure Loading where
  before : ModuleMemory
  type : Nat
  code : ModuleCode
  after : ModuleMemory

section Runs

variable (loader : Loader) (malloc : Malloc) (fuel : Nat)

def ModuleCall.run : ModuleCall → ModuleMemory → Option (Option ModuleCode × ModuleMemory)
  | .load list, s => ecoreLoadModules loader malloc fuel list s
  | .start, s => (ecoreStartModules fuel s).map fun result => (some result.1, result.2)

/-- One call after the other, as long as the process runs. -/
def runModuleCalls : List ModuleCall → ModuleMemory → Option ModuleMemory
  | [], s => some s
  | call :: calls, s => do
    let (rc, s) ← call.run loader malloc fuel s
    if rc = none then some s else runModuleCalls calls s

/-- The loads of an `ecore_load_modules`. -/
def loadings : List ModuleListNode → ModuleMemory → List Loading
  | [], _ => []
  | node :: list, s =>
    match ecoreLoadModuleDummy loader malloc fuel (some node.name) (some node.path) node.type node.mode s with
    | some (some rc, after) => ⟨s, node.type, rc, after⟩ :: if rc = .ok then loadings list after else []
    | _ => []

def ModuleCall.loadings : ModuleCall → ModuleMemory → List Loading
  | .load list, s => Ecore.loadings loader malloc fuel list s
  | .start, _ => []

/-- The loads of a sequence of calls. -/
def callLoadings : List ModuleCall → ModuleMemory → List Loading
  | [], _ => []
  | call :: calls, s =>
    call.loadings loader malloc fuel s ++
      match call.run loader malloc fuel s with
      | some (some _, after) => callLoadings calls after
      | _ => []

end Runs

section Masters

variable {loader : Loader} {malloc : Malloc} {fuel remaining : Nat} {s s' : ModuleMemory} {key : Word}

/-- The module with this id is a master. -/
def MasterAt (fuel : Nat) (s : ModuleMemory) (key : Word) : Prop :=
  ∃ p mod, Bound fuel s.tree key p ∧ s.modules p = some mod ∧ mod.type = ECORE_MODULE_TYPE_MASTER

def OneMaster (fuel : Nat) (s : ModuleMemory) : Prop :=
  ∀ key key', MasterAt fuel s key → MasterAt fuel s key' → key = key'

/-- A master is loaded while the tree has one. -/
def Loading.SecondMaster (fuel : Nat) (loading : Loading) : Prop :=
  loading.type = ECORE_MODULE_TYPE_MASTER ∧ ∃ key, MasterAt fuel loading.before key

/-- A second master is refused. -/
def Loading.Refused (fuel : Nat) (loading : Loading) : Prop :=
  loading.SecondMaster fuel → loading.code = .multipleMasters ∧ Unchanged loading.before.tree loading.after.tree

private theorem MasterAt.of_kept (ready : Ready fuel remaining s) (kept : Kept s s') (master : MasterAt fuel s' key) :
    MasterAt fuel s key := by
  obtain ⟨p, mod, bound, allocated, type⟩ := master
  obtain ⟨shape, nodes, levels, holds, room⟩ := ready.tree
  have bound' := (bound_unchanged holds (show shape.labels.length < fuel by omega) kept.tree).mp bound
  obtain ⟨other, allocated', _⟩ := ready.module key p bound'
  obtain rfl : other = mod := Option.some.inj ((kept.modules p other allocated').symm.trans allocated)
  exact ⟨p, other, bound', allocated', type⟩

private theorem MasterAt.of_inserted {p : Word} {mod : EcoreModule} (ready : Ready fuel remaining s)
    (inserted : Inserted fuel s s' p mod) (master : MasterAt fuel s' key) :
    (key = mod.id ∧ mod.type = ECORE_MODULE_TYPE_MASTER) ∨ MasterAt fuel s key := by
  obtain ⟨q, other, bound, allocated, type⟩ := master
  rw [inserted.modules] at allocated
  rcases (inserted.bound key q).mp bound with ⟨rfl, rfl⟩ | old
  · rw [Function.update_self] at allocated
    exact .inl ⟨rfl, Option.some.inj allocated ▸ type⟩
  · right
    obtain ⟨there, allocated', _⟩ := ready.module key q old
    have different : q ≠ p := by
      rintro rfl
      rw [inserted.fresh] at allocated'
      cases allocated'
    rw [Function.update_of_ne different] at allocated
    exact ⟨q, other, old, allocated, type⟩

theorem OneMaster.kept (one : OneMaster fuel s) (ready : Ready fuel remaining s) (kept : Kept s s') :
    OneMaster fuel s' :=
  fun key key' master master' => one key key' (master.of_kept ready kept) (master'.of_kept ready kept)

theorem OneMaster.inserted {p : Word} {mod : EcoreModule} (one : OneMaster fuel s) (ready : Ready fuel remaining s)
    (inserted : Inserted fuel s s' p mod)
    (first : mod.type = ECORE_MODULE_TYPE_MASTER → ∀ key, ¬ MasterAt fuel s key) : OneMaster fuel s' := by
  intro key key' master master'
  rcases master.of_inserted ready inserted with ⟨rfl, type⟩ | old
  · rcases master'.of_inserted ready inserted with ⟨rfl, _⟩ | old'
    · rfl
    · exact absurd old' (first type key')
  · rcases master'.of_inserted ready inserted with ⟨rfl, type⟩ | old'
    · exact absurd old (first type key)
    · exact one key key' old old'

/-- What a number of loads, from `s` to `s'`, do to the masters. -/
structure MastersOf (fuel : Nat) (loadings : List Loading) (s s' : ModuleMemory) : Prop where
  notRefused : ∀ loading ∈ loadings, loading.code ≠ .multipleMasters
  one : OneMaster fuel s → (∀ loading ∈ loadings, ¬ loading.SecondMaster fuel) →
    OneMaster fuel s' ∧ ∀ loading ∈ loadings, OneMaster fuel loading.after

theorem MastersOf.kept (ready : Ready fuel remaining s) (kept : Kept s s') : MastersOf fuel [] s s' where
  notRefused _ member := absurd member List.not_mem_nil
  one one _ := ⟨one.kept ready kept, fun _ member => absurd member List.not_mem_nil⟩

theorem MastersOf.append {front back : List Loading} {s₁ : ModuleMemory} (first : MastersOf fuel front s s₁)
    (later : MastersOf fuel back s₁ s') : MastersOf fuel (front ++ back) s s' where
  notRefused := by
    intro loading member
    rcases List.mem_append.mp member with inFront | inBack
    · exact first.notRefused loading inFront
    · exact later.notRefused loading inBack
  one one allowed := by
    obtain ⟨one₁, front₁⟩ := first.one one fun loading member => allowed loading (List.mem_append_left _ member)
    obtain ⟨one', back'⟩ := later.one one₁ fun loading member => allowed loading (List.mem_append_right _ member)
    refine ⟨one', ?_⟩
    intro loading member
    rcases List.mem_append.mp member with inFront | inBack
    · exact front₁ loading inFront
    · exact back' loading inBack

/-- One load that is not that of a second master. -/
theorem MastersOf.single {type : Nat} {code : ModuleCode} (ready : Ready fuel remaining s)
    (notRefused : some code ≠ some .multipleMasters)
    (outcome : Kept s s' ∨ ∃ p mod, mod.type = type ∧ Inserted fuel s s' p mod) :
    MastersOf fuel [⟨s, type, code, s'⟩] s s' where
  notRefused := by
    rintro loading (_ | ⟨_, ⟨⟩⟩)
    exact fun refused => notRefused (congrArg some refused)
  one one allowed := by
    have first : OneMaster fuel s' := by
      rcases outcome with kept | ⟨p, mod, same, inserted⟩
      · exact one.kept ready kept
      · exact one.inserted ready inserted fun type key master =>
          allowed _ List.mem_cons_self ⟨same.symm.trans type, key, master⟩
    refine ⟨first, ?_⟩
    rintro loading (_ | ⟨_, ⟨⟩⟩)
    exact first

private theorem ecoreLoadModules_outcome (loader : Loader) (malloc : Malloc) (list : List ModuleListNode)
    (sized : ∀ node ∈ list, node.Sized) (ready : Ready fuel (list.length + remaining) s) :
    (ecoreLoadModules loader malloc fuel list s = none ∧ loader.Misprints) ∨
      ∃ rc s', ecoreLoadModules loader malloc fuel list s = some (rc, s') ∧ Ready fuel remaining s' ∧
        MastersOf fuel (loadings loader malloc fuel list s) s s' := by
  induction list generalizing s with
  | nil => exact .inr ⟨some .ok, s, rfl, ready.mono (by simp), .kept ready (.refl s)⟩
  | cons node list ih =>
      obtain ⟨name, path⟩ := sized node List.mem_cons_self
      rw [List.length_cons, Nat.add_right_comm] at ready
      simp only [ecoreLoadModules, loadings, Option.bind_eq_bind]
      rcases ecoreLoadModuleDummy_outcome loader malloc ready name path node.type node.mode with
        ⟨loads, misprints⟩ | ⟨rc, s₁, loads, ready₁, notRefused, outcome⟩
      · exact .inl ⟨by rw [loads, Option.bind_none], misprints⟩
      have fewer : Ready fuel remaining s₁ := ready₁.mono (Nat.le_add_left ..)
      simp only [loads, Option.bind_some]
      cases rc with
      | none =>
          rcases outcome with ⟨_, kept⟩ | ⟨ok, _⟩
          · exact .inr ⟨none, s₁, rfl, fewer, .kept ready kept⟩
          · cases ok
      | some code =>
          have single : MastersOf fuel [⟨s, node.type, code, s₁⟩] s s₁ :=
            .single ready notRefused (outcome.imp And.right And.right)
          by_cases ok : code = .ok
          · subst ok
            rcases ih (fun other member => sized other (List.mem_cons_of_mem _ member)) ready₁ with
              ⟨rest, misprints⟩ | ⟨rc', s', rest, ready', later⟩
            · exact .inl ⟨rest, misprints⟩
            · exact .inr ⟨rc', s', rest, ready', single.append later⟩
          · refine .inr ⟨some code, s₁, if_pos (fun same => ok (Option.some.inj same)), fewer, ?_⟩
            simpa only [if_neg ok] using single

private theorem runModuleCalls_outcome (malloc : Malloc) (prints : ¬ loader.Misprints) (calls : List ModuleCall)
    (sized : ∀ call ∈ calls, call.Sized) (ready : Ready fuel (calls.map ModuleCall.loads).sum s) :
    ∃ s', runModuleCalls loader malloc fuel calls s = some s' ∧ Ready fuel 0 s' ∧
      MastersOf fuel (callLoadings loader malloc fuel calls s) s s' := by
  induction calls generalizing s with
  | nil => exact ⟨s, rfl, ready, .kept ready (.refl s)⟩
  | cons call calls ih =>
      rw [List.map_cons, List.sum_cons] at ready
      have here : ∃ rc s₁, call.run loader malloc fuel s = some (rc, s₁) ∧
          Ready fuel (calls.map ModuleCall.loads).sum s₁ ∧
          MastersOf fuel (call.loadings loader malloc fuel s) s s₁ := by
        cases call with
        | load list =>
            exact (ecoreLoadModules_outcome loader malloc list (sized _ List.mem_cons_self) ready).resolve_left
              fun misprinted => prints misprinted.2
        | start =>
            obtain ⟨rc, s₁, runs, started⟩ := ecoreStartModules_outcome ready
            exact ⟨some rc, s₁, by simp [ModuleCall.run, runs], (ready.kept started.kept).mono (Nat.le_add_left ..),
              .kept ready started.kept⟩
      obtain ⟨rc, s₁, runs, ready₁, first⟩ := here
      simp only [runModuleCalls, callLoadings, runs, Option.bind_eq_bind, Option.bind_some]
      cases rc with
      | none => exact ⟨s₁, rfl, ready₁.mono (Nat.zero_le _), by simpa using first⟩
      | some code =>
          obtain ⟨s', rest, ready', later⟩ := ih (fun other member => sized other (List.mem_cons_of_mem _ member)) ready₁
          exact ⟨s', rest, ready', first.append later⟩

end Masters

/-- After an `init_module` that has got its tree. Nothing sets the flag. -/
def Initialised (malloc : Malloc) (s : ModuleMemory) : Prop :=
  ∃ before tree, 0 ∉ before.tree.live ∧ before.isMasterLoaded = false ∧
    rbtNewTree malloc true 0 0 before.tree = some (.ok, tree) ∧ initModule malloc before = some (some s)

theorem initModule_creates {malloc : Malloc} {before : ModuleMemory} {tree : RbMachine}
    (creates : rbtNewTree malloc true 0 0 before.tree = some (.ok, tree)) :
    initModule malloc before = some (some { before with tree }) := by
  simp only [initModule, creates, Option.bind_eq_bind, Option.bind_some, ne_eq, not_true_eq_false, and_false, if_false]

/-- The variables but the tree are as they were. -/
theorem Initialised.cases {malloc : Malloc} {s : ModuleMemory} (initialised : Initialised malloc s) :
    ∃ before : ModuleMemory, 0 ∉ before.tree.live ∧ before.isMasterLoaded = false ∧
      rbtNewTree malloc true 0 0 before.tree = some (.ok, s.tree) ∧ s = { before with tree := s.tree } := by
  obtain ⟨before, tree, good, flag, creates, inits⟩ := initialised
  obtain rfl : { before with tree } = s := Option.some.inj (Option.some.inj ((initModule_creates creates).symm.trans inits))
  exact ⟨before, good, flag, creates, rfl⟩

/-- The tree has no entry. -/
theorem Initialised.tree {malloc : Malloc} {s : ModuleMemory} (initialised : Initialised malloc s) :
    ∃ nodes, Holds s.tree .nil nodes 0 := by
  obtain ⟨before, good, _, creates, _⟩ := initialised.cases
  exact rbtNewTree_holds good creates

theorem Initialised.ready {malloc : Malloc} {s : ModuleMemory} {fuel remaining : Nat}
    (initialised : Initialised malloc s) (enough : remaining < fuel) :
    Ready fuel remaining s ∧ ∀ key, ¬ MasterAt fuel s key := by
  obtain ⟨nodes, holds⟩ := initialised.tree
  obtain ⟨before, _, flag, _, same⟩ := initialised.cases
  have empty : ∀ key p, ¬ Bound fuel s.tree key p := by
    intro key p bound
    have member := (holds.search_bound (by simpa using Nat.zero_lt_of_lt enough)).mp bound
    cases member
  refine ⟨⟨⟨.nil, nodes, 0, holds, by simpa using enough⟩, fun key p bound => absurd bound (empty key p), ?_⟩, ?_⟩
  · rw [same]
    exact flag
  rintro key ⟨p, _, bound, _⟩
  exact empty key p bound

/-- The tree has one master at most, and a second one is refused, in all runs that load no second master and in no
other. -/
theorem runModuleCalls_masters_iff (loader : Loader) (finds : loader.Finds) (malloc : Malloc)
    (calls : List ModuleCall) (sized : ∀ call ∈ calls, call.Sized) (fuel : Nat)
    (enough : (calls.map ModuleCall.loads).sum < fuel) (s : ModuleMemory) (initialised : Initialised malloc s) :
    ∃ s', runModuleCalls loader malloc fuel calls s = some s' ∧
      ((OneMaster fuel s' ∧ ∀ loading ∈ callLoadings loader malloc fuel calls s,
          OneMaster fuel loading.after ∧ loading.Refused fuel) ↔
        ∀ loading ∈ callLoadings loader malloc fuel calls s, ¬ loading.SecondMaster fuel) := by
  obtain ⟨ready, noMaster⟩ := initialised.ready enough
  obtain ⟨s', runs, _, masters⟩ := runModuleCalls_outcome malloc finds.prints calls sized ready
  refine ⟨s', runs, ?_⟩
  constructor
  · rintro ⟨_, good⟩ loading member second
    exact masters.notRefused loading member ((good loading member).2 second).1
  · intro noSecond
    obtain ⟨last, each⟩ := masters.one (fun key _ master => absurd master (noMaster key)) noSecond
    exact ⟨last, fun loading member => ⟨each loading member, fun second => absurd second (noSecond loading member)⟩⟩

/-- Two places for modules, and libraries that have everything. -/
def twoPlaces : Loader where
  calloc s := if (s.modules 16).isNone then some 16 else if (s.modules 32).isNone then some 32 else none
  fresh s p picked := by
    split at picked
    · next free =>
        cases picked
        exact ⟨by decide, Option.isNone_iff_eq_none.mp free⟩
    · split at picked
      · next free =>
          cases picked
          exact ⟨by decide, Option.isNone_iff_eq_none.mp free⟩
      · cases picked
  library _ := some ⟨true, true, true, true⟩
  stack := List.replicate 520 0
  stackLength := List.length_replicate

/-- A master named `a`. -/
def masterNode : ModuleListNode :=
  { ModuleListNode.zero with
    name := 97 :: List.replicate 259 0
    mode := ECORE_MODULE_MODE_PARALLEL
    type := ECORE_MODULE_TYPE_MASTER }

theorem masterNode_sized : masterNode.Sized := ⟨by decide +kernel, by decide +kernel⟩

def noModules : ModuleMemory := .start ((rbtNewTree .bump true 0 0 emptyMemory).get newTree_isSome).2

theorem noModules_initialised : Initialised .bump noModules :=
  ⟨.start emptyMemory, _, by simp [ModuleMemory.start, emptyMemory], rfl, rfl, rfl⟩

theorem runModuleCalls_masters_iff_one :
    ∃ s', runModuleCalls twoPlaces .bump 3 [.load [masterNode], .start] noModules = some s' ∧
      ((OneMaster 3 s' ∧ ∀ loading ∈ callLoadings twoPlaces .bump 3 [.load [masterNode], .start] noModules,
          OneMaster 3 loading.after ∧ loading.Refused 3) ↔
        ∀ loading ∈ callLoadings twoPlaces .bump 3 [.load [masterNode], .start] noModules,
          ¬ loading.SecondMaster 3) :=
  runModuleCalls_masters_iff twoPlaces (fun _ => rfl) .bump [.load [masterNode], .start]
    (by simp [ModuleCall.Sized, masterNode_sized]) 3 (by decide) noModules noModules_initialised

/-- A master is loaded twice. -/
theorem runModuleCalls_twoMasters : ¬ ∀ (loader : Loader), loader.Finds → ∀ (malloc : Malloc) (calls : List ModuleCall),
    (∀ call ∈ calls, call.Sized) → ∀ fuel, (calls.map ModuleCall.loads).sum < fuel →
      ∀ s s', Initialised malloc s → runModuleCalls loader malloc fuel calls s = some s' →
        OneMaster fuel s' ∧ ∀ loading ∈ callLoadings loader malloc fuel calls s,
          OneMaster fuel loading.after ∧ loading.Refused fuel := by
  intro all
  have finds : twoPlaces.Finds := fun _ => rfl
  have sized : ∀ call ∈ [ModuleCall.load [masterNode, masterNode]], call.Sized := by
    simp [ModuleCall.Sized, masterNode_sized]
  obtain ⟨nameLength, pathLength⟩ := masterNode_sized
  obtain ⟨ready, _⟩ := noModules_initialised.ready (show 2 < 3 by decide)
  obtain ⟨rc, s₁, loads, ready₁, _, outcome⟩ := (ecoreLoadModuleDummy_outcome twoPlaces .bump ready nameLength pathLength
    masterNode.type masterNode.mode).resolve_left fun misprinted => finds.prints misprinted.2
  obtain ⟨rc', s₂, loads', _, notRefused, _⟩ := (ecoreLoadModuleDummy_outcome twoPlaces .bump ready₁ nameLength
    pathLength masterNode.type masterNode.mode).resolve_left fun misprinted => finds.prints misprinted.2
  obtain ⟨s', runs, _⟩ := runModuleCalls_outcome .bump finds.prints _ sized ready
  obtain ⟨_, good⟩ := all twoPlaces finds .bump _ sized 3 (by decide) noModules s' noModules_initialised runs
  have codes : (loadings twoPlaces .bump 3 [masterNode, masterNode] noModules).map Loading.code = [.ok, .ok] := by
    decide +kernel
  simp only [loadings, loads] at codes
  obtain rfl : rc = some .ok := by
    rcases rc with _ | code
    · cases codes
    · exact congrArg some (List.cons.inj codes).1
  simp only [if_true, loads', List.map_cons, List.cons.injEq, true_and] at codes
  obtain ⟨code, rfl⟩ : ∃ code, rc' = some code := by
    rcases rc' with _ | code
    · cases codes
    · exact ⟨code, rfl⟩
  have second : (⟨s₁, masterNode.type, code, s₂⟩ : Loading) ∈
      callLoadings twoPlaces .bump 3 [.load [masterNode, masterNode]] noModules := by
    simp [callLoadings, ModuleCall.loadings, loadings, loads, loads']
  have master : ∃ key, MasterAt 3 s₁ key := by
    rcases outcome with ⟨fails, _⟩ | ⟨_, p, mod, same, inserted⟩
    · exact absurd (supplied_of_succeeds Malloc.bump_succeeds) (fails rfl).2
    · exact ⟨mod.id, p, mod, (inserted.bound mod.id p).mpr (.inl ⟨rfl, rfl⟩),
        by rw [inserted.modules, Function.update_self], same⟩
  exact notRefused (congrArg some ((good _ second).2 ⟨rfl, master⟩).1)

end GbfLibrary.Ecore
