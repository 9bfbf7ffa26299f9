import GbfLibrary.Ecore.ConfigFree
import GbfLibrary.Ecore.ModuleIds
import GbfLibrary.Ecore.ModuleList

/-!
# The start of the core

`core.c`: the file of the configuration is read, its modules are loaded, and all of them are started.
-/

set_option autoImplicit false

namespace GbfLibrary.Ecore

open Memory Rbtree Prog

def INVALID_FILE_SIZE : Nat := 4294967295

/-- A file that can be opened: what `GetFileSize` answers, and the bytes that `ReadFile` brings. -/
structure ConfFile where
  sizeLow : Nat
  sizeHigh : Nat
  read : Option Bytes

/-- `get_conf_content`: where the content is, and its bytes. -/
def getConfContent (malloc : Malloc) (file : Option ConfFile) : ModuleProg (Option (Addr × Bytes)) :=
  match file with
  | none => return none
  | some fd =>
    if fd.sizeLow = INVALID_FILE_SIZE ∧ fd.sizeHigh = 0 then return none
    else if fd.sizeHigh ≠ 0 then return none
    else do
      let out ← callocOther malloc
      if out = 0 then return none
      else
        match fd.read with
        | none => do
          freeOther out
          return none
        | some bytes =>
          if fd.sizeLow ≠ bytes.length then do
            freeOther out
            return none
          else return some (out, bytes)

/-- `ecore_load_modules`, from one node of the list to the next. -/
def loadModulesFrom (loader : Loader) (malloc : Malloc) (fuel : Nat) (lists : Machine ModuleListNode Unit) :
    Nat → Addr → ModuleMemory → Option (Option ModuleCode × ModuleMemory)
  | 0, _, _ => none
  | limit + 1, node, s =>
    if node = 0 then some (some .ok, s)
    else do
      let (n, _) ← (load node : ModuleProg ModuleListNode) lists
      let (rc, s) ← ecoreLoadModuleDummy loader malloc fuel (some n.name) (some n.path) n.type n.mode s
      if rc ≠ some .ok then some (rc, s) else loadModulesFrom loader malloc fuel lists limit n.next s

/-- The results of `ecore_start`. -/
inductive StartCode where
  | badConfigFile
  | modules (rc : ModuleCode)
  deriving DecidableEq

/-- What `ecore_start` does with a list; `none` after `ecore_sys_terminate`. -/
def loadAndStart (loader : Loader) (malloc : Malloc) (fuel : Nat) (lists : Machine ModuleListNode Unit) (list : Addr)
    (s : ModuleMemory) : Option (Option ModuleCode × ModuleMemory) := do
  let (rc, s) ← loadModulesFrom loader malloc fuel lists fuel list s
  if rc ≠ some .ok then some (rc, s)
  else do
    let (rc, s) ← ecoreStartModules fuel s
    some (some rc, s)

/-- `ecore_start` without the threads that it starts; `none` after `ecore_sys_terminate`. The arrays `name` and `path` of
`config_to_list` are not initialised. -/
def ecoreStart (loader : Loader) (malloc : Malloc) (fuel : Nat) (name path : Bytes) (file : Option ConfFile)
    (s : ModuleMemory) (lists : Machine ModuleListNode Unit) :
    Option (Option (StartCode × ModuleMemory × Machine ModuleListNode Unit)) := do
  match ← initModule malloc s with
  | none => some none
  | some s => do
    let (content, lists) ← getConfContent malloc file lists
    match content with
    | none => some (some (.badConfigFile, s, lists))
    | some (content, conf) => do
      let (parsed, lists) ← configToList malloc fuel name path conf lists
      match parsed with
      | none => some none
      | some (.badConfigFile, _) => do
        let ((), lists) ← freeOther content lists
        some (some (.badConfigFile, s, lists))
      | some (.ok, list) => do
        let list := list.getD 0
        let (rc, s) ← loadAndStart loader malloc fuel lists list s
        match rc with
        | none => some none
        | some rc => do
          let ((), lists) ← freeOther content lists
          let ((), lists) ← configListFree fuel list lists
          some (some (.modules rc, s, lists))

/-!
## What a configuration means
-/

/-- The module of an item. -/
def ModuleItem.module (item : ModuleItem) (library : Library) : EcoreModule where
  id := 0
  type := item.type
  runningMode := item.mode
  name := item.name ++ List.replicate (ECORE_MODULE_NAME_LEN - item.name.length) 0
  path := item.path ++ List.replicate (ECORE_MODULE_PATH_LEN - item.path.length) 0
  entry := true
  onload := library.onload
  onunload := library.onunload
  onmessage := library.onmessage
  onstart := library.onstart

/-- Whether an item can be loaded. The file of its library has its path and its name. -/
def Loader.verdict (loader : Loader) (item : ModuleItem) : ModuleCode :=
  match loader.library (item.path ++ item.name) with
  | none => .failToLoadLibrary
  | some library => checkModuleStatus (item.module library) false

/-- The items before the first one that cannot be loaded. -/
def Loader.accepted (loader : Loader) (items : List ModuleItem) : List ModuleItem :=
  items.takeWhile fun item => loader.verdict item = .ok

/-- The verdict on the first item that cannot be loaded. -/
def Loader.loadCode (loader : Loader) (items : List ModuleItem) : ModuleCode :=
  ((items.find? fun item => loader.verdict item ≠ .ok).map loader.verdict).getD .ok

/-- The types that modules can have. -/
def moduleTypes : List Nat := [ECORE_MODULE_TYPE_MASTER, ECORE_MODULE_TYPE_SLAVE, ECORE_MODULE_TYPE_SPRITE]

/-- The result for a list of items: all are loaded, and then all are started. -/
def Loader.startCode (loader : Loader) (items : List ModuleItem) : ModuleCode :=
  if loader.loadCode items ≠ .ok then loader.loadCode items
  else if ∀ item ∈ items, item.type.val ∈ moduleTypes then .ok
  else .errorTypeMode

/-- If the library of the first item that cannot be loaded is not there, `printf` does not take the name of its file for a
format with arguments. -/
def Loader.Prints (loader : Loader) (items : List ModuleItem) : Prop :=
  ∀ item, items.find? (fun item => loader.verdict item ≠ .ok) = some item →
    loader.verdict item = .failToLoadLibrary → printf (item.path ++ item.name) ≠ none

/-- Since `before`, these items have come into a new tree, under the next ids, in new modules at these places. -/
structure Populated (loader : Loader) (fuel : Nat) (before s : ModuleMemory) (items : List ModuleItem)
    (places : List Word) : Prop where
  index : s.moduleIndex = before.moduleIndex + BitVec.ofNat 32 items.length
  length : places.length = items.length
  fresh : ∀ p ∈ places, before.modules p = none
  others : ∀ p ∉ places, s.modules p = before.modules p
  stored : ∀ i (item : ModuleItem) p, items[i]? = some item → places[i]? = some p → ∃ library,
    loader.library (item.path ++ item.name) = some library ∧
      s.modules p = some { item.module library with id := before.moduleIndex + BitVec.ofNat 32 i }
  bound : ∀ key p, Bound fuel s.tree key p ↔ ∃ i, places[i]? = some p ∧ key = before.moduleIndex + BitVec.ofNat 32 i

/-- Memory for a number of modules beside those that there are. -/
def Loader.Room (loader : Loader) (before : ModuleMemory) (n : Nat) : Prop :=
  ∀ s (used : Finset Word), used.card < n → (∀ p ∉ used, s.modules p = before.modules p) → ∃ p, loader.calloc s = some p

private theorem getConfContent_reads {malloc : Malloc} {fd : ConfFile} {bytes : Bytes} {content : Addr}
    {s : Machine ModuleListNode Unit} (picked : malloc.pick (s.live ∪ s.others) s.callocs = some content)
    (valid : fd.sizeLow ≠ INVALID_FILE_SIZE) (small : fd.sizeHigh = 0) (read : fd.read = some bytes)
    (whole : fd.sizeLow = bytes.length) :
    getConfContent malloc (some fd) s =
      some (some (content, bytes), { s with others := insert content s.others, callocs := s.callocs + 1 }) := by
  obtain ⟨allocates, notNull, _⟩ := callocOther_some picked
  have noError : ¬ (fd.sizeLow = INVALID_FILE_SIZE ∧ fd.sizeHigh = 0) := fun error => valid error.1
  simp only [getConfContent, if_neg noError, if_neg (not_not.mpr small), bind_apply, allocates, andThen_some, read]
  rw [if_neg notNull, if_neg (not_not.mpr whole), pure_apply]

section Items

variable {loader : Loader} {malloc : Malloc} {fuel remaining limit : Nat} {before s s' : ModuleMemory}
  {item : ModuleItem} {node : ModuleListNode}

private theorem prepareModuleNames_item (stores : node.Stores item) :
    prepareModuleNames .zero node.name (some node.path) = some { EcoreModule.zero with
      name := item.name ++ List.replicate (ECORE_MODULE_NAME_LEN - item.name.length) 0
      path := item.path ++ List.replicate (ECORE_MODULE_PATH_LEN - item.path.length) 0 } := by
  have copies {field : Bytes} (plain : Plain field) : ecoreStrcpy (List.replicate 260 0) 260
      (field ++ List.replicate (260 - field.length) 0) = some (field ++ List.replicate (260 - field.length) 0) := by
    have short := plain.short
    have source : field ++ List.replicate (260 - field.length) 0 = field ++ 0 :: List.replicate (259 - field.length) 0 := by
      rw [← List.replicate_succ]
      congr 2
      omega
    rw [source, ecoreStrcpy_eq plain.noNul (by omega) (by rw [List.length_replicate]) _, ← source]
    exact congrArg some (filled_replicate (by omega))
  simp only [prepareModuleNames, stores.name, stores.path, EcoreModule.zero, ECORE_MODULE_NAME_LEN, ECORE_MODULE_PATH_LEN,
    copies item.plainName, copies item.plainPath, Option.bind_eq_bind, Option.bind_some]

/-- The file of the library of an item. -/
theorem fullName_item (loader : Loader) {mod : EcoreModule}
    (name : mod.name = item.name ++ List.replicate (ECORE_MODULE_NAME_LEN - item.name.length) 0)
    (path : mod.path = item.path ++ List.replicate (ECORE_MODULE_PATH_LEN - item.path.length) 0) :
    ∃ fullname, fullName loader.stack mod = some fullname ∧ cString fullname = item.path ++ item.name := by
  have room : loader.stack.length = 520 := loader.stackLength
  obtain ⟨shortName, noNulName⟩ : item.name.length ≤ 258 ∧ 0 ∉ item.name := ⟨item.plainName.short, item.plainName.noNul⟩
  obtain ⟨shortPath, noNulPath⟩ : item.path.length ≤ 258 ∧ 0 ∉ item.path := ⟨item.plainPath.short, item.plainPath.noNul⟩
  obtain ⟨n, isName⟩ : ∃ n, ECORE_MODULE_NAME_LEN - item.name.length = n + 1 :=
    ⟨259 - item.name.length, by unfold ECORE_MODULE_NAME_LEN; omega⟩
  obtain ⟨m, isPath⟩ : ∃ m, ECORE_MODULE_PATH_LEN - item.path.length = m + 1 :=
    ⟨259 - item.path.length, by unfold ECORE_MODULE_PATH_LEN; omega⟩
  rw [isName, List.replicate_succ] at name
  rw [isPath, List.replicate_succ] at path
  cases empty : item.path with
  | nil =>
      have copies : ecoreStrcpy loader.stack 520 mod.name = some (item.name ++ 0 :: loader.stack.drop (item.name.length + 1)) := by
        rw [name]
        exact ecoreStrcpy_eq noNulName (by omega) (by omega) (List.replicate n 0)
      refine ⟨item.name ++ 0 :: loader.stack.drop (item.name.length + 1), ?_, cString_append noNulName _⟩
      simpa [fullName, path, empty, ECORE_MODULE_PATH_LEN, ECORE_MODULE_NAME_LEN] using copies
  | cons c rest =>
      have first : mod.path.head? = some c := by rw [path, empty, List.cons_append, List.head?_cons]
      have notZero : c ≠ 0 := fun zero => noNulPath (by simp [empty, zero])
      have copies : ecoreStrcpy loader.stack 520 mod.path = some (item.path ++ 0 :: loader.stack.drop (item.path.length + 1)) := by
        rw [path]
        exact ecoreStrcpy_eq noNulPath (by omega) (by omega) (List.replicate m 0)
      have inside : 520 - item.path.length ≤ (0 :: loader.stack.drop (item.path.length + 1)).length := by
        rw [List.length_cons, List.length_drop]
        omega
      obtain ⟨behind, whole⟩ : ∃ behind, ecoreStrcat (item.path ++ 0 :: loader.stack.drop (item.path.length + 1)) 520
          mod.name = some (item.path ++ item.name ++ 0 :: behind) := by
        rw [ecoreStrcat_eq noNulPath (by omega), name, ecoreStrcpy_eq noNulName (by omega) inside, Option.map_some,
          ← List.append_assoc]
        exact ⟨_, rfl⟩
      have both : 0 ∉ item.path ++ item.name := by
        rw [List.mem_append]
        exact not_or.mpr ⟨noNulPath, noNulName⟩
      refine ⟨item.path ++ item.name ++ 0 :: behind, ?_, by rw [cString_append both, empty]⟩
      simp only [fullName, first, Option.bind_eq_bind, Option.bind_some]
      rw [if_pos notZero]
      simp only [ECORE_MODULE_PATH_LEN, ECORE_MODULE_NAME_LEN, Nat.reduceAdd, copies, Option.bind_some, whole]

theorem ModuleItem.module_terminated (item : ModuleItem) (library : Library) : (item.module library).Terminated := by
  have short := item.plainName.short
  have ends : (item.module library).name = item.name ++ 0 :: List.replicate (259 - item.name.length) 0 := by
    rw [← List.replicate_succ]
    exact congrArg (item.name ++ List.replicate · 0) (by unfold ECORE_MODULE_NAME_LEN; omega)
  have text : cString (item.module library).name = item.name := by rw [ends, cString_append item.plainName.noNul]
  exact ⟨⟨_, by rw [text]; exact ends⟩, by rw [text]; exact Nat.lt_of_le_of_lt short (by decide)⟩

/-- A key that is not in the tree can be inserted. -/
theorem rbtInsert_absent (succeeds : malloc.Succeeds) (ready : Ready fuel (remaining + 1) s) (key data : Word)
    (absent : ∀ q, ¬ Bound fuel s.tree key q) :
    ∃ old tree, rbtInsert malloc fuel key data false false s.tree = some ((.ok, old), tree) := by
  obtain ⟨shape, nodes, levels, holds, room⟩ := ready.tree
  obtain ⟨contents, binds⟩ := holds.sorted.exists_binds
  have unbound : contents key = none := by
    cases bound : contents key with
    | none => rfl
    | some q => exact absurd ((holds.search_bound (by omega)).mpr ((binds key q).mpr bound)) (absent q)
  obtain ⟨tree, _, _, _, runs, _⟩ := rbtInsert_serves key data false false (fun _ => supplied_of_succeeds succeeds) holds
    binds (show shape.labels.length + 1 < fuel by omega)
  simp only [Contents.insert, Bool.false_and, Bool.false_eq_true, if_false, unbound] at runs
  exact ⟨none, tree, runs⟩

private theorem insertModuleToTree_absent (succeeds : malloc.Succeeds) (ready : Ready fuel (remaining + 1) s) {p : Word}
    {mod : EcoreModule} (fresh : s.modules p = none) (terminated : mod.Terminated)
    (absent : ∀ q, ¬ Bound fuel s.tree s.moduleIndex q) :
    ∃ s', insertModuleToTree malloc fuel p (s.put p mod) = some (.ok, s') ∧ s'.moduleIndex = s.moduleIndex + 1 ∧
      Inserted fuel s s' p { mod with id := s.moduleIndex } ∧ Ready fuel remaining s' := by
  obtain ⟨old, tree, inserted⟩ := rbtInsert_absent succeeds ready s.moduleIndex p absent
  obtain ⟨rc, s', inserts, _, _, _, outcome⟩ := insertModuleToTree_outcome malloc ready fresh terminated
  have here : insertModuleToTree malloc fuel p (s.put p mod) = some (.ok, ⟨tree, Function.update s.modules p
      (some { mod with id := s.moduleIndex }), s.moduleIndex + 1, s.masterIndex, s.isMasterLoaded⟩) := by
    simp [insertModuleToTree, ModuleMemory.put, ready.flag, inserted]
  obtain ⟨rfl, rfl⟩ := Prod.mk.inj (Option.some.inj (inserts.symm.trans here))
  rcases outcome with ⟨fails, _⟩ | ⟨_, inserted', ready'⟩
  · exact absurd (supplied_of_succeeds succeeds) (fails rfl).2
  · exact ⟨_, here, rfl, inserted', ready'⟩

private theorem checkModuleStatus_ne_failToLoadLibrary (mod : EcoreModule) (loaded : Bool) :
    checkModuleStatus mod loaded ≠ .failToLoadLibrary := by
  unfold checkModuleStatus
  repeat' split
  all_goals decide

/-- The load of an item does what its verdict says. -/
theorem ecoreLoadModuleDummy_item (succeeds : malloc.Succeeds) (ready : Ready fuel (remaining + 1) s)
    (stores : node.Stores item) {p : Word} (picked : loader.calloc s = some p)
    (absent : ∀ q, ¬ Bound fuel s.tree s.moduleIndex q) :
    (loader.verdict item ≠ .ok ∧ ecoreLoadModuleDummy loader malloc fuel (some node.name) (some node.path) node.type
        node.mode s =
          if loader.verdict item = .failToLoadLibrary ∧ printf (item.path ++ item.name) = none then none
          else some (some (loader.verdict item), s)) ∨
      ∃ library s', loader.verdict item = .ok ∧ loader.library (item.path ++ item.name) = some library ∧
        ecoreLoadModuleDummy loader malloc fuel (some node.name) (some node.path) node.type node.mode s =
          some (some .ok, s') ∧ s'.moduleIndex = s.moduleIndex + 1 ∧
        Inserted fuel s s' p { item.module library with id := s.moduleIndex } ∧ Ready fuel remaining s' := by
  obtain ⟨_, fresh⟩ := loader.fresh s p picked
  have prepares := prepareModuleNames_item stores
  generalize isMod : ({ EcoreModule.zero with
      name := item.name ++ List.replicate (ECORE_MODULE_NAME_LEN - item.name.length) 0
      path := item.path ++ List.replicate (ECORE_MODULE_PATH_LEN - item.path.length) 0 } : EcoreModule) = mod at prepares
  have named : ∃ fullname, fullName loader.stack mod = some fullname ∧ cString fullname = item.path ++ item.name :=
    fullName_item loader (by rw [← isMod]) (by rw [← isMod])
  obtain ⟨fullname, whole, file⟩ := named
  cases found : loader.library (item.path ++ item.name) with
  | none =>
      have verdict : loader.verdict item = .failToLoadLibrary := by rw [Loader.verdict, found]
      refine .inl ⟨by rw [verdict]; decide, ?_⟩
      have entries : prepareModuleEntries loader mod =
          (printf (item.path ++ item.name)).map fun _ => (.failToLoadLibrary, mod) := by
        simp only [prepareModuleEntries, whole, file, found, Option.bind_eq_bind, Option.bind_some]
        cases printf (item.path ++ item.name) <;> rfl
      cases printed : printf (item.path ++ item.name) with
      | none => simp [ecoreLoadModuleDummy, picked, prepares, entries, printed, verdict]
      | some _ =>
          simp [ecoreLoadModuleDummy, picked, prepares, entries, printed, verdict, ecoreModuleFree_put s fresh]
  | some library =>
      have verdict : loader.verdict item = checkModuleStatus (item.module library) false := by rw [Loader.verdict, found]
      have entries : prepareModuleEntries loader mod = some (.ok, { mod with
          entry := true, onload := library.onload, onstart := library.onstart, onmessage := library.onmessage,
          onunload := library.onunload }) := by
        simp [prepareModuleEntries, whole, file, found]
      have filled : ({ mod with
          entry := true, onload := library.onload, onstart := library.onstart, onmessage := library.onmessage,
          onunload := library.onunload, type := node.type, runningMode := node.mode } : EcoreModule) =
            item.module library := by
        rw [← isMod, stores.type, stores.mode]
        rfl
      have terminated : (item.module library).Terminated := item.module_terminated library
      by_cases accepted : loader.verdict item = .ok
      · obtain ⟨s', inserts, index, inserted, ready'⟩ :=
          insertModuleToTree_absent succeeds ready fresh terminated absent
        refine .inr ⟨library, s', accepted, rfl, ?_, index, inserted, ready'⟩
        rw [verdict, ← ready.flag] at accepted
        simp [ecoreLoadModuleDummy, picked, prepares, entries, filled, accepted, inserts]
      · have there : loader.verdict item ≠ .failToLoadLibrary :=
          verdict ▸ checkModuleStatus_ne_failToLoadLibrary (item.module library) false
        refine .inl ⟨accepted, ?_⟩
        rw [if_neg fun missing => there missing.1]
        rw [verdict, ← ready.flag] at accepted ⊢
        simp [ecoreLoadModuleDummy, picked, prepares, entries, filled, accepted, ecoreModuleFree_put s fresh]

private theorem getElem?_snoc {α : Type} {xs : List α} {x y : α} {i : Nat} :
    (xs ++ [x])[i]? = some y ↔ xs[i]? = some y ∨ (i = xs.length ∧ y = x) := by
  rcases Nat.lt_trichotomy i xs.length with inside | rfl | beyond
  · simp [List.getElem?_append_left inside, Nat.ne_of_lt inside]
  · simp [eq_comm]
  · have outside : (xs ++ [x]).length ≤ i := by
      rw [List.length_append, List.length_singleton]
      omega
    rw [List.getElem?_eq_none outside, List.getElem?_eq_none beyond.le]
    simp [Nat.ne_of_gt beyond]

theorem Populated.lookup {items : List ModuleItem} {places : List Word}
    (populated : Populated loader fuel before s items places) {i : Nat} {p : Word} (here : places[i]? = some p) :
    i < items.length :=
  populated.length ▸ (List.getElem?_eq_some_iff.mp here).1

/-- The next id is free. -/
theorem Populated.absent {items : List ModuleItem} {places : List Word}
    (populated : Populated loader fuel before s items places) (short : items.length < 4294967296) (q : Word) :
    ¬ Bound fuel s.tree s.moduleIndex q := by
  intro bound
  obtain ⟨i, here, same⟩ := (populated.bound _ q).mp bound
  have inside := populated.lookup here
  rw [populated.index] at same
  have ids := congrArg BitVec.toNat ((BitVec.add_right_inj _).mp same)
  rw [BitVec.toNat_ofNat, BitVec.toNat_ofNat, Nat.mod_eq_of_lt short, Nat.mod_eq_of_lt (by omega)] at ids
  omega

/-- There is memory for one more. -/
theorem Populated.room {items : List ModuleItem} {places : List Word}
    (populated : Populated loader fuel before s items places) {n : Nat} (room : loader.Room before n)
    (fewer : items.length < n) : ∃ p, loader.calloc s = some p := by
  refine room s places.toFinset ((List.toFinset_card_le places).trans_lt (populated.length ▸ fewer)) ?_
  intro p outside
  exact populated.others p fun member => outside (List.mem_toFinset.mpr member)

theorem Populated.snoc {items : List ModuleItem} {places : List Word} {p : Word} {library : Library}
    (populated : Populated loader fuel before s items places)
    (found : loader.library (item.path ++ item.name) = some library) (index : s'.moduleIndex = s.moduleIndex + 1)
    (inserted : Inserted fuel s s' p { item.module library with id := s.moduleIndex }) :
    Populated loader fuel before s' (items ++ [item]) (places ++ [p]) := by
  have last : s.moduleIndex = before.moduleIndex + BitVec.ofNat 32 places.length := populated.length ▸ populated.index
  have keeps : ∀ q ≠ p, s'.modules q = s.modules q := fun q different => by
    rw [inserted.modules, Function.update_of_ne different]
  have outside : p ∉ places := by
    intro member
    obtain ⟨i, inside, isPlace⟩ := List.getElem_of_mem member
    obtain ⟨_, _, there⟩ := populated.stored i _ p (List.getElem?_eq_getElem (populated.length ▸ inside))
      (List.getElem?_eq_some_iff.mpr ⟨inside, isPlace⟩)
    rw [inserted.fresh] at there
    cases there
  constructor
  case index =>
    rw [index, populated.index, List.length_append, List.length_singleton, BitVec.ofNat_add, BitVec.add_assoc]
    rfl
  case length => simp [populated.length]
  case fresh =>
    intro q member
    rcases List.mem_append.mp member with old | new
    · exact populated.fresh q old
    · rw [List.mem_singleton.mp new, ← populated.others p outside, inserted.fresh]
  case others =>
    intro q elsewhere
    obtain ⟨notOld, notNew⟩ := not_or.mp fun member => elsewhere (List.mem_append.mpr member)
    rw [keeps q fun same => notNew (List.mem_singleton.mpr same), populated.others q notOld]
  case stored =>
    intro i other q isItem isPlace
    rcases getElem?_snoc.mp isItem with old | ⟨rfl, rfl⟩
    · rcases getElem?_snoc.mp isPlace with there | ⟨beyond, _⟩
      · obtain ⟨library', found', stored⟩ := populated.stored i other q old there
        have different : q ≠ p := fun same => outside (same ▸ List.mem_of_getElem? there)
        exact ⟨library', found', (keeps q different).trans stored⟩
      · have inside := (List.getElem?_eq_some_iff.mp old).1
        rw [beyond, populated.length] at inside
        exact absurd inside (Nat.lt_irrefl _)
    · rcases getElem?_snoc.mp isPlace with there | ⟨_, rfl⟩
      · exact absurd (populated.lookup there) (Nat.lt_irrefl _)
      · exact ⟨library, found, by rw [inserted.modules, Function.update_self, populated.index]⟩
  case bound =>
    intro key q
    rw [inserted.bound, populated.bound]
    simp only [getElem?_snoc, or_and_right, exists_or, and_assoc, exists_eq_left, last]
    exact or_comm.trans (or_congr_right and_comm)

/-- The first item decides, or those behind it. -/
theorem Loader.prints_cons {items : List ModuleItem} :
    loader.Prints (item :: items) ↔
      (loader.verdict item = .ok ∧ loader.Prints items) ∨
        (loader.verdict item ≠ .ok ∧
          ¬ (loader.verdict item = .failToLoadLibrary ∧ printf (item.path ++ item.name) = none)) := by
  unfold Loader.Prints
  by_cases accepted : loader.verdict item = .ok <;> simp [accepted]

/-- The loop loads the items before the first one that it cannot load. -/
theorem loadModulesFrom_items (succeeds : malloc.Succeeds) {n : Nat} (room : loader.Room before n)
    (short : n < 4294967296) {lists : Machine ModuleListNode Unit} {nodes : List Addr} {head : Addr}
    {items done : List ModuleItem} {places : List Word} (chain : Chain ModuleListNode.next lists head nodes)
    (stores : List.Forall₂ (fun a item => (lists.cell a).Stores item) nodes items) (enough : nodes.length < limit)
    (ready : Ready fuel (items.length + remaining) s) (populated : Populated loader fuel before s done places)
    (fits : done.length + items.length ≤ n) :
    (¬ loader.Prints items ∧ loadModulesFrom loader malloc fuel lists limit head s = none) ∨
      loader.Prints items ∧
        ∃ s' places', loadModulesFrom loader malloc fuel lists limit head s = some (some (loader.loadCode items), s') ∧
          Ready fuel remaining s' ∧ Populated loader fuel before s' (done ++ loader.accepted items) places' := by
  induction stores generalizing head limit s done places with
  | nil =>
      obtain ⟨limit, rfl⟩ : ∃ more, limit = more + 1 := ⟨limit - 1, by simp at enough; omega⟩
      obtain rfl : head = 0 := chain
      refine .inr ⟨by simp [Loader.Prints], s, places, ?_, ready.mono (by simp),
        by simpa [Loader.accepted] using populated⟩
      simp [loadModulesFrom, Loader.loadCode]
  | @cons a item nodes items here stores ih =>
      rw [List.length_cons] at enough fits
      obtain ⟨limit, rfl⟩ : ∃ more, limit = more + 1 := ⟨limit - 1, by omega⟩
      obtain ⟨rfl, notNull, live, beyond⟩ := chain
      rw [List.length_cons, Nat.add_right_comm] at ready
      obtain ⟨p, picked⟩ := populated.room room (by omega)
      rw [loadModulesFrom, if_neg notNull, load_apply live, Option.bind_eq_bind, Option.bind_some, Loader.prints_cons]
      rcases ecoreLoadModuleDummy_item succeeds ready here picked (populated.absent (by omega)) with
        ⟨refused, loads⟩ | ⟨library, s₁, accepted, found, loads, index, inserted, ready₁⟩
      · by_cases misprints : loader.verdict item = .failToLoadLibrary ∧ printf (item.path ++ item.name) = none
        · rw [if_pos misprints] at loads
          exact .inl ⟨by simp [misprints], by simp [loads]⟩
        · rw [if_neg misprints] at loads
          refine .inr ⟨.inr ⟨refused, misprints⟩, s, places, ?_, ready.mono (by omega), ?_⟩
          · simp [loads, refused, Loader.loadCode]
          · simpa [Loader.accepted, refused] using populated
      · have later := ih beyond (show nodes.length < limit by omega) ready₁ (populated.snoc found index inserted)
          (by rw [List.length_append, List.length_singleton]; omega)
        rcases later with ⟨misprints, runs⟩ | ⟨prints, s', places', runs, ready', populated'⟩
        · exact .inl ⟨by simp [accepted, misprints], by simpa [loads] using runs⟩
        · refine .inr ⟨.inl ⟨accepted, prints⟩, s', places', ?_, ready',
            by simpa [Loader.accepted, accepted] using populated'⟩
          simpa [loads, Loader.loadCode, accepted] using runs

/-- Before the first load there is no module in the tree. -/
theorem Initialised.populated (initialised : Initialised malloc s) (enough : 0 < fuel) :
    Populated loader fuel s s [] [] := by
  have empty := fun key p => initialised.empty enough (key, p)
  exact ⟨(BitVec.add_zero _).symm, rfl, fun _ member => absurd member List.not_mem_nil, fun _ _ => rfl,
    fun _ _ _ there => (by cases there), fun key p => iff_of_false (empty key p) (by simp)⟩

/-- The types of the modules are those of their items. -/
theorem Populated.startCode {items : List ModuleItem} {places : List Word}
    (populated : Populated loader fuel before s items places) {nodes : List Addr} {rc : ModuleCode} (outcome : StartOutcome s nodes rc)
    (bound : ∀ key p, Bound fuel s.tree key p ↔ ∃ a ∈ nodes, (s.tree.cell a).key = key ∧ (s.tree.cell a).data = p) :
    rc = if ∀ item ∈ items, item.type.val ∈ moduleTypes then .ok else .errorTypeMode := by
  have startable : ∀ (item : ModuleItem) library id,
      EcoreModule.Startable { item.module library with id } ↔ item.type.val ∈ moduleTypes := by
    intro item library id
    simp [EcoreModule.Startable, moduleTypes, ModuleItem.module]
  rcases outcome with ⟨rfl, all⟩ | ⟨rfl, a, member, mod, there, bad⟩
  · rw [if_pos]
    intro item member
    obtain ⟨i, inside, isItem⟩ := List.getElem_of_mem member
    have isPlace := List.getElem?_eq_getElem (populated.length ▸ inside)
    obtain ⟨library, _, there⟩ := populated.stored i item _ (List.getElem?_eq_some_iff.mpr ⟨inside, isItem⟩) isPlace
    obtain ⟨a, visited, _, data⟩ := (bound _ _).mp ((populated.bound _ _).mpr ⟨i, isPlace, rfl⟩)
    exact (startable item library _).mp (all a visited _ (data ▸ there))
  · rw [if_neg]
    intro all
    obtain ⟨i, isPlace, _⟩ := (populated.bound _ _).mp ((bound _ _).mpr ⟨a, member, rfl, rfl⟩)
    have inside := populated.lookup isPlace
    obtain ⟨library, _, there'⟩ := populated.stored i _ _ (List.getElem?_eq_getElem inside) isPlace
    rw [Option.some.inj (there.symm.trans there')] at bad
    exact bad ((startable _ library _).mpr (all _ (List.getElem_mem inside)))

theorem Loader.accepted_eq {items : List ModuleItem} (ok : loader.loadCode items = .ok) : loader.accepted items = items := by
  cases first : items.find? fun item => loader.verdict item ≠ .ok with
  | some item =>
      rw [Loader.loadCode, first] at ok
      exact absurd ok (by simpa using List.find?_some first)
  | none => simpa [Loader.accepted, List.takeWhile_eq_self_iff] using List.find?_eq_none.mp first

/-- The modules of a list are loaded and started. -/
theorem loadAndStart_items (succeeds : malloc.Succeeds) {lists : Machine ModuleListNode Unit} {nodes : List Addr}
    {head : Addr} {items : List ModuleItem} (room : loader.Room s items.length) (short : items.length < 4294967296)
    (chain : Chain ModuleListNode.next lists head nodes)
    (stores : List.Forall₂ (fun a item => (lists.cell a).Stores item) nodes items) (enough : items.length < fuel)
    (initialised : Initialised malloc s) :
    (¬ loader.Prints items ∧ loadAndStart loader malloc fuel lists head s = none) ∨
      loader.Prints items ∧
        ∃ s' places, loadAndStart loader malloc fuel lists head s = some (some (loader.startCode items), s') ∧
          Populated loader fuel s s' (loader.accepted items) places := by
  obtain ⟨ready, _⟩ := initialised.ready enough
  have loading := loadModulesFrom_items succeeds room short chain stores (by rwa [stores.length_eq])
    (ready.mono (Nat.le_of_eq (Nat.add_zero _))) (initialised.populated (Nat.zero_lt_of_lt enough)) (by simp)
  rcases loading with ⟨misprints, loads⟩ | ⟨prints, s₁, places, loads, ready₁, populated⟩
  · exact .inl ⟨misprints, by simp [loadAndStart, loads]⟩
  refine .inr ⟨prints, ?_⟩
  rw [List.nil_append] at populated
  by_cases loaded : loader.loadCode items = .ok
  · obtain ⟨rc, s', visited, starts, started, outcome, bound⟩ := ecoreStartModules_walk ready₁
    have index := ecoreStartModules_index starts
    rw [Loader.accepted_eq loaded] at populated ⊢
    refine ⟨s', places, ?_, ?_⟩
    · have code : rc = loader.startCode items := by
        rw [Loader.startCode, if_neg (not_not.mpr loaded)]
        exact populated.startCode outcome bound
      simp [loadAndStart, loads, loaded, starts, code]
    · obtain ⟨tree, modules, _⟩ := started
      exact ⟨index.trans populated.index, populated.length, populated.fresh, modules ▸ populated.others,
        modules ▸ populated.stored, tree ▸ populated.bound⟩
  · refine ⟨s₁, places, ?_, populated⟩
    simp [loadAndStart, loads, loaded, Loader.startCode]

end Items

private theorem length_le_configText (groups : List Group) : groups.length ≤ (configText groups).length := by
  induction groups with
  | nil => simp
  | cons group groups ih =>
      have text : 0 < group.text.length := by
        simp only [Group.text, Group.back, List.length_append, List.length_singleton]
        omega
      rw [configText, List.flatMap_cons, List.length_append, List.length_cons]
      exact (Nat.add_le_add ih text).trans (Nat.add_comm ..).le

/-- The modules of a configuration that is written as it should be and ends in a null byte, when no allocation fails:
those before the first one that cannot be loaded are there in their order, the result says what the configuration means,
and the memory for the file and the list is free again. It does not return if `printf` takes the name of the file of a
missing library for a format with arguments. -/
theorem ecoreStart_loads (loader : Loader) (malloc : Malloc) (succeeds : malloc.Succeeds) (groups : List Group)
    (nonempty : groups ≠ []) (short : (configText groups).length < 2147483647) (before : ModuleMemory)
    (good : 0 ∉ before.tree.live) (flag : before.isMasterLoaded = false) (room : loader.Room before groups.length)
    (name path : Bytes) (nameRoom : name.length = ECORE_MODULE_NAME_LEN) (pathRoom : path.length = ECORE_MODULE_PATH_LEN)
    (fuel : Nat) (enough : groups.length < fuel) (lists : Machine ModuleListNode Unit) :
    let file : ConfFile := ⟨(configText groups).length + 1, 0, some (configText groups ++ [0])⟩
    let items := groups.map Group.item
    (¬ loader.Prints items ∧ ecoreStart loader malloc fuel name path (some file) before lists = none) ∨
      loader.Prints items ∧
        ∃ s lists' places, ecoreStart loader malloc fuel name path (some file) before lists =
            some (some (.modules (loader.startCode items), s, lists')) ∧
          Populated loader fuel before s (loader.accepted items) places ∧
          lists'.live = lists.live ∧ lists'.others = lists.others := by
  intro file items
  obtain ⟨tree, _, creates, _⟩ := rbtNewTree_apply succeeds before.tree good 0 0
  have inits := initModule_creates creates
  have initialised : Initialised malloc { before with tree } := ⟨before, tree, good, flag, creates, inits⟩
  obtain ⟨content, picked⟩ := succeeds (lists.live ∪ lists.others) lists.callocs
  obtain ⟨allocates, notNull, outside, fresh⟩ := callocOther_some picked
  generalize isAfter : ({ lists with others := insert content lists.others, callocs := lists.callocs + 1 } :
    Machine ModuleListNode Unit) = after at allocates
  have reads : getConfContent malloc (some file) lists = some (some (content, configText groups ++ [0]), after) := by
    rw [← isAfter]
    exact getConfContent_reads picked (show (configText groups).length + 1 ≠ 4294967295 by omega) rfl rfl (by simp [file])
  obtain ⟨outcome, parsed, parses, serves, _⟩ := configToList_parses malloc groups nonempty
    (short.trans (by decide)) name path nameRoom pathRoom fuel enough.le after
  obtain ⟨head, nodes, rfl, nodup, linked, stores⟩ := serves (succeeds.serves _ _)
  obtain ⟨nodes', ⟨chain, nodup', unused, live⟩, others⟩ := configToList_listed parses
  obtain rfl : nodes' = nodes := chain.unique linked.chain
  have stores' : List.Forall₂ (fun a item => (parsed.cell a).Stores item) nodes' items := by
    rwa [List.forall₂_map_right_iff]
  have few := length_le_configText groups
  have length : items.length = groups.length := List.length_map _
  have starting := loadAndStart_items (s := { before with tree }) succeeds (by rwa [length]) (by omega) chain stores'
    (by rwa [length]) initialised
  rcases starting with ⟨misprints, starts⟩ | ⟨prints, s, places, starts, populated⟩
  · refine .inl ⟨misprints, ?_⟩
    rw [ecoreStart, inits]
    simp only [Option.bind_eq_bind, Option.bind_some, reads, parses, Option.getD_some, starts, Option.bind_none]
  refine .inr ⟨prints, ?_⟩
  have held : content ∈ parsed.others := by
    rw [others, ← isAfter]
    exact Finset.mem_insert_self ..
  let freed : Machine ModuleListNode Unit := { parsed with others := parsed.others.erase content }
  have chain' : Chain ModuleListNode.next freed head nodes' := (Chain.readsNodes _ head nodes' parsed freed (.refl _ _)).mp chain
  obtain ⟨lists', (frees : configListFree fuel head freed = _), live', others', _⟩ := chain'.freeChain nodup
    (show nodes'.length < fuel by rwa [stores.length_eq])
  refine ⟨s, lists', places, ?_, ⟨populated.index, populated.length, populated.fresh, populated.others, populated.stored,
    populated.bound⟩, ?_, ?_⟩
  · have freeContent : freeOther content parsed = some ((), freed) := by rw [freeOther, if_neg notNull, if_pos held]
    rw [ecoreStart, inits]
    simp only [Option.bind_eq_bind, Option.bind_some, reads, parses, Option.getD_some, starts, freeContent, frees]
  · rw [live', show freed.live = parsed.live from rfl, live, ← isAfter]
    refine Finset.union_sdiff_cancel_right (Finset.disjoint_left.mpr fun a old member => ?_)
    rw [← isAfter] at unused
    exact unused a (List.mem_toFinset.mp member) old
  · rw [others', show freed.others = parsed.others.erase content from rfl, others, ← isAfter]
    exact Finset.erase_insert fresh

private theorem twoPlaces_room : twoPlaces.Room (.start emptyMemory) 2 := by
  intro s used few all
  have calloc : twoPlaces.calloc s =
      if (s.modules 16).isNone then some 16 else if (s.modules 32).isNone then some 32 else none := rfl
  have free {p : Word} (outside : p ∉ used) : s.modules p = none := all p outside
  by_cases first : (16 : Word) ∈ used
  · by_cases second : (32 : Word) ∈ used
    · have pair : {16, 32} ⊆ used := by
        intro p member
        rcases Finset.mem_insert.mp member with rfl | last
        · exact first
        · exact Finset.mem_singleton.mp last ▸ second
      exact absurd (Finset.card_le_card pair) (by rw [Finset.card_pair (by decide)]; omega)
    · rw [calloc, free second]
      split
      · exact ⟨16, rfl⟩
      · exact ⟨32, rfl⟩
  · exact ⟨16, by rw [calloc, free first]; rfl⟩

/-- A master and a slave. -/
def twoGroups : List Group :=
  [⟨⟨[97], [46, 47], 2, 1, ⟨by decide, by decide, by decide, by decide, by decide⟩,
      ⟨by decide, by decide, by decide, by decide, by decide⟩⟩, false, false, false, false⟩,
    ⟨⟨[98, 97], [], 2, 2, ⟨by decide, by decide, by decide, by decide, by decide⟩,
      ⟨by decide, by decide, by decide, by decide, by decide⟩⟩, true, true, true, true⟩]

/-- Their libraries are there. -/
theorem twoGroups_prints : twoPlaces.Prints (twoGroups.map Group.item) := by
  intro item first
  have all : (twoGroups.map Group.item).find? (fun item => twoPlaces.verdict item ≠ .ok) = none := by decide +kernel
  rw [all] at first
  cases first

theorem ecoreStart_loads_two :
    ∃ s lists' places, ecoreStart twoPlaces .bump 3 (List.replicate ECORE_MODULE_NAME_LEN 7)
        (List.replicate ECORE_MODULE_PATH_LEN 7)
        (some ⟨(configText twoGroups).length + 1, 0, some (configText twoGroups ++ [0])⟩) (.start emptyMemory)
        ⟨∅, ∅, fun _ => ModuleListNode.zero, (), 0⟩ =
          some (some (.modules (twoPlaces.startCode (twoGroups.map Group.item)), s, lists')) ∧
      Populated twoPlaces 3 (.start emptyMemory) s (twoPlaces.accepted (twoGroups.map Group.item)) places ∧
      lists'.live = ∅ ∧ lists'.others = ∅ := by
  have starts := ecoreStart_loads twoPlaces .bump Malloc.bump_succeeds twoGroups (by decide) (by decide)
    (.start emptyMemory) (by simp [ModuleMemory.start, emptyMemory]) rfl twoPlaces_room
    (List.replicate ECORE_MODULE_NAME_LEN 7) (List.replicate ECORE_MODULE_PATH_LEN 7) List.length_replicate
    List.length_replicate 3 (by decide) ⟨∅, ∅, fun _ => ModuleListNode.zero, (), 0⟩
  rcases starts with ⟨misprints, _⟩ | ⟨_, loaded⟩
  · exact absurd twoGroups_prints misprints
  · exact loaded

example : twoPlaces.startCode (twoGroups.map Group.item) = .ok := by decide +kernel

/-- Nothing ends the content of a file: if it has no null byte, `config_to_list` reads on behind it. -/
theorem ecoreStart_unterminated (loader : Loader) (malloc : Malloc) (succeeds : malloc.Succeeds) (fuel : Nat)
    (name path bytes : Bytes) (noNul : 0 ∉ bytes) (short : bytes.length < 2147483648) (before : ModuleMemory)
    (good : 0 ∉ before.tree.live) (lists : Machine ModuleListNode Unit) :
    ecoreStart loader malloc fuel name path (some ⟨bytes.length, 0, some bytes⟩) before lists = none := by
  obtain ⟨tree, _, creates, _⟩ := rbtNewTree_apply succeeds before.tree good 0 0
  obtain ⟨content, picked⟩ := succeeds (lists.live ∪ lists.others) lists.callocs
  have reads : getConfContent malloc (some ⟨bytes.length, 0, some bytes⟩) lists = _ :=
    getConfContent_reads picked (show bytes.length ≠ 4294967295 by omega) rfl rfl rfl
  have runsOn : parseConfigNextItem bytes name path = none := by
    simp [parseConfigNextItem, findKey, ecoreStrlen_none noNul]
  rw [ecoreStart, initModule_creates creates]
  simp only [Option.bind_eq_bind, Option.bind_some, reads, configToList, runsOn]
  rfl

end GbfLibrary.Ecore
