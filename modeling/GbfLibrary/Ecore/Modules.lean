import GbfLibrary.Ecore.Config
import GbfLibrary.Rbtree.Walk

/-!
# The modules

`module.c`: the tree of the modules that are loaded. The calls are made one after another, so that their
lock is always free.
-/

set_option autoImplicit false

namespace GbfLibrary.Ecore

open Memory Rbtree

def ECORE_MODULE_TYPE_MASTER : Nat := 1
def ECORE_MODULE_TYPE_SLAVE : Nat := 2
def ECORE_MODULE_TYPE_SPRITE : Nat := 3

def ECORE_MODULE_MODE_PARALLEL : Nat := 2

/-- The `ECORE_CODE_…` results of the calls on modules. -/
inductive ModuleCode where
  | ok
  | invParam
  | failToLoadLibrary
  | failToInsertMod
  | multipleMasters
  | errorTypeMode
  | badModuleOnload
  | badModuleOnstart
  | badModuleOnmsg
  | badModuleOnunload
  deriving DecidableEq

/-- `ECORE_MODULE` without the handle of its thread; of the pointers, whether they are not null. -/
structure EcoreModule where
  id : Word
  type : Nat
  runningMode : Nat
  name : Bytes
  path : Bytes
  entry : Bool
  onload : Bool
  onunload : Bool
  onmessage : Bool
  onstart : Bool

/-- The module as it comes from `calloc`. -/
def EcoreModule.zero : EcoreModule :=
  ⟨0, 0, 0, List.replicate ECORE_MODULE_NAME_LEN 0, List.replicate ECORE_MODULE_PATH_LEN 0, false, false, false,
    false, false⟩

/-- The variables of `module.c`, and the modules that are allocated. -/
structure ModuleMemory where
  tree : RbMachine
  modules : Word → Option EcoreModule
  moduleIndex : Word
  masterIndex : Word
  isMasterLoaded : Bool

/-- Which of the four functions a library exports. -/
structure Library where
  onload : Bool
  onstart : Bool
  onmessage : Bool
  onunload : Bool

/-- What `calloc` and `ecore_load_library` answer, and what is on the stack where `fullname` is. -/
structure Loader where
  calloc : ModuleMemory → Option Word
  fresh : ∀ s p, calloc s = some p → p ≠ 0 ∧ s.modules p = none
  library : Bytes → Option Library
  stack : Bytes
  stackLength : stack.length = ECORE_MODULE_PATH_LEN + ECORE_MODULE_NAME_LEN

/-- The string at the start of a buffer. -/
def cString (buffer : Bytes) : Bytes := buffer.takeWhile (· ≠ 0)

/-- The variables as the program has them when it starts, with this memory. -/
def ModuleMemory.start (tree : RbMachine) : ModuleMemory := ⟨tree, fun _ => none, 1, -1, false⟩

/-- `init_module`, without the lock and the thread of the master; `none` after `ecore_sys_terminate`. The pointer
`__module_tree` is the address of the header, and a tree that was there stays if there is no memory for another one. -/
def initModule (malloc : Malloc) (s : ModuleMemory) : Option (Option ModuleMemory) := do
  let (status, tree) ← rbtNewTree malloc true 0 0 s.tree
  if tree.glob.self = 0 ∧ status ≠ .ok then some none else some (some { s with tree })

def ModuleMemory.put (s : ModuleMemory) (p : Word) (module : EcoreModule) : ModuleMemory :=
  { s with modules := Function.update s.modules p (some module) }

/-- `ecore_module_free`. -/
def ecoreModuleFree (p : Word) (s : ModuleMemory) : ModuleMemory :=
  { s with modules := Function.update s.modules p none }

def prepareModuleNames (p : EcoreModule) (name : Bytes) (path : Option Bytes) : Option EcoreModule := do
  let name ← ecoreStrcpy p.name ECORE_MODULE_NAME_LEN name
  match path with
  | none => some { p with name }
  | some path => do
    let path ← ecoreStrcpy p.path ECORE_MODULE_PATH_LEN path
    some { p with name, path }

/-- The `fullname` of `prepare_module_entries`. -/
def fullName (stack : Bytes) (p : EcoreModule) : Option Bytes := do
  let size := ECORE_MODULE_PATH_LEN + ECORE_MODULE_NAME_LEN
  let first ← p.path.head?
  if first ≠ 0 then do
    let fullname ← ecoreStrcpy stack size p.path
    ecoreStrcat fullname size p.name
  else ecoreStrcpy stack size p.name

/-- `printf` with this text as its format and no further argument. A conversion would read an argument that is not
there; `%%` is none. -/
def printf : Bytes → Option Unit
  | [] => some ()
  | c :: rest =>
    if c ≠ 37 then printf rest
    else
      match rest with
      | [] => none
      | c' :: rest => if c' = 37 then printf rest else none

/-- `prepare_module_entries`. The name of a library that is not there is printed. -/
def prepareModuleEntries (loader : Loader) (p : EcoreModule) : Option (ModuleCode × EcoreModule) := do
  let fullname ← fullName loader.stack p
  match loader.library (cString fullname) with
  | none => do
    printf (cString fullname)
    some (.failToLoadLibrary, p)
  | some library => some (.ok, { p with
      entry := true, onload := library.onload, onstart := library.onstart, onmessage := library.onmessage,
      onunload := library.onunload })

def checkModuleStatus (p : EcoreModule) (isMasterLoaded : Bool) : ModuleCode :=
  if p.type = ECORE_MODULE_TYPE_SLAVE ∧ p.runningMode ≠ ECORE_MODULE_MODE_PARALLEL then .errorTypeMode
  else if p.onload = false then .badModuleOnload
  else if p.onmessage = false then .badModuleOnmsg
  else if p.onstart = false then .badModuleOnstart
  else if p.onunload = false then .badModuleOnunload
  else if p.type = ECORE_MODULE_TYPE_MASTER ∧ isMasterLoaded then .multipleMasters
  else .ok

/-- `insert_module_to_tree`. It passes no `old_data` to `rbt_insert`, which does not read it without `is_update`. -/
def insertModuleToTree (malloc : Malloc) (fuel : Nat) (p : Word) (s : ModuleMemory) :
    Option (ModuleCode × ModuleMemory) := do
  let module ← s.modules p
  if module.type = ECORE_MODULE_TYPE_MASTER ∧ s.isMasterLoaded then some (.multipleMasters, s)
  else do
    let id := s.moduleIndex
    let s := { s.put p { module with id } with moduleIndex := s.moduleIndex + 1 }
    let (result, tree) ← rbtInsert malloc fuel id p false false s.tree
    some (if result.1 = .ok then .ok else .failToInsertMod, { s with tree })

/-- `ecore_load_module_dummy`; the code is `none` after `ecore_sys_terminate`, which does not return. -/
def ecoreLoadModuleDummy (loader : Loader) (malloc : Malloc) (fuel : Nat) (name path : Option Bytes)
    (type mode : Nat) (s : ModuleMemory) : Option (Option ModuleCode × ModuleMemory) :=
  match name with
  | none => some (some .invParam, s)
  | some name =>
    match loader.calloc s with
    | none => some (none, s)
    | some p => do
      let module ← prepareModuleNames .zero name path
      let (rc, module) ← prepareModuleEntries loader module
      if rc ≠ .ok then some (some rc, ecoreModuleFree p (s.put p module))
      else do
        let module := { module with type, runningMode := mode }
        let rc := checkModuleStatus module s.isMasterLoaded
        if rc ≠ .ok then some (some rc, ecoreModuleFree p (s.put p module))
        else do
          let (rc, s) ← insertModuleToTree malloc fuel p (s.put p module)
          if rc ≠ .ok then some (some rc, ecoreModuleFree p s) else some (some rc, s)

def ecoreLoadModules (loader : Loader) (malloc : Malloc) (fuel : Nat) :
    List ModuleListNode → ModuleMemory → Option (Option ModuleCode × ModuleMemory)
  | [], s => some (some .ok, s)
  | node :: list, s => do
    let (rc, s) ← ecoreLoadModuleDummy loader malloc fuel (some node.name) (some node.path) node.type node.mode s
    if rc ≠ some .ok then some (rc, s) else ecoreLoadModules loader malloc fuel list s

/-- The loop of `get_module_index`. -/
def findModule (modules : Word → Option EcoreModule) (fuel : Nat) (moduleName : Bytes) : Nat → Addr → RbProg Int
  | 0, _ => Prog.fault
  | limit + 1, node =>
    if node = 0 then return -1
    else (do
      let n ← Prog.load node
      match modules n.data with
      | none => Prog.fault
      | some mod =>
        match ecoreStrcmp mod.name moduleName ECORE_MODULE_NAME_LEN with
        | none => Prog.fault
        | some differs =>
          if differs = 0 then return n.key.toInt
          else (do
            let next ← rbtNext fuel node
            findModule modules fuel moduleName limit next))

def getModuleIndex (fuel : Nat) (moduleName : Bytes) (s : ModuleMemory) : Option (Int × ModuleMemory) := do
  let (index, tree) ← (do
    let first ← rbtFirst fuel s.tree.glob.root
    findModule s.modules fuel moduleName fuel first : RbProg Int) s.tree
  some (index, { s with tree })

/-- `start_module_onload`, without what the module does in its `onload`. -/
def startModuleOnload (mod : EcoreModule) (index : Word) (s : ModuleMemory) : ModuleCode × ModuleMemory :=
  if mod.type = ECORE_MODULE_TYPE_MASTER then (.ok, { s with masterIndex := index })
  else if mod.type = ECORE_MODULE_TYPE_SLAVE ∨ mod.type = ECORE_MODULE_TYPE_SPRITE then (.ok, s)
  else (.errorTypeMode, s)

/-- The loop of `ecore_start_modules`, without the threads that it starts. -/
def startLoop (fuel : Nat) : Nat → Addr → ModuleCode → ModuleMemory → Option (ModuleCode × ModuleMemory)
  | 0, _, _, _ => none
  | limit + 1, node, rc, s =>
    if node = 0 then some (rc, s)
    else do
      let (n, tree) ← (Prog.load node : RbProg Rbtree.Node) s.tree
      let mod ← s.modules n.data
      let (rc, s) := startModuleOnload mod n.key { s with tree }
      if rc ≠ .ok ∧ s.isMasterLoaded = false then some (rc, s)
      else do
        let (next, tree) ← rbtNext fuel node s.tree
        startLoop fuel limit next rc { s with tree }

def ecoreStartModules (fuel : Nat) (s : ModuleMemory) : Option (ModuleCode × ModuleMemory) := do
  let (first, tree) ← rbtFirst fuel s.tree.glob.root s.tree
  startLoop fuel fuel first .ok { s with tree }

end GbfLibrary.Ecore
