import GbfLibrary.Ecore.Strings
import GbfLibrary.Memory.Machine

/-!
# The configuration file

`conf.c`: the text of a configuration becomes a list of modules.
-/

set_option autoImplicit false

namespace GbfLibrary.Ecore

open Memory Prog

def ECORE_MODULE_NAME_LEN : Nat := 260

def ECORE_MODULE_PATH_LEN : Nat := 260

/-- `ECORE_MODULE_LIST_NODE`. -/
structure ModuleListNode where
  name : Bytes
  path : Bytes
  mode : Nat
  type : Nat
  next : Addr
  prev : Addr

/-- The node as it comes from `calloc`. -/
def ModuleListNode.zero : ModuleListNode :=
  ⟨List.replicate ECORE_MODULE_NAME_LEN 0, List.replicate ECORE_MODULE_PATH_LEN 0, 0, 0, 0, 0⟩

inductive EcoreStatus where
  | ok
  | badConfigFile
  deriving DecidableEq

abbrev ModuleProg (α : Type) := Prog ModuleListNode Unit α

/-- `module_list_node_alloc`; it is `none` after `ecore_sys_terminate`, which does not return. -/
def moduleListNodeAlloc (malloc : Malloc) (name path : Bytes) (mode type : Nat) :
    ModuleProg (Option Addr) := do
  let out ← calloc malloc ModuleListNode.zero
  if out = 0 then return none
  else do
    match ecoreStrcpy ModuleListNode.zero.name ECORE_MODULE_NAME_LEN name,
        ecoreStrcpy ModuleListNode.zero.path ECORE_MODULE_PATH_LEN path with
    | some name, some path => do
      store out fun node => { node with name, path, mode, type }
      return some out
    | _, _ => fault

/-- `conf_strcpy_end_with_char`: what is in `dst` afterwards, of which `size` bytes are left. -/
def confStrcpyEndWithChar (needle needle2 : Byte) : Nat → Bytes → Bytes → Option Bytes
  | 0, dst, _ => some dst
  | 1, dst, _ => some dst
  | size + 2, _ :: dst, c :: src =>
      if c = 0 ∨ c = needle ∨ c = needle2 then some (0 :: dst)
      else (confStrcpyEndWithChar needle needle2 (size + 1) dst src).map (c :: ·)
  | _, _, _ => none

def ofChars (chars : List Char) : Bytes := chars.map fun c => BitVec.ofNat 8 c.toNat

def nameKey : Bytes := ofChars ['n', 'a', 'm', 'e', '=']

def pathKey : Bytes := ofChars ['p', 'a', 't', 'h', '=']

def modeKey : Bytes := ofChars ['m', 'o', 'd', 'e', '=']

def typeKey : Bytes := ofChars ['t', 'y', 'p', 'e', '=']

/-- What `parse_config_next_item` returns, and what it stores through its pointers. -/
structure NextItem where
  s : Bytes
  name : Bytes
  path : Bytes
  mode : Nat
  type : Nat
  deriving DecidableEq

/-- The search for the next key and the step over it. -/
def findKey (key s : Bytes) : Option (Option Bytes) := do
  let length ← ecoreStrlen s
  let found ← ecoreStrstr (unsigned (length + 1)) s (key ++ [0])
  return found.map (·.drop 5)

/-- The byte at `s` less `'0'`. A `char` is signed. -/
def digitAt (s : Bytes) : Option Nat :=
  s.head?.map fun c : Byte => unsigned (c.toInt - 48)

/-- `parse_config_next_item`; `name` and `path` are the two buffers. Nothing reads the buffers
after a null. -/
def parseConfigNextItem (conf name path : Bytes) : Option (Option NextItem) := do
  let some s ← findKey nameKey conf | return none
  let name ← confStrcpyEndWithChar 10 13 ECORE_MODULE_NAME_LEN name s
  let some s ← findKey pathKey s | return none
  let path ← confStrcpyEndWithChar 10 13 ECORE_MODULE_PATH_LEN path s
  let some s ← findKey modeKey s | return none
  let mode ← digitAt s
  let some s ← findKey typeKey s | return none
  let type ← digitAt s
  return some ⟨s, name, path, mode, type⟩

/-- The loop of `config_to_list`; `none` after `exit`. -/
def configToListLoop (malloc : Malloc) : Nat → NextItem → Addr → ModuleProg (Option Unit)
  | 0, _, _ => fault
  | fuel + 1, item, node =>
    match parseConfigNextItem item.s item.name item.path with
    | none => fault
    | some none => return some ()
    | some (some item) => do
      let tmp ← moduleListNodeAlloc malloc item.name item.path item.mode item.type
      match tmp with
      | none => return none
      | some tmp => do
        store node fun record => { record with next := tmp }
        store tmp fun record => { record with prev := node }
        configToListLoop malloc fuel item tmp

/-- `config_to_list` and what it stores through `list`; `none` after `exit`. The buffers `name`
and `path` are not initialised. -/
def configToList (malloc : Malloc) (fuel : Nat) (name path conf : Bytes) :
    ModuleProg (Option (EcoreStatus × Option Addr)) :=
  match parseConfigNextItem conf name path with
  | none => fault
  | some none => return some (.badConfigFile, none)
  | some (some item) => do
    let head ← moduleListNodeAlloc malloc item.name item.path item.mode item.type
    match head with
    | none => return none
    | some head => do
      let loop ← configToListLoop malloc fuel item head
      match loop with
      | none => return none
      | some () => return some (.ok, some head)

end GbfLibrary.Ecore
