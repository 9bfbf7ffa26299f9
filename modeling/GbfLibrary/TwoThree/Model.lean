import GbfLibrary.Errno
import GbfLibrary.Memory.Machine

/-!
# The 2-3 tree

`lbs_23tree.c` as the Win32 build compiles it: `unsigned long` keys and `void*`
values are 32 bits wide. An assertion that does not hold is a fault. The calls
get a tree, and a search a place for the value, that are not null.
-/

set_option autoImplicit false

namespace GbfLibrary.TwoThree

open Memory Prog

/-- A 32-bit machine word: a key or a value. -/
abbrev Word := BitVec 32

def INVALID_KEY_VALUE : Word := 0xFFFFFFFF

/-- `lbs_23tree_node_t`. -/
structure Node where
  isroot : Int
  parent : Addr
  lchild : Addr
  mchild : Addr
  mchild2 : Addr
  rchild : Addr
  lkey : Word
  lvalue : Word
  rkey : Word
  rvalue : Word
  deriving DecidableEq

/-- What `calloc` returns. -/
def Node.zero : Node := ⟨0, 0, 0, 0, 0, 0, 0, 0, 0, 0⟩

/-- `lbs_23tree_t`, with the address `slot` of its field `root`. -/
structure Header where
  slot : Addr
  nodeCount : Int
  level : Int
  root : Addr
  deriving DecidableEq

abbrev TreeMachine := Machine Node Header
abbrev TreeProg (α : Type) := Prog Node Header α

/-!
## Macros
-/

def Node.isLeaf (n : Node) : Bool := n.lchild == 0
def Node.isTri (n : Node) : Bool := n.lkey != INVALID_KEY_VALUE && n.rkey != INVALID_KEY_VALUE
def Node.isRoot (n : Node) : Bool := n.isroot == 1

/-- The key and value fields of a node come in two pairs. -/
inductive Side where
  | l
  | r
  deriving DecidableEq

def Node.key (n : Node) : Side → Word
  | .l => n.lkey
  | .r => n.rkey

def Node.value (n : Node) : Side → Word
  | .l => n.lvalue
  | .r => n.rvalue

def Node.setKey (n : Node) : Side → Word → Node
  | .l, key => { n with lkey := key }
  | .r, key => { n with rkey := key }

def Node.setValue (n : Node) : Side → Word → Node
  | .l, value => { n with lvalue := value }
  | .r, value => { n with rvalue := value }

/-- `SWAP_KEY_VALUE` on two keys: three exclusive-or assignments. -/
def swapKey (a : Addr) (x : Side) (b : Addr) (y : Side) : TreeProg Unit := do
  let right ← load b
  store a fun n => n.setKey x (n.key x ^^^ right.key y)
  let left ← load a
  store b fun n => n.setKey y (left.key x ^^^ n.key y)
  let right ← load b
  store a fun n => n.setKey x (n.key x ^^^ right.key y)

/-- `SWAP_KEY_VALUE` on two values. -/
def swapValue (a : Addr) (x : Side) (b : Addr) (y : Side) : TreeProg Unit := do
  let right ← load b
  store a fun n => n.setValue x (n.value x ^^^ right.value y)
  let left ← load a
  store b fun n => n.setValue y (left.value x ^^^ n.value y)
  let right ← load b
  store a fun n => n.setValue x (n.value x ^^^ right.value y)

/-- The key, then the value. -/
def swapPair (a : Addr) (x : Side) (b : Addr) (y : Side) : TreeProg Unit := do
  swapKey a x b y
  swapValue a x b y

def swapNodeValue (a b : Addr) : TreeProg Unit := do
  swapPair a .l b .l
  swapPair a .r b .r

def setLkeyValue (a : Addr) (key value : Word) : TreeProg Unit :=
  store a fun n => { n with lkey := key, lvalue := value }

def setRkeyValue (a : Addr) (key value : Word) : TreeProg Unit :=
  store a fun n => { n with rkey := key, rvalue := value }

def clrLkeyValue (a : Addr) : TreeProg Unit := setLkeyValue a INVALID_KEY_VALUE 0
def clrRkeyValue (a : Addr) : TreeProg Unit := setRkeyValue a INVALID_KEY_VALUE 0

def setParent (a parent : Addr) : TreeProg Unit := store a fun n => { n with parent := parent }
def setLchild (a child : Addr) : TreeProg Unit := store a fun n => { n with lchild := child }
def setMchild (a child : Addr) : TreeProg Unit := store a fun n => { n with mchild := child }
def setMchild2 (a child : Addr) : TreeProg Unit := store a fun n => { n with mchild2 := child }
def setRchild (a child : Addr) : TreeProg Unit := store a fun n => { n with rchild := child }

/-- The body that `SET_LEFT_CHILD`, `SET_MID_CHILD` and `SET_RIGHT_CHILD`
share. -/
def adopt (link : Addr → Addr → TreeProg Unit) (parent child : Addr) : TreeProg Unit :=
  if parent ≠ 0 then
    if child ≠ 0 then (do
      link parent child
      setParent child parent)
    else pure ()
  else pure ()

def setLeftChild (parent child : Addr) : TreeProg Unit := adopt setLchild parent child
def setMidChild (parent child : Addr) : TreeProg Unit := adopt setMchild parent child
def setRightChild (parent child : Addr) : TreeProg Unit := adopt setRchild parent child

def setRelations (parent left mid right : Addr) : TreeProg Unit := do
  setLeftChild parent left
  setMidChild parent mid
  setRightChild parent right

/-- The only slot that a parent pointer of a root may designate is that of the
tree at hand. -/
def changeRootNode (new old : Addr) : TreeProg Unit := do
  let o ← load old
  if o.isRoot then (do
    let tree ← getGlob
    if o.parent = tree.slot then setGlob fun tree => { tree with root := new } else fault
    if new ≠ 0 then (do
      setParent new o.parent
      store new fun n => { n with isroot := 1 })
    else pure ()
    store old fun n => { n with isroot := 0 })
  else fault

/-- `*GET_LEVEL_POINTER(_root_) += …`. -/
def addLevel (slot : Addr) (difference : Int) : TreeProg Unit := do
  let tree ← getGlob
  if slot = tree.slot then setGlob fun tree => { tree with level := tree.level + difference }
  else fault

def Node.posibleSubtree (n : Node) (key : Word) : Addr :=
  if key < n.lkey then n.lchild
  else if n.isTri then if n.rkey < key then n.rchild else n.mchild
  else n.rchild

def newTree (malloc : Malloc) : TreeProg Addr := do
  let tree ← callocOther malloc
  if tree = 0 then return 0
  else (do
    setGlob fun _ => ⟨tree, 0, 0, 0⟩
    return tree)

def newNode (malloc : Malloc) (value key : Word) : TreeProg Addr := do
  let node ← calloc malloc Node.zero
  if node = 0 then return 0
  else (do
    setLkeyValue node key value
    setRkeyValue node INVALID_KEY_VALUE 0
    return node)

/-!
## Searches
-/

inductive SearchResult where
  | lvalue
  | rvalue
  | target
  | parent
  | error
  deriving DecidableEq, Repr

/-- `_result_ < SEARCH_RES_TARGET`. -/
def SearchResult.found : SearchResult → Bool
  | .lvalue | .rvalue => true
  | _ => false

def Node.cmpKeyValue (n : Node) (key : Word) : SearchResult :=
  if n.lkey = key then .lvalue else if n.rkey = key then .rvalue else .parent

def searchNodeOrParent : Nat → Addr → Word → TreeProg (Addr × SearchResult)
  | 0, _, _ => fault
  | fuel + 1, starter, key => do
    if starter = 0 then return (0, .error)
    else (do
      let n ← load starter
      if n.lkey = INVALID_KEY_VALUE then return (0, .error)
      else if (n.cmpKeyValue key).found then return (starter, n.cmpKeyValue key)
      else if n.isLeaf then return (starter, n.cmpKeyValue key)
      else searchNodeOrParent fuel (n.posibleSubtree key) key)

def getSuccessorAndSwap (fuel : Nat) (node : Addr) (key : Word) : TreeProg Addr := do
  if node = 0 ∨ key = INVALID_KEY_VALUE then fault
  else (do
    let n ← load node
    if n.lchild = 0 then return node
    else (do
      let (successor, _) ← searchNodeOrParent fuel node (key + 1)
      if successor = 0 then return 0
      else (do
        if n.rkey = key then swapPair successor .l node .r
        else swapPair successor .l node .l
        return successor)))

/-!
## Insertion
-/

def mergeNodes (node parent : Addr) : TreeProg Unit := do
  let n ← load node
  let p ← load parent
  if n.isTri then pure ()
  else if n.lkey < p.lkey then (do
    swapValue parent .l node .l
    swapKey parent .l node .l)
  else if p.rkey < n.lkey then (do
    swapValue parent .r node .l
    swapKey parent .r node .l)
  else pure ()

def divideNode (malloc : Malloc) (node : Addr) : TreeProg Addr := do
  let n ← load node
  let dnode ← newNode malloc n.rvalue n.rkey
  if dnode = 0 then return 0
  else (do
    store node fun n => { n with rvalue := 0 }
    store node fun n => { n with rkey := INVALID_KEY_VALUE }
    let n ← load node
    if n.mchild2 ≠ 0 then (do
      setRelations dnode n.mchild2 0 n.rchild
      setRchild node n.mchild
      setMchild node 0
      setMchild2 node 0)
    else pure ()
    return dnode)

def insertDividedNode (source node parent : Addr) : TreeProg Unit := do
  let p ← load parent
  if source = p.rchild then (do
    if p.mchild ≠ 0 then setMchild2 parent source else setMchild parent source
    setRchild parent node)
  else if source = p.mchild then setMchild2 parent node
  else if source = p.lchild then
    if p.mchild ≠ 0 then (do
      setMchild2 parent p.mchild
      setMchild parent node)
    else setMchild parent node
  else pure ()

def insertInto (malloc : Malloc) : Nat → Addr → Addr → TreeProg Status
  | 0, _, _ => fault
  | fuel + 1, node, parent => do
    if node = 0 ∨ parent = 0 then return .invParam
    else (do
      let p ← load parent
      let n ← load node
      if p.isTri then
        if n.isTri then fault
        else (do
          mergeNodes node parent
          let dnode ← divideNode malloc parent
          if dnode = 0 then return .noMemory
          else if p.isRoot then (do
            changeRootNode node parent
            setRelations node parent 0 dnode
            addLevel p.parent 1
            return .ok)
          else (do
            setParent dnode p.parent
            insertDividedNode parent dnode p.parent
            insertInto malloc fuel node p.parent))
      else (do
        if p.lkey < n.lkey then setRkeyValue parent n.lkey n.lvalue
        else (do
          setRkeyValue parent p.lkey p.lvalue
          setLkeyValue parent n.lkey n.lvalue)
        free node
        return .ok))

/-- `lbs_23tree_insert`; the result 2 of the branch for `SEARCH_RES_TARGET` is
`LBS_CODE_NOT_FOUND`. -/
def insert (malloc : Malloc) (fuel : Nat) (value key : Word) : TreeProg Status := do
  if value = 0 then return .invParam
  else (do
    let node ← newNode malloc value key
    if node = 0 then return .noMemory
    else (do
      let tree ← getGlob
      if tree.root = 0 then (do
        setGlob fun tree => { tree with root := node }
        setGlob fun tree => { tree with nodeCount := tree.nodeCount + 1 }
        setGlob fun tree => { tree with level := 1 }
        setParent node tree.slot
        store node fun n => { n with isroot := 1 }
        return .ok)
      else (do
        let (parent, result) ← searchNodeOrParent fuel tree.root key
        if parent = 0 then (do
          free node
          return .internalErr)
        else if result = .target then (do
          free node
          return .notFound)
        else if result = .parent then (do
          let rc ← insertInto malloc fuel node parent
          if rc = .ok then setGlob fun tree => { tree with nodeCount := tree.nodeCount + 1 }
          else pure ()
          return rc)
        else return .alreadyExist)))

/-- `lbs_23tree_search`; the second result is what is stored through `value`. -/
def search (fuel : Nat) (key : Word) : TreeProg (Status × Option Word) := do
  if key = INVALID_KEY_VALUE then return (.invParam, none)
  else (do
    let tree ← getGlob
    let (node, result) ← searchNodeOrParent fuel tree.root key
    if node = 0 then return (.notFound, none)
    else
      match result with
      | .lvalue => do
        let n ← load node
        return (.ok, some n.lvalue)
      | .rvalue => do
        let n ← load node
        return (.ok, some n.rvalue)
      | .target => return (.internalErr, none)
      | .parent | .error => return (.notFound, none))

/-!
## Deletion

Each shape of `lbs_23tree_fix_null_node` is a definition of its own. In the
names, the side is that of the node without a key; a brother with two keys lends
one, a brother with one key joins it.
-/

/-- ```
     [B , E]              [B , D]
    /   |   \            /   |   \
  [A] [C,D] [N]   ==>  [A]  [C]  [E]
``` -/
def rightBorrow (parent node midBro : Addr) : TreeProg Unit := do
  swapPair parent .r node .l
  swapPair midBro .r parent .r
  let n ← load node
  if n.isLeaf then pure ()
  else (do
    setRightChild node n.lchild
    let b ← load midBro
    setLeftChild node b.rchild
    let b ← load midBro
    setRightChild midBro b.mchild
    setMchild midBro 0)

/-- ```
     [B , D]            [B]
    /   |   \          /   \
  [A]  [C]  [N]  ==> [A]  [C,D]
``` -/
def rightJoin (parent node midBro : Addr) : TreeProg Unit := do
  swapPair parent .r midBro .r
  setRightChild parent midBro
  setMchild parent 0
  let n ← load node
  if n.isLeaf then pure ()
  else (do
    let b ← load midBro
    setMidChild midBro b.rchild
    let n ← load node
    setRightChild midBro n.lchild)
  free node

/-- ```
      [C]               [B]
     /   \             /   \
  [A,B]  [N]    ==>  [A]   [C]
``` -/
def rightFromTwo (parent node bro : Addr) : TreeProg Unit := do
  swapNodeValue parent node
  swapPair parent .l bro .r
  let n ← load node
  if n.isLeaf then pure ()
  else (do
    setRightChild node n.lchild
    let b ← load bro
    setLeftChild node b.rchild
    let b ← load bro
    setRightChild bro b.mchild
    setMchild bro 0)

/-- ```
     [B]           [N]
    /   \           |
  [A]   [N]  ==>  [A,B]
``` -/
def rightMerge (parent node bro : Addr) : TreeProg Unit := do
  swapPair bro .r parent .l
  let n ← load node
  if n.isLeaf then pure ()
  else (do
    let b ← load bro
    setMidChild bro b.rchild
    let n ← load node
    setRightChild bro n.lchild)
  free node

/-- ```
     [B , C]              [B , D]
    /   |   \            /   |   \
  [A]  [N]  [D,E]  ==> [A]  [C]  [E]
``` -/
def middleBorrow (parent node bro : Addr) : TreeProg Unit := do
  swapPair parent .r node .l
  swapPair parent .r bro .l
  swapPair bro .l bro .r
  let n ← load node
  if n.isLeaf then pure ()
  else (do
    let b ← load bro
    setRightChild node b.lchild
    let b ← load bro
    setLeftChild bro b.mchild
    setMchild bro 0)

/-- ```
     [B , C]            [B]
    /   |   \          /   \
  [A]  [N]  [D]  ==> [A]  [C,D]
``` -/
def middleJoin (parent node bro : Addr) : TreeProg Unit := do
  swapPair bro .l bro .r
  swapPair parent .r bro .l
  setMchild parent 0
  let n ← load node
  if n.isLeaf then pure ()
  else (do
    let b ← load bro
    setMidChild bro b.lchild
    let n ← load node
    setLeftChild bro n.lchild)
  free node

/-- ```
     [A , D]              [B , D]
    /   |   \            /   |   \
  [N] [B,C] [E]   ==>  [A]  [C]  [E]
``` -/
def leftBorrow (parent node midBro : Addr) : TreeProg Unit := do
  swapPair parent .l node .l
  swapPair parent .l midBro .l
  swapPair midBro .l midBro .r
  let n ← load node
  if n.isLeaf then pure ()
  else (do
    let b ← load midBro
    setRightChild node b.lchild
    let b ← load midBro
    setLeftChild midBro b.mchild
    setMchild midBro 0)

/-- ```
     [A , C]              [C]
    /   |   \            /   \
  [N]  [B]  [D]  ==>  [A,B]  [D]
``` -/
def leftJoin (parent node midBro : Addr) : TreeProg Unit := do
  swapPair node .l parent .l
  swapPair parent .l parent .r
  swapPair node .r midBro .l
  let n ← load node
  if n.isLeaf then pure ()
  else (do
    let b ← load midBro
    setMchild node b.lchild
    let b ← load midBro
    setRchild node b.rchild
    let b ← load midBro
    setParent b.lchild node
    let b ← load midBro
    setParent b.rchild node)
  setMchild parent 0
  free midBro

/-- ```
    [A]                [B]
   /   \              /   \
 [N]  [B,C]    ==>  [A]   [C]
``` -/
def leftFromTwo (parent node bro : Addr) : TreeProg Unit := do
  swapPair node .l parent .l
  swapPair parent .l bro .l
  swapPair bro .l bro .r
  let n ← load node
  if n.isLeaf then pure ()
  else (do
    let b ← load bro
    setRchild node b.lchild
    let b ← load bro
    setParent b.lchild node
    let b ← load bro
    setLchild bro b.mchild
    setMchild bro 0)

/-- ```
    [A]           [N]
   /   \           |
 [N]   [B]  ==>  [A,B]
``` -/
def leftMerge (parent node bro : Addr) : TreeProg Unit := do
  swapPair bro .l bro .r
  swapPair parent .l bro .l
  let n ← load node
  if n.isLeaf then pure ()
  else (do
    let b ← load bro
    setMchild bro b.lchild
    let n ← load node
    setLchild bro n.lchild
    let b ← load bro
    setParent b.lchild bro)
  free node

/-- The root without a key goes, `bro` takes its place. -/
def dropRoot (bro root : Addr) : TreeProg Unit := do
  let r ← load root
  addLevel r.parent (-1)
  changeRootNode bro root
  free root

def fixNullNode : Nat → Addr → TreeProg Status
  | 0, _ => fault
  | fuel + 1, node => do
    let n ← load node
    let parent := n.parent
    if n.isLeaf && n.isRoot then (do
      dropRoot 0 node
      return .ok)
    else (do
      let p ← load parent
      if node ≠ p.lchild then
        if node = p.rchild then
          if p.isTri then (do
            let midBro ← load p.mchild
            if midBro.isTri then rightBorrow parent node p.mchild
            else rightJoin parent node p.mchild
            return .ok)
          else (do
            let bro ← load p.lchild
            if bro.isTri then (do
              rightFromTwo parent node p.lchild
              return .ok)
            else (do
              rightMerge parent node p.lchild
              if p.isRoot then (do
                dropRoot p.lchild parent
                return .ok)
              else (do
                setRchild parent 0
                fixNullNode fuel parent)))
        else if node = p.mchild then (do
          let bro ← load p.rchild
          if bro.isTri then middleBorrow parent node p.rchild
          else middleJoin parent node p.rchild
          return .ok)
        else return .ok
      else if p.isTri then (do
        let midBro ← load p.mchild
        if midBro.isTri then leftBorrow parent node p.mchild
        else leftJoin parent node p.mchild
        return .ok)
      else (do
        let bro ← load p.rchild
        if bro.isTri then (do
          leftFromTwo parent node p.rchild
          return .ok)
        else (do
          leftMerge parent node p.rchild
          if p.isRoot then (do
            dropRoot p.rchild parent
            return .ok)
          else (do
            setLchild parent p.rchild
            setRchild parent 0
            fixNullNode fuel parent))))

def removeKey (fuel : Nat) (leaf : Addr) (key : Word) : TreeProg Status := do
  if leaf = 0 then fault
  else (do
    let n ← load leaf
    if n.rkey ≠ key ∧ n.lkey ≠ key then fault
    else if n.isLeaf = false then fault
    else if n.isTri then (do
      if n.lkey = key then setLkeyValue leaf n.rkey n.rvalue else pure ()
      clrRkeyValue leaf
      return .ok)
    else (do
      clrLkeyValue leaf
      clrRkeyValue leaf
      fixNullNode fuel leaf))

def delete (fuel : Nat) (key : Word) : TreeProg Status := do
  if key = INVALID_KEY_VALUE then return .invKey
  else (do
    let tree ← getGlob
    let (node, result) ← searchNodeOrParent fuel tree.root key
    if node = 0 then return .internalErr
    else if result = .parent ∨ result = .error then return .notFound
    else (do
      let successor ← getSuccessorAndSwap fuel node key
      if successor = 0 then return .internalErr
      else (do
        let rc ← removeKey fuel successor key
        if rc = .ok then setGlob fun tree => { tree with nodeCount := tree.nodeCount - 1 }
        else pure ()
        return rc)))

/-!
## Calls
-/

inductive Call where
  | insert (value key : Word)
  | delete (key : Word)
  | search (key : Word)
  deriving DecidableEq, Repr

/-- A valid key, and a value where there is one. -/
def Call.Valid : Call → Prop
  | .insert value key => value ≠ 0 ∧ key ≠ INVALID_KEY_VALUE
  | .delete key | .search key => key ≠ INVALID_KEY_VALUE

/-- What a caller observes: the status and the value that a search stored. -/
structure Reply where
  status : Status
  value : Option Word
  deriving DecidableEq, Repr

def Call.run (malloc : Malloc) (fuel : Nat) : Call → TreeProg Reply
  | .insert value key => do
    let status ← TwoThree.insert malloc fuel value key
    return ⟨status, none⟩
  | .delete key => do
    let status ← TwoThree.delete fuel key
    return ⟨status, none⟩
  | .search key => do
    let result ← TwoThree.search fuel key
    return ⟨result.1, result.2⟩

def runCalls (malloc : Malloc) (fuel : Nat) : List Call → TreeProg (List Reply)
  | [] => return []
  | call :: calls => do
    let reply ← call.run malloc fuel
    let replies ← runCalls malloc fuel calls
    return reply :: replies

end GbfLibrary.TwoThree
