import GbfLibrary.Memory.Machine

/-!
# The red-black tree

`rbtree.c` and `rbtree.h` as the Win32 build compiles them: pointers, `int`
and `long` are 32 bits wide.
-/

set_option autoImplicit false

namespace GbfLibrary.Rbtree

open Memory Prog

/-- A 32-bit machine word: an `int` key or a `void*` datum. -/
abbrev Word := BitVec 32

/-- `rbtree_node_t`. Bit 0 of `status` is the colour, bit 1 the colour of the
left child, bit 2 marks the root. -/
structure Node where
  status : BitVec 8
  key : Word
  data : Word
  parent : Addr
  lnode : Addr
  rnode : Addr
  deriving DecidableEq

/-- What `calloc` returns. -/
def Node.zero : Node := ⟨0, 0, 0, 0, 0, 0⟩

/-- `rbtree_t`, with the address `self` of the structure itself. The counters
are `unsigned`; a 32-bit address space has no room for `2 ^ 32` nodes, so they
do not wrap. -/
structure Header where
  self : Addr
  depth : Int
  count : Int
  mode : Word
  poolSize : Nat
  pool : Addr
  root : Addr
  deriving DecidableEq

def Header.zero : Header := ⟨0, 0, 0, 0, 0, 0, 0⟩

abbrev RbMachine := Machine Node Header
abbrev RbProg (α : Type) := Prog Node Header α

def RBT_MODE_INTEGRITY : Word := 0x00000001

/-- The `RBT_CODE_…` results. -/
inductive Code where
  | ok
  | invParam
  | noMemory
  | alreadyExist
  | notFound
  | corrupt
  deriving DecidableEq, Repr

/-!
## Status bits and links
-/

def Node.isRed (n : Node) : Bool := n.status &&& 0x01 != 0
def Node.hasRedLink (n : Node) : Bool := n.status &&& 0x02 != 0
def Node.isRoot (n : Node) : Bool := n.status &&& 0x04 != 0
def Node.isBlack (n : Node) : Bool := !n.isRed

def setRoot (a : Addr) : RbProg Unit := store a fun n => { n with status := n.status ||| 0x04 }
def setNode (a : Addr) : RbProg Unit := store a fun n => { n with status := n.status &&& 0xFB }
def setBlack (a : Addr) : RbProg Unit := store a fun n => { n with status := n.status &&& 0xFE }
def setRed (a : Addr) : RbProg Unit := store a fun n => { n with status := n.status ||| 0x01 }
def setBlackLink (a : Addr) : RbProg Unit := store a fun n => { n with status := n.status &&& 0xFD }
def setRedLink (a : Addr) : RbProg Unit := store a fun n => { n with status := n.status ||| 0x02 }

def setParent (a parent : Addr) : RbProg Unit := store a fun n => { n with parent := parent }
def setLnode (a child : Addr) : RbProg Unit := store a fun n => { n with lnode := child }
def setRnode (a child : Addr) : RbProg Unit := store a fun n => { n with rnode := child }

/-- `SWAP_VALUE` on the keys: three exclusive-or assignments. -/
def swapKey (a b : Addr) : RbProg Unit := do
  let right ← load b
  store a fun n => { n with key := n.key ^^^ right.key }
  let left ← load a
  store b fun n => { n with key := left.key ^^^ n.key }
  let right ← load b
  store a fun n => { n with key := n.key ^^^ right.key }

/-- `SWAP_VALUE` on the data. -/
def swapData (a b : Addr) : RbProg Unit := do
  let right ← load b
  store a fun n => { n with data := n.data ^^^ right.data }
  let left ← load a
  store b fun n => { n with data := left.data ^^^ n.data }
  let right ← load b
  store a fun n => { n with data := n.data ^^^ right.data }

def swapNodeData (a b : Addr) : RbProg Unit := do
  swapKey a b
  swapData a b

def buildRelation (parent left right : Addr) : RbProg Unit := do
  setLnode parent left
  setRnode parent right
  setParent left parent
  setParent right parent

def buildRelationLeft (parent node : Addr) : RbProg Unit := do
  setLnode parent node
  setParent node parent

def buildRelationRight (parent node : Addr) : RbProg Unit := do
  setRnode parent node
  setParent node parent

def buildRelationLeftCheck (parent node : Addr) : RbProg Unit := do
  setLnode parent node
  if node ≠ 0 then setParent node parent else pure ()

def buildRelationRightCheck (parent node : Addr) : RbProg Unit := do
  setRnode parent node
  if node ≠ 0 then setParent node parent else pure ()

def changeRoot (oldRoot newRoot : Addr) (depth : Int) : RbProg Unit := do
  setGlob fun tree => { tree with depth := tree.depth + depth, root := newRoot }
  let tree ← getGlob
  if newRoot ≠ 0 then (do
    setParent newRoot tree.self
    setRoot newRoot)
  else pure ()
  setNode oldRoot

/-!
## Walks

Every loop and recursion of the source runs on fuel; running out is a fault.
-/

/-- `check_integrity`; `true` is the C result 1. -/
def checkIntegrity : Nat → Addr → RbProg Bool
  | 0, _ => fault
  | fuel + 1, root => do
    if root = 0 then return false else do
    let node ← load root
    let leftBad ← (if node.lnode ≠ 0 then (do
        let left ← load node.lnode
        if node.key.toInt ≤ left.key.toInt then pure true
        else if node.isRed && left.isRed then pure true
        else if node.hasRedLink && left.isBlack then pure true
        else checkIntegrity fuel node.lnode)
      else pure node.hasRedLink)
    if leftBad then return true
    else if node.rnode ≠ 0 then (do
      if node.lnode = 0 then return true
      else (do
        let right ← load node.rnode
        if right.key.toInt ≤ node.key.toInt then return true
        else checkIntegrity fuel node.rnode))
    else return false

/-- The loop of `rbt_search`. -/
def searchLoop : Nat → Addr → Word → RbProg Addr
  | 0, _, _ => fault
  | fuel + 1, node, key => do
    let n ← load node
    if n.key = key then return node
    else if key.toInt < n.key.toInt then
      if n.lnode ≠ 0 then searchLoop fuel n.lnode key else return 0
    else
      if n.rnode ≠ 0 then searchLoop fuel n.rnode key else return 0

def rbtSearch (fuel : Nat) (key : Word) : RbProg Addr := do
  let tree ← getGlob
  if tree.root = 0 then return 0 else searchLoop fuel tree.root key

def firstLoop : Nat → Addr → RbProg Addr
  | 0, _ => fault
  | fuel + 1, node => do
    let n ← load node
    if n.lnode = 0 then return node else firstLoop fuel n.lnode

def rbtFirst (fuel : Nat) (root : Addr) : RbProg Addr :=
  if root = 0 then return 0 else firstLoop fuel root

/-- The two directions of a walk. -/
inductive Way where
  | back
  | forth
  deriving DecidableEq, Repr

def Way.other : Way → Way
  | .back => .forth
  | .forth => .back

/-- The child that lies in this direction. -/
def Node.child (n : Node) : Way → Addr
  | .back => n.lnode
  | .forth => n.rnode

/-- The loops that go down along one side. -/
def descendLoop (way : Way) : Nat → Addr → RbProg Addr
  | 0, _ => fault
  | fuel + 1, node => do
    let n ← load node
    if n.child way = 0 then return node else descendLoop way fuel (n.child way)

/-- The loops that look for the next unpicked parent. -/
def climbLoop (way : Way) : Nat → Addr → RbProg Addr
  | 0, _ => fault
  | fuel + 1, node => do
    let n ← load node
    if n.isRoot then return 0
    else (do
      let p ← load n.parent
      if node = p.child way then climbLoop way fuel n.parent else return n.parent)

/-- The neighbour of a node in search order. -/
def neighbour (way : Way) (fuel : Nat) (current : Addr) : RbProg Addr :=
  if current = 0 then return 0
  else (do
    let n ← load current
    if n.child way = 0 then climbLoop way fuel current
    else descendLoop way.other fuel (n.child way))

def rbtLast (fuel : Nat) (root : Addr) : RbProg Addr :=
  if root = 0 then return 0 else descendLoop .forth fuel root

def rbtNext (fuel : Nat) (current : Addr) : RbProg Addr := neighbour .forth fuel current

def rbtPrev (fuel : Nat) (current : Addr) : RbProg Addr := neighbour .back fuel current

/-!
## Creation
-/

/-- The `while (out->pool)` loop of the failure exit. -/
def freePool : Nat → RbProg Unit
  | 0 => fault
  | fuel + 1 => do
    let tree ← getGlob
    if tree.pool ≠ 0 then (do
      let node ← load tree.pool
      setGlob fun tree => { tree with pool := node.parent }
      free tree.pool
      freePool fuel)
    else pure ()

/-- The `while (init_pool_size--)` loop; `false` when an allocation failed. -/
def fillPool (malloc : Malloc) : Nat → RbProg Bool
  | 0 => return true
  | left + 1 => do
    let pool ← calloc malloc Node.zero
    if pool = 0 then return false
    else (do
      let tree ← getGlob
      if tree.pool = 0 then setGlob fun tree => { tree with pool := pool }
      else (do
        setParent pool tree.pool
        setGlob fun tree => { tree with pool := pool })
      fillPool malloc left)

/-- `rbt_new_tree`; `out` says that the pointer `tree` is not null. The header
is read and written at its new address from here on. -/
def rbtNewTree (malloc : Malloc) (out : Bool) (initPoolSize : Nat) (mode : Word) : RbProg Code := do
  if out = false then return .invParam
  else (do
    let self ← callocOther malloc
    if self = 0 then return .noMemory
    else (do
      setGlob fun _ => { Header.zero with self := self, poolSize := initPoolSize }
      let filled ← fillPool malloc initPoolSize
      if filled then (do
        setGlob fun tree => { tree with mode := mode }
        return .ok)
      else (do
        freePool (initPoolSize + 1)
        freeOther self
        return .noMemory)))

/-!
## Insertion
-/

def poolPopNode (malloc : Malloc) : RbProg Addr := do
  let tree ← getGlob
  if tree.pool ≠ 0 then (do
    let node ← load tree.pool
    setGlob fun tree => { tree with pool := node.parent }
    return tree.pool)
  else calloc malloc Node.zero

def rbtInsertRoot (malloc : Malloc) (key data : Word) : RbProg Code := do
  let root ← poolPopNode malloc
  if root = 0 then return .noMemory
  else (do
    setRoot root
    setBlack root
    store root fun n => { n with data := data }
    store root fun n => { n with key := key }
    let tree ← getGlob
    setParent root tree.self
    setGlob fun tree => { tree with count := 1, depth := 1, root := root }
    return .ok)

/-- Where the descent of `rbt_insert` stops: at a node with the key, or at the
node that is to become the parent. -/
inductive Location where
  | existing (node : Addr)
  | below (parent : Addr)

def locate : Nat → Addr → Word → RbProg Location
  | 0, _, _ => fault
  | fuel + 1, node, key => do
    let n ← load node
    if n.key = key then return .existing node
    else if key.toInt < n.key.toInt then
      if n.lnode ≠ 0 then locate fuel n.lnode key else return .below node
    else
      if n.rnode ≠ 0 then locate fuel n.rnode key else return .below node

/-- The part of an iteration for a parent that is red or has a red link.
`parent` is the red one of the two, `parent2` the black one. The result is the
node that goes on to the next level, or nothing if the loop is left. -/
def splitParent (node parent parent2 : Addr) : RbProg (Option Addr) := do
  setBlack parent
  setBlackLink parent2
  let p ← load parent
  let n ← load node
  let p2 ← load parent2
  if n.key.toInt < p.key.toInt then (do
    buildRelationLeftCheck parent2 p.rnode
    buildRelation parent node parent2
    return some parent)
  else if p2.key.toInt < n.key.toInt then (do
    buildRelationRight parent2 node
    if p2.isRoot then (do
      setGlob fun tree => { tree with depth := tree.depth + 1 }
      return none)
    else return some parent2)
  else (do
    buildRelationRightCheck parent n.lnode
    buildRelationLeftCheck parent2 n.rnode
    buildRelation node parent parent2
    return some node)

/-- The part of an iteration for a black parent without a red link. -/
def joinParent (node parent grandpa : Addr) : RbProg Unit := do
  let p ← load parent
  let n ← load node
  if n.key.toInt < p.key.toInt then (do
    buildRelationLeft parent node
    setRed node
    setRedLink parent)
  else (do
    if p.isRoot then changeRoot parent node 0
    else (do
      let g ← load grandpa
      if g.lnode = parent then setLnode grandpa node else setRnode grandpa node)
    buildRelationRightCheck parent n.lnode
    buildRelationLeft node parent
    setParent node grandpa
    setRed parent
    setRedLink node)

def insertLoop : Nat → Addr → Addr → RbProg Unit
  | 0, _, _ => fault
  | fuel + 1, node, parent => do
    let p ← load parent
    let grandpa := p.parent
    if p.isRed || p.hasRedLink then (do
      let parent2 := if p.isRed then p.parent else parent
      let parent := if p.isRed then parent else p.lnode
      let black ← load parent2
      let grandpa := black.parent
      let next ← splitParent node parent parent2
      match next with
      | none => pure ()
      | some node => do
        let black ← load parent2
        if black.isRoot then changeRoot parent2 node 1
        else insertLoop fuel node grandpa)
    else joinParent node parent grandpa

/-- The check at the end of `rbt_insert` and `rbt_remove`. -/
def finish (fuel : Nat) : RbProg Code := do
  let tree ← getGlob
  if tree.mode &&& RBT_MODE_INTEGRITY ≠ 0 then (do
    let corrupt ← checkIntegrity fuel tree.root
    return if corrupt then .corrupt else .ok)
  else return .ok

/-- `rbt_insert`. One `Bool` stands for the int `is_update`, which callers set to `LBS_FALSE` or `LBS_TRUE`: the check of
the parameters is `is_update == LBS_TRUE`, the test before the update only `if (is_update)`, so that another value would
pass the first and not the second. `oldData` says that the pointer `old_data` is not null; the second result is what is
stored through it. -/
def rbtInsert (malloc : Malloc) (fuel : Nat) (key data : Word) (isUpdate oldData : Bool) :
    RbProg (Code × Option Word) := do
  if isUpdate && !oldData then return (.invParam, none)
  else (do
    let tree ← getGlob
    if tree.root = 0 then (do
      let _ ← rbtInsertRoot malloc key data
      let code ← finish fuel
      return (code, none))
    else (do
      let location ← locate fuel tree.root key
      match location with
      | .existing node =>
        if isUpdate then (do
          let n ← load node
          store node fun n => { n with data := data }
          return (.ok, some n.data))
        else return (.alreadyExist, none)
      | .below parent => do
        let node ← poolPopNode malloc
        if node = 0 then return (.noMemory, none)
        else (do
          store node fun n => { n with data := data }
          store node fun n => { n with key := key }
          insertLoop fuel node parent
          setGlob fun tree => { tree with count := tree.count + 1 }
          let code ← finish fuel
          return (code, none))))

/-!
## Removal
-/

/-- How a removal exchanges two nodes, and what is done beside it at the head of an iteration (is it the first one?), and
with a nephew or a grandson. -/
structure Watch where
  swap : Addr → Addr → RbProg Unit
  head : Bool → Addr → RbProg Unit
  relative : Addr → RbProg Unit

/-- Nothing is done beside it. -/
def Watch.off : Watch := ⟨swapNodeData, fun _ _ => pure (), fun _ => pure ()⟩

@[simp] theorem Watch.off_swap : Watch.off.swap = swapNodeData := rfl
@[simp] theorem Watch.off_head (first : Bool) (op : Addr) : Watch.off.head first op = pure () := rfl
@[simp] theorem Watch.off_relative (a : Addr) : Watch.off.relative a = pure () := rfl

section Removal

variable (watch : Watch)

/-- The brother is red, hence the left child. -/
def removeRedBrother (op parent bro : Addr) : RbProg Addr := do
  let b ← load bro
  let nephew := b.rnode
  watch.relative nephew
  let n ← load nephew
  if n.hasRedLink then (do
    let gs := n.lnode
    watch.relative gs
    watch.swap parent op
    watch.swap nephew parent
    let o ← load op
    buildRelationRightCheck op o.lnode
    let n ← load nephew
    buildRelationLeftCheck op n.rnode
    buildRelationRight bro gs
    setBlack gs
    return nephew)
  else (do
    watch.swap parent op
    watch.swap parent bro
    let o ← load op
    buildRelationRightCheck op o.lnode
    let b ← load bro
    buildRelationLeft parent b.lnode
    buildRelationLeft op nephew
    setBlackLink parent
    setRed nephew
    setRedLink op
    return bro)

/-- The brother is black and has a red link; `left` tells that the operated
node is the left child. -/
def removeRedLink (op parent bro : Addr) (left : Bool) : RbProg Addr := do
  let b ← load bro
  let nephew := b.lnode
  watch.relative nephew
  if left then (do
    watch.swap op parent
    watch.swap parent nephew
    let n ← load nephew
    buildRelationRightCheck op n.lnode
    let n ← load nephew
    buildRelationLeftCheck bro n.rnode
    setBlackLink bro
    return nephew)
  else (do
    watch.swap bro parent
    watch.swap op bro
    buildRelationLeft parent nephew
    let b ← load bro
    buildRelationLeftCheck op b.rnode
    setBlack nephew
    return bro)

/-- The brother stands alone: both children merge under the left link. -/
def removeMerge (op parent bro : Addr) (left : Bool) : RbProg Unit :=
  if left then (do
    watch.swap parent op
    let b ← load bro
    buildRelationRightCheck op b.lnode
    buildRelationLeft bro op
    buildRelationLeft parent bro
    setRed op
    setRedLink bro)
  else (do
    watch.swap op parent
    buildRelationLeft op bro
    buildRelationLeft parent op
    setRed bro
    setRedLink op)

/-- The rebalancing loop of `rbt_remove`, at its first iteration or a later one. Returns the node to free. -/
def removeLoop : Nat → Bool → Addr → RbProg Addr
  | 0, _, _ => fault
  | fuel + 1, first, op => do
    watch.head first op
    let o ← load op
    if o.isRoot then (do
      changeRoot op o.lnode (-1)
      return op)
    else (do
      let parent := o.parent
      let p ← load parent
      let left := op == p.lnode
      let bro := if left then p.rnode else p.lnode
      if o.isRed then (do
        buildRelationLeftCheck parent o.lnode
        setBlackLink parent
        let p ← load parent
        if p.lnode ≠ 0 then setBlack p.lnode else pure ()
        return op)
      else (do
        let b ← load bro
        if b.isRed then removeRedBrother watch op parent bro
        else if b.hasRedLink then removeRedLink watch op parent bro left
        else (do
          removeMerge watch op parent bro left
          removeLoop fuel false parent)))

/-- `rbt_remove` under a watch; `out` says that the pointer `data` is not null, the second
result is what is stored through it. -/
def rbtRemoveWatched (fuel : Nat) (key : Word) (out : Bool) : RbProg (Code × Option Word) := do
  let node ← rbtSearch fuel key
  if node = 0 then return (.notFound, none)
  else (do
    let n ← load node
    let data := if out then some n.data else none
    let op ← (if n.rnode ≠ 0 then (do
        let op ← rbtFirst fuel n.rnode
        watch.swap node op
        pure op)
      else pure node)
    let o ← load op
    let freed ← (if o.hasRedLink then (do
        watch.swap op o.lnode
        setBlackLink op
        let o ← load op
        let last ← load o.lnode
        setLnode last.parent 0
        pure o.lnode)
      else removeLoop watch fuel true op)
    free freed
    setGlob fun tree => { tree with count := tree.count - 1 }
    let code ← finish fuel
    return (code, data))

end Removal

def rbtRemove (fuel : Nat) (key : Word) (out : Bool) : RbProg (Code × Option Word) := rbtRemoveWatched .off fuel key out

/-!
## Calls
-/

inductive Call where
  | insert (key data : Word) (isUpdate oldData : Bool)
  | remove (key : Word) (out : Bool)
  | search (key : Word)
  deriving DecidableEq, Repr

/-- What a caller observes: the code and the datum stored through the output
pointer, or the key and the datum of the node that a search returned. -/
inductive Reply where
  | inserted (code : Code) (old : Option Word)
  | removed (code : Code) (data : Option Word)
  | searched (found : Option (Word × Word))
  deriving DecidableEq, Repr

def Call.run (malloc : Malloc) (fuel : Nat) : Call → RbProg Reply
  | .insert key data isUpdate oldData => do
    let result ← rbtInsert malloc fuel key data isUpdate oldData
    return .inserted result.1 result.2
  | .remove key out => do
    let result ← rbtRemove fuel key out
    return .removed result.1 result.2
  | .search key => do
    let node ← rbtSearch fuel key
    if node = 0 then return .searched none
    else (do
      let n ← load node
      return .searched (some (n.key, n.data)))

def runCalls (malloc : Malloc) (fuel : Nat) : List Call → RbProg (List Reply)
  | [] => return []
  | call :: calls => do
    let reply ← call.run malloc fuel
    let replies ← runCalls malloc fuel calls
    return reply :: replies

end GbfLibrary.Rbtree
