import GbfLibrary.Rbtree.Model
import GbfLibrary.Trees.Rebalance
import Mathlib.Data.LawfulXor.Basic

/-!
# Red-black trees in memory

`Rep s tree parent root` says that the nodes of `s` spell out `tree`, and
`RepPath` the same of a path. The hole of a path may be dangling: rebalancing
leaves the pointers and bits there stale until the next level is done.
-/

set_option autoImplicit false

namespace GbfLibrary.Rbtree

open Memory Prog Trees ColoredTree

/-- A key and its datum. -/
abbrev Entry := Word × Word

abbrev RbTree := ColoredTree Addr Entry
abbrev RbPath := Path Addr Entry

/-- The pointer to a tree. -/
def addr : RbTree → Addr
  | .nil => 0
  | .node a _ _ _ _ => a

@[simp] theorem addr_nil : addr .nil = 0 := rfl

@[simp] theorem addr_node (a : Addr) (red : Bool) (e : Entry) (l r : RbTree) :
    addr (node a red e l r) = a := rfl

theorem addr_mem_labels {tree : RbTree} (good : addr tree ≠ 0) : addr tree ∈ tree.labels := by
  cases tree <;> simp_all

theorem addr_null_or_mem (tree : RbTree) : addr tree = 0 ∨ addr tree ∈ tree.labels := by
  cases tree <;> simp

@[simp] theorem addr_plug (path : RbPath) (tree : RbTree) :
    addr (path.plug tree) = path.top (addr tree) := by
  induction path generalizing tree with
  | nil => rfl
  | cons frame path ih =>
      rcases frame with ⟨side, label, red, entry, sibling⟩
      cases side <;> simp [ih]

/-!
## Status bytes
-/

/-- The status byte of a node of colour `red` whose left child has colour
`link`. -/
def statusOf (red link root : Bool) : BitVec 8 :=
  (if red then 1 else 0) ||| (if link then 2 else 0) ||| (if root then 4 else 0)

section Status

variable (red link root : Bool) (k d : Word) (p l r : Addr)

@[simp] theorem isRed_mk : (Node.mk (statusOf red link root) k d p l r).isRed = red := by
  simp only [Node.isRed]
  revert red link root
  decide

@[simp] theorem isBlack_mk : (Node.mk (statusOf red link root) k d p l r).isBlack = !red := by
  simp [Node.isBlack]

@[simp] theorem hasRedLink_mk :
    (Node.mk (statusOf red link root) k d p l r).hasRedLink = link := by
  simp only [Node.hasRedLink]
  revert red link root
  decide

@[simp] theorem isRoot_mk : (Node.mk (statusOf red link root) k d p l r).isRoot = root := by
  simp only [Node.isRoot]
  revert red link root
  decide

@[simp] theorem statusOf_setRed : statusOf red link root ||| 1#8 = statusOf true link root := by
  revert red link root
  decide

@[simp] theorem statusOf_setBlack :
    statusOf red link root &&& 254#8 = statusOf false link root := by
  revert red link root
  decide

@[simp] theorem statusOf_setRedLink :
    statusOf red link root ||| 2#8 = statusOf red true root := by
  revert red link root
  decide

@[simp] theorem statusOf_setBlackLink :
    statusOf red link root &&& 253#8 = statusOf red false root := by
  revert red link root
  decide

@[simp] theorem statusOf_setRoot : statusOf red link root ||| 4#8 = statusOf red link true := by
  revert red link root
  decide

@[simp] theorem statusOf_setNode :
    statusOf red link root &&& 251#8 = statusOf red link false := by
  revert red link root
  decide

/-- A zeroed node is black, without red link and no root. -/
theorem statusOf_zero : statusOf false false false = 0#8 := rfl

end Status

/-!
## Representation
-/

def Rep (s : RbMachine) : RbTree → Addr → Bool → Prop
  | .nil, _, _ => True
  | .node a red e l r, parent, root =>
      a ∈ s.live ∧
      s.cell a = ⟨statusOf red l.isRed root, e.1, e.2, parent, addr l, addr r⟩ ∧
      Rep s l a false ∧ Rep s r a false

/-- The order that the search relies on. -/
def keyOf (e : Entry) : Int := e.1.toInt

def Sorted (entries : List Entry) : Prop := (entries.map keyOf).Pairwise (· < ·)

theorem Sorted.across {first last : List Entry} (sorted : Sorted (first ++ last)) {x y : Entry}
    (left : x ∈ first) (right : y ∈ last) : x.1.toInt < y.1.toInt := by
  simp only [Sorted, List.map_append] at sorted
  exact (List.pairwise_append.mp sorted).2.2 _ (List.mem_map_of_mem left) _
    (List.mem_map_of_mem right)

theorem Sorted.sublist {entries others : List Entry} (sorted : Sorted entries)
    (included : others.Sublist entries) : Sorted others :=
  List.Pairwise.sublist (included.map keyOf) sorted

theorem Sorted.subtrees {a : Addr} {red : Bool} {e : Entry} {l r : RbTree}
    (sorted : Sorted (node a red e l r).inorder) :
    Sorted l.inorder ∧ Sorted r.inorder ∧ (∀ x ∈ l.inorder, x.1.toInt < e.1.toInt) ∧
      ∀ y ∈ r.inorder, e.1.toInt < y.1.toInt := by
  refine ⟨?_, ?_, fun x inside => sorted.across inside (List.mem_cons_self ..), fun y inside => ?_⟩
  · exact sorted.sublist (by simp)
  · exact sorted.sublist (by simp)
  · have tail : Sorted ([e] ++ r.inorder) := sorted.sublist (by simp)
    exact tail.across (List.mem_singleton_self e) inside

theorem Sorted.before_lt {path : RbPath} {tree : RbTree}
    (sorted : Sorted (path.before ++ (tree.inorder ++ path.after))) {x e : Entry}
    (outside : x ∈ path.before) (inside : e ∈ tree.inorder) : x.1.toInt < e.1.toInt :=
  sorted.across outside (List.mem_append_left _ inside)

theorem Sorted.lt_after {path : RbPath} {tree : RbTree}
    (sorted : Sorted (path.before ++ (tree.inorder ++ path.after))) {e y : Entry}
    (inside : e ∈ tree.inorder) (outside : y ∈ path.after) : e.1.toInt < y.1.toInt := by
  rw [← List.append_assoc] at sorted
  exact sorted.across (List.mem_append_right _ inside) outside

/-- What the parent pointer at the hole of a path is. -/
def parentOf (self : Addr) : RbPath → Addr
  | [] => self
  | frame :: _ => frame.label

@[simp] theorem parentOf_nil (self : Addr) : parentOf self [] = self := rfl

@[simp] theorem parentOf_cons (self : Addr) (frame : Frame Addr Entry) (path : RbPath) :
    parentOf self (frame :: path) = frame.label := rfl

theorem parentOf_of_ne_nil {self : Addr} {path : RbPath} (nonempty : path ≠ []) (other : Addr) :
    parentOf self path = parentOf other path := by
  cases path with
  | nil => exact absurd rfl nonempty
  | cons => rfl

/-- The frames of a path, with `hole` as the pointer into the hole and
`holeRed` as the colour on record for it. -/
def RepPath (s : RbMachine) (self : Addr) : RbPath → Addr → Bool → Prop
  | [], _, _ => True
  | ⟨.left, a, red, e, sibling⟩ :: path, hole, holeRed =>
      a ∈ s.live ∧
      s.cell a = ⟨statusOf red holeRed path.isEmpty, e.1, e.2, parentOf self path, hole,
        addr sibling⟩ ∧
      Rep s sibling a false ∧ RepPath s self path a red
  | ⟨.right, a, red, e, sibling⟩ :: path, hole, _ =>
      a ∈ s.live ∧
      s.cell a = ⟨statusOf red sibling.isRed path.isEmpty, e.1, e.2, parentOf self path,
        addr sibling, hole⟩ ∧
      Rep s sibling a false ∧ RepPath s self path a red

theorem rep_plug {s : RbMachine} {self : Addr} {path : RbPath} {tree : RbTree} :
    Rep s (path.plug tree) self true ↔
      Rep s tree (parentOf self path) path.isEmpty ∧ RepPath s self path (addr tree) tree.isRed := by
  induction path generalizing tree with
  | nil => simp [RepPath]
  | cons frame path ih =>
      rcases frame with ⟨side, label, red, entry, sibling⟩
      cases side with
      | left =>
          simp only [Path.plug_left, ih, Rep, addr_node, isRed_node, parentOf_cons,
            List.isEmpty_cons, RepPath]
          tauto
      | right =>
          simp only [Path.plug_right, ih, Rep, addr_node, isRed_node, parentOf_cons,
            List.isEmpty_cons, RepPath]
          tauto

theorem Rep.readsLabels (tree : RbTree) (parent : Addr) (root : Bool) :
    Local tree.labels fun s : RbMachine => Rep s tree parent root := by
  intro s s' agree
  induction tree generalizing parent root with
  | nil => exact Iff.rfl
  | node a red e l r leftIH rightIH =>
      have here := agree a (by simp)
      have left := leftIH a false (agree.mono (by simp))
      have right := rightIH a false (agree.mono (by simp))
      simp only [Rep, here.1, here.2, left, right]

theorem RepPath.readsLabels (self : Addr) (path : RbPath) (hole : Addr) (holeRed : Bool) :
    Local path.labels fun s : RbMachine => RepPath s self path hole holeRed := by
  intro s s' agree
  induction path generalizing hole holeRed with
  | nil => exact Iff.rfl
  | cons frame path ih =>
      rcases frame with ⟨side, a, red, e, sibling⟩
      have here := agree a (by simp)
      have beside := Rep.readsLabels sibling a false s s' (agree.mono (by simp))
      have above := ih a red (agree.mono (by simp))
      cases side <;> simp only [RepPath, here.1, here.2, beside, above]

section Frames

variable {s s' : RbMachine} {tree other : RbTree} {path : RbPath} {self parent a hole : Addr}
  {root holeRed : Bool} {f : Node → Node}

@[simp] theorem Rep.modify (outside : a ∉ tree.labels) :
    Rep (s.modify a f) tree parent root ↔ Rep s tree parent root :=
  (readsLabels tree parent root).modify outside

theorem Rep.touch (outside : a = 0 ∨ a ∉ tree.labels) :
    Rep (s.touch a f) tree parent root ↔ Rep s tree parent root :=
  (readsLabels tree parent root).touch outside

@[simp] theorem Rep.touch_addr (apart : tree.labels.Disjoint other.labels) :
    Rep (s.touch (addr other) f) tree parent root ↔ Rep s tree parent root :=
  touch ((addr_null_or_mem other).imp_right fun member => apart.symm member)

@[simp] theorem Rep.touch_addr' (apart : other.labels.Disjoint tree.labels) :
    Rep (s.touch (addr other) f) tree parent root ↔ Rep s tree parent root :=
  touch_addr apart.symm

@[simp] theorem Rep.withGlob {g : Header} :
    Rep (s.withGlob g) tree parent root ↔ Rep s tree parent root :=
  (readsLabels tree parent root).withGlob

theorem Rep.within {addrs : List Addr} (within : Within addrs s s')
    (apart : tree.labels.Disjoint addrs) : Rep s' tree parent root ↔ Rep s tree parent root :=
  (readsLabels tree parent root).within within apart

@[simp] theorem RepPath.modify (outside : a ∉ path.labels) :
    RepPath (s.modify a f) self path hole holeRed ↔ RepPath s self path hole holeRed :=
  (readsLabels self path hole holeRed).modify outside

@[simp] theorem RepPath.touch_addr (apart : path.labels.Disjoint other.labels) :
    RepPath (s.touch (addr other) f) self path hole holeRed ↔ RepPath s self path hole holeRed :=
  (readsLabels self path hole holeRed).touch
    ((addr_null_or_mem other).imp_right fun member => apart.symm member)

@[simp] theorem RepPath.touch_addr' (apart : other.labels.Disjoint path.labels) :
    RepPath (s.touch (addr other) f) self path hole holeRed ↔ RepPath s self path hole holeRed :=
  touch_addr apart.symm

@[simp] theorem RepPath.withGlob {g : Header} :
    RepPath (s.withGlob g) self path hole holeRed ↔ RepPath s self path hole holeRed :=
  (readsLabels self path hole holeRed).withGlob

@[simp] theorem touch_addr_cell (outside : a ∉ tree.labels) :
    (s.touch (addr tree) f).cell a = s.cell a :=
  Machine.touch_cell_of_ne
    ((addr_null_or_mem tree).imp_right fun member same => outside (same ▸ member))

theorem within_touch_addr {addrs : List Addr} (within : Within addrs s s')
    (included : tree.labels ⊆ addrs) : Within addrs s (s'.touch (addr tree) f) :=
  within.touch ((addr_null_or_mem tree).imp_right fun member => included member)

theorem Rep.pointer (rep : Rep s tree parent root) : s.Pointer (addr tree) := by
  cases tree with
  | nil => exact .inl rfl
  | node => exact .inr rep.1

theorem Rep.reparent {newParent : Addr} (nodup : tree.labels.Nodup) (good : 0 ∉ s.live)
    (rep : Rep s tree parent root) :
    Rep (s.touch (addr tree) fun n => { n with parent := newParent }) tree newParent root := by
  cases tree with
  | nil => trivial
  | node a red e l r =>
      obtain ⟨present, here, left, right⟩ := rep
      have notNull : a ≠ 0 := fun null => good (null ▸ present)
      simp only [labels_node, List.nodup_cons, List.mem_append, not_or] at nodup
      obtain ⟨⟨notLeft, notRight⟩, _⟩ := nodup
      simp only [addr_node, Machine.touch, notNull, if_false, Rep, Machine.modify_live, present,
        Machine.modify_cell_self, here, true_and]
      exact ⟨(Rep.modify notLeft).mpr left, (Rep.modify notRight).mpr right⟩

end Frames

/-!
## Pointer operations
-/

section Operations

variable {s : RbMachine} {a b p x l r : Addr}

/-- The exclusive-or assignments exchange the two entries. -/
@[simp] theorem swapNodeData_apply (first : a ∈ s.live) (second : b ∈ s.live) (different : a ≠ b) :
    swapNodeData a b s = some ((),
      (s.modify a fun n => { n with key := (s.cell b).key, data := (s.cell b).data }).modify b
        fun n => { n with key := (s.cell a).key, data := (s.cell a).data }) := by
  simp only [swapNodeData, swapKey, swapData, bind_apply, load_apply, store_apply, andThen_some,
    first, second, Machine.modify_live, Machine.modify_cell_self, Machine.modify_cell_of_ne,
    Machine.modify_cell_of_ne', different, ne_eq, not_false_eq_true]
  congr 2
  simp only [Machine.modify, Machine.mk.injEq, true_and, and_true]
  funext x
  by_cases atA : x = a
  · simp [Function.update_apply, atA, different]
  · by_cases atB : x = b
    · simp [Function.update_apply, atB, Ne.symm different]
    · simp [Function.update_apply, atA, atB]

@[simp] theorem swapNodeData_apply' (first : a ∈ s.live) (second : b ∈ s.live)
    (different : b ≠ a) :
    swapNodeData a b s = some ((),
      (s.modify a fun n => { n with key := (s.cell b).key, data := (s.cell b).data }).modify b
        fun n => { n with key := (s.cell a).key, data := (s.cell a).data }) :=
  swapNodeData_apply first second different.symm

@[simp] theorem buildRelationLeft_apply (first : p ∈ s.live) (second : x ∈ s.live) :
    buildRelationLeft p x s = some ((),
      (s.modify p fun n => { n with lnode := x }).modify x fun n => { n with parent := p }) := by
  simp [buildRelationLeft, setLnode, setParent, store_apply, first, second]

@[simp] theorem buildRelationRight_apply (first : p ∈ s.live) (second : x ∈ s.live) :
    buildRelationRight p x s = some ((),
      (s.modify p fun n => { n with rnode := x }).modify x fun n => { n with parent := p }) := by
  simp [buildRelationRight, setRnode, setParent, store_apply, first, second]

@[simp] theorem buildRelation_apply (here : p ∈ s.live) (left : l ∈ s.live) (right : r ∈ s.live) :
    buildRelation p l r s = some ((),
      (((s.modify p fun n => { n with lnode := l }).modify p fun n => { n with rnode := r }).modify l
        fun n => { n with parent := p }).modify r fun n => { n with parent := p }) := by
  simp [buildRelation, setLnode, setRnode, setParent, store_apply, here, left, right]

@[simp] theorem buildRelationLeftCheck_apply (here : p ∈ s.live) (below : s.Pointer x) :
    buildRelationLeftCheck p x s = some ((),
      (s.modify p fun n => { n with lnode := x }).touch x fun n => { n with parent := p }) := by
  by_cases null : x = 0
  · simp [buildRelationLeftCheck, setLnode, store_apply, here, null, Machine.touch]
  · simp [buildRelationLeftCheck, setLnode, setParent, store_apply, here, null,
      below.resolve_left null, Machine.touch]

@[simp] theorem buildRelationRightCheck_apply (here : p ∈ s.live) (below : s.Pointer x) :
    buildRelationRightCheck p x s = some ((),
      (s.modify p fun n => { n with rnode := x }).touch x fun n => { n with parent := p }) := by
  by_cases null : x = 0
  · simp [buildRelationRightCheck, setRnode, store_apply, here, null, Machine.touch]
  · simp [buildRelationRightCheck, setRnode, setParent, store_apply, here, null,
      below.resolve_left null, Machine.touch]

end Operations

end GbfLibrary.Rbtree
