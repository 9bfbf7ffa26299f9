import GbfLibrary.Trees.TwoThree
import GbfLibrary.TwoThree.Model
import Mathlib.Data.LawfulXor.Basic

/-!
# 2-3 trees in memory

`Rep s tree parent root` says that the nodes of `s` spell out `tree`, and
`PathRep` the same of a path with a given pointer into its hole.
-/

set_option autoImplicit false

namespace GbfLibrary.TwoThree

open Memory Prog Trees Tree23

/-- A key and its value. -/
abbrev Entry := Word × Word

abbrev LbsTree := Tree23 Addr Entry
abbrev LbsFrame := Frame23 Addr Entry
abbrev LbsPath := Path23 Addr Entry

/-- The pointer to a tree. -/
def addr : LbsTree → Addr
  | .nil => 0
  | .two a _ _ _ => a
  | .three a _ _ _ _ _ => a

@[simp] theorem addr_nil : addr .nil = 0 := rfl

@[simp] theorem addr_two (a : Addr) (e : Entry) (l r : LbsTree) : addr (two a e l r) = a := rfl

@[simp] theorem addr_three (a : Addr) (e f : Entry) (l m r : LbsTree) :
    addr (three a e f l m r) = a := rfl

theorem addr_mem_labels {tree : LbsTree} (notNull : addr tree ≠ 0) : addr tree ∈ tree.labels := by
  cases tree <;> simp_all

theorem ne_addr {a : Addr} {tree : LbsTree} (notNull : a ≠ 0) (outside : a ∉ tree.labels) :
    a ≠ addr tree := by
  rintro rfl
  exact outside (addr_mem_labels notNull)

/-!
## Cells
-/

@[simp] theorem isLeaf_mk (root : Int) (p l m m2 r : Addr) (lk lv rk rv : Word) :
    (Node.mk root p l m m2 r lk lv rk rv).isLeaf = (l == 0) := rfl

@[simp] theorem isTri_mk (root : Int) (p l m m2 r : Addr) (lk lv rk rv : Word) :
    (Node.mk root p l m m2 r lk lv rk rv).isTri =
      (lk != INVALID_KEY_VALUE && rk != INVALID_KEY_VALUE) := rfl

@[simp] theorem isRoot_mk (root : Int) (p l m m2 r : Addr) (lk lv rk rv : Word) :
    (Node.mk root p l m m2 r lk lv rk rv).isRoot = (root == 1) := rfl

/-!
## Representation
-/

def Rep (s : TreeMachine) : LbsTree → Addr → Int → Prop
  | .nil, _, _ => True
  | .two a e l r, parent, root =>
      a ∈ s.live ∧ e.1 ≠ INVALID_KEY_VALUE ∧
      s.cell a = ⟨root, parent, addr l, 0, 0, addr r, e.1, e.2, INVALID_KEY_VALUE, 0⟩ ∧
      Rep s l a 0 ∧ Rep s r a 0
  | .three a e f l m r, parent, root =>
      a ∈ s.live ∧ e.1 ≠ INVALID_KEY_VALUE ∧ f.1 ≠ INVALID_KEY_VALUE ∧
      s.cell a = ⟨root, parent, addr l, addr m, 0, addr r, e.1, e.2, f.1, f.2⟩ ∧
      Rep s l a 0 ∧ Rep s m a 0 ∧ Rep s r a 0

/-- The node of a frame, with `hole` as the pointer into the hole. -/
def FrameRep (s : TreeMachine) : LbsFrame → Addr → Addr → Int → Prop
  | .twoLeft a e r, hole, parent, root =>
      a ∈ s.live ∧ e.1 ≠ INVALID_KEY_VALUE ∧
      s.cell a = ⟨root, parent, hole, 0, 0, addr r, e.1, e.2, INVALID_KEY_VALUE, 0⟩ ∧
      Rep s r a 0
  | .twoRight a e l, hole, parent, root =>
      a ∈ s.live ∧ e.1 ≠ INVALID_KEY_VALUE ∧
      s.cell a = ⟨root, parent, addr l, 0, 0, hole, e.1, e.2, INVALID_KEY_VALUE, 0⟩ ∧
      Rep s l a 0
  | .threeLeft a e f m r, hole, parent, root =>
      a ∈ s.live ∧ e.1 ≠ INVALID_KEY_VALUE ∧ f.1 ≠ INVALID_KEY_VALUE ∧
      s.cell a = ⟨root, parent, hole, addr m, 0, addr r, e.1, e.2, f.1, f.2⟩ ∧
      Rep s m a 0 ∧ Rep s r a 0
  | .threeMiddle a e f l r, hole, parent, root =>
      a ∈ s.live ∧ e.1 ≠ INVALID_KEY_VALUE ∧ f.1 ≠ INVALID_KEY_VALUE ∧
      s.cell a = ⟨root, parent, addr l, hole, 0, addr r, e.1, e.2, f.1, f.2⟩ ∧
      Rep s l a 0 ∧ Rep s r a 0
  | .threeRight a e f l m, hole, parent, root =>
      a ∈ s.live ∧ e.1 ≠ INVALID_KEY_VALUE ∧ f.1 ≠ INVALID_KEY_VALUE ∧
      s.cell a = ⟨root, parent, addr l, addr m, 0, hole, e.1, e.2, f.1, f.2⟩ ∧
      Rep s l a 0 ∧ Rep s m a 0

/-- What the parent pointer at the hole of a path is. -/
def parentOf (slot : Addr) : LbsPath → Addr
  | [] => slot
  | frame :: _ => frame.label

/-- What the root flag at the hole of a path is. -/
def rootOf : LbsPath → Int
  | [] => 1
  | _ :: _ => 0

@[simp] theorem parentOf_nil (slot : Addr) : parentOf slot [] = slot := rfl

@[simp] theorem parentOf_cons (slot : Addr) (frame : LbsFrame) (path : LbsPath) :
    parentOf slot (frame :: path) = frame.label := rfl

@[simp] theorem rootOf_nil : rootOf [] = 1 := rfl

@[simp] theorem rootOf_cons (frame : LbsFrame) (path : LbsPath) : rootOf (frame :: path) = 0 := rfl

def PathRep (s : TreeMachine) (slot : Addr) : LbsPath → Addr → Prop
  | [], _ => True
  | frame :: path, hole =>
      FrameRep s frame hole (parentOf slot path) (rootOf path) ∧ PathRep s slot path frame.label

@[simp] theorem addr_fill (frame : LbsFrame) (tree : LbsTree) : addr (frame.fill tree) = frame.label := by
  cases frame <;> rfl

/-- The pointer to a whole tree, from the pointer into the hole. -/
def topOf : LbsPath → Addr → Addr
  | [], hole => hole
  | frame :: path, _ => topOf path frame.label

@[simp] theorem topOf_nil (hole : Addr) : topOf [] hole = hole := rfl

@[simp] theorem topOf_cons (frame : LbsFrame) (path : LbsPath) (hole : Addr) :
    topOf (frame :: path) hole = topOf path frame.label := rfl

theorem addr_plug (path : LbsPath) (tree : LbsTree) :
    addr (path.plug tree) = topOf path (addr tree) := by
  induction path generalizing tree with
  | nil => rfl
  | cons frame path ih => simp [ih]

theorem rep_fill {s : TreeMachine} {frame : LbsFrame} {tree : LbsTree} {parent : Addr} {root : Int} :
    Rep s (frame.fill tree) parent root ↔
      Rep s tree frame.label 0 ∧ FrameRep s frame (addr tree) parent root := by
  cases frame <;>
    simp only [Frame23.fill, Frame23.label, Rep, FrameRep] <;>
    tauto

theorem rep_plug {s : TreeMachine} {slot : Addr} {path : LbsPath} {tree : LbsTree} :
    Rep s (path.plug tree) slot 1 ↔
      Rep s tree (parentOf slot path) (rootOf path) ∧ PathRep s slot path (addr tree) := by
  induction path generalizing tree with
  | nil => simp [PathRep]
  | cons frame path ih =>
      simp only [Path23.plug_cons, ih, rep_fill, PathRep, parentOf_cons, rootOf_cons, addr_fill]
      tauto

theorem Rep.readsLabels (tree : LbsTree) (parent : Addr) (root : Int) :
    Local tree.labels fun s : TreeMachine => Rep s tree parent root := by
  intro s s' agree
  induction tree generalizing parent root with
  | nil => exact Iff.rfl
  | two a e l r leftIH rightIH =>
      have here := agree a (by simp)
      have left := leftIH a 0 (agree.mono (by simp))
      have right := rightIH a 0 (agree.mono (by simp))
      simp only [Rep, here.1, here.2, left, right]
  | three a e f l m r leftIH middleIH rightIH =>
      have here := agree a (by simp)
      have left := leftIH a 0 (agree.mono (by simp))
      have middle := middleIH a 0 (agree.mono (by intro b member; simp [member]))
      have right := rightIH a 0 (agree.mono (by intro b member; simp [member]))
      simp only [Rep, here.1, here.2, left, middle, right]

theorem FrameRep.readsLabels (frame : LbsFrame) (hole parent : Addr) (root : Int) :
    Local frame.labels fun s : TreeMachine => FrameRep s frame hole parent root := by
  intro s s' agree
  cases frame with
  | twoLeft a e r | twoRight a e r =>
      have here := agree a (by simp [Frame23.labels])
      have beside := Rep.readsLabels r a 0 s s' (agree.mono (by simp [Frame23.labels]))
      simp only [FrameRep, here.1, here.2, beside]
  | threeLeft a e f l r | threeMiddle a e f l r | threeRight a e f l r =>
      have here := agree a (by simp [Frame23.labels])
      have first := Rep.readsLabels l a 0 s s' (agree.mono (by simp [Frame23.labels]))
      have second := Rep.readsLabels r a 0 s s' (agree.mono (by simp [Frame23.labels]))
      simp only [FrameRep, here.1, here.2, first, second]

theorem PathRep.readsLabels (slot : Addr) (path : LbsPath) (hole : Addr) :
    Local path.labels fun s : TreeMachine => PathRep s slot path hole := by
  intro s s' agree
  induction path generalizing hole with
  | nil => exact Iff.rfl
  | cons frame path ih =>
      have here := FrameRep.readsLabels frame hole (parentOf slot path) (rootOf path) s s'
        (agree.mono (by simp))
      have above := ih frame.label (agree.mono (by simp))
      simp only [PathRep, here, above]

section Frames

variable {s : TreeMachine} {tree other : LbsTree} {path : LbsPath} {slot parent a hole : Addr}
  {root : Int} {f : Node → Node}

@[simp] theorem Rep.modify (outside : a ∉ tree.labels) :
    Rep (s.modify a f) tree parent root ↔ Rep s tree parent root :=
  (readsLabels tree parent root).modify outside

@[simp] theorem Rep.modify_addr (notNull : addr other ≠ 0)
    (apart : tree.labels.Disjoint other.labels) :
    Rep (s.modify (addr other) f) tree parent root ↔ Rep s tree parent root :=
  modify fun member => apart member (addr_mem_labels notNull)

@[simp] theorem Rep.modify_addr' (notNull : addr other ≠ 0)
    (apart : other.labels.Disjoint tree.labels) :
    Rep (s.modify (addr other) f) tree parent root ↔ Rep s tree parent root :=
  modify_addr notNull apart.symm

@[simp] theorem Rep.withGlob {g : Header} :
    Rep (s.withGlob g) tree parent root ↔ Rep s tree parent root :=
  (readsLabels tree parent root).withGlob

@[simp] theorem Rep.release (outside : a ∉ tree.labels) :
    Rep (s.release a) tree parent root ↔ Rep s tree parent root :=
  (readsLabels tree parent root).release outside

@[simp] theorem Rep.extend (outside : a ∉ tree.labels) {r : Node} :
    Rep (s.extend a r) tree parent root ↔ Rep s tree parent root :=
  (readsLabels tree parent root).extend outside

@[simp] theorem PathRep.modify (outside : a ∉ path.labels) :
    PathRep (s.modify a f) slot path hole ↔ PathRep s slot path hole :=
  (readsLabels slot path hole).modify outside

@[simp] theorem PathRep.modify_addr (notNull : addr other ≠ 0)
    (apart : path.labels.Disjoint other.labels) :
    PathRep (s.modify (addr other) f) slot path hole ↔ PathRep s slot path hole :=
  modify fun member => apart member (addr_mem_labels notNull)

@[simp] theorem PathRep.modify_addr' (notNull : addr other ≠ 0)
    (apart : other.labels.Disjoint path.labels) :
    PathRep (s.modify (addr other) f) slot path hole ↔ PathRep s slot path hole :=
  modify_addr notNull apart.symm

@[simp] theorem PathRep.withGlob {g : Header} :
    PathRep (s.withGlob g) slot path hole ↔ PathRep s slot path hole :=
  (readsLabels slot path hole).withGlob

@[simp] theorem PathRep.release (outside : a ∉ path.labels) :
    PathRep (s.release a) slot path hole ↔ PathRep s slot path hole :=
  (readsLabels slot path hole).release outside

@[simp] theorem PathRep.extend (outside : a ∉ path.labels) {r : Node} :
    PathRep (s.extend a r) slot path hole ↔ PathRep s slot path hole :=
  (readsLabels slot path hole).extend outside

@[simp] theorem modify_addr_cell (notNull : addr other ≠ 0) (outside : a ∉ other.labels) :
    (s.modify (addr other) f).cell a = s.cell a :=
  Machine.modify_cell_of_ne fun same => outside (same ▸ addr_mem_labels notNull)

theorem Rep.addr_live (rep : Rep s tree parent root) (notNull : addr tree ≠ 0) :
    addr tree ∈ s.live := by
  cases tree with
  | nil => simp at notNull
  | two => exact rep.1
  | three => exact rep.1

theorem Rep.addr_ne (good : 0 ∉ s.live) (rep : Rep s tree parent root) (nonempty : tree ≠ nil) :
    addr tree ≠ 0 := by
  cases tree with
  | nil => exact absurd rfl nonempty
  | two => exact fun null : _ = 0 => good (null ▸ rep.1)
  | three => exact fun null : _ = 0 => good (null ▸ rep.1)

theorem Rep.addr_ne_of_uniform {height : Nat} (good : 0 ∉ s.live) (rep : Rep s tree parent root)
    (uniform : tree.Uniform (height + 1)) : addr tree ≠ 0 := by
  refine rep.addr_ne good fun empty => ?_
  rw [empty] at uniform
  exact absurd uniform.eq_zero (Nat.succ_ne_zero height)

/-- What a program may do with a subtree that is not empty. -/
theorem Rep.inner {height : Nat} (good : 0 ∉ s.live) (rep : Rep s tree parent root)
    (uniform : tree.Uniform (height + 1)) :
    addr tree ≠ 0 ∧ addr tree ∈ s.live ∧ ∃ parent, Rep s tree parent root :=
  ⟨rep.addr_ne_of_uniform good uniform, rep.addr_live (rep.addr_ne_of_uniform good uniform), _, rep⟩

theorem Rep.live (rep : Rep s tree parent root) : ∀ a ∈ tree.labels, a ∈ s.live := by
  induction tree generalizing parent root with
  | nil => simp
  | two a e l r leftIH rightIH =>
      obtain ⟨live, _, _, left, right⟩ := rep
      simp only [labels_two, List.mem_cons, List.mem_append]
      rintro b (rfl | inLeft | inRight)
      · exact live
      · exact leftIH left b inLeft
      · exact rightIH right b inRight
  | three a e f l m r leftIH middleIH rightIH =>
      obtain ⟨live, _, _, _, left, middle, right⟩ := rep
      simp only [labels_three, List.mem_cons, List.mem_append]
      rintro b (rfl | inLeft | inMiddle | inRight)
      · exact live
      · exact leftIH left b inLeft
      · exact middleIH middle b inMiddle
      · exact rightIH right b inRight

theorem Rep.valid (rep : Rep s tree parent root) :
    ∀ e ∈ tree.inorder, e.1 ≠ INVALID_KEY_VALUE := by
  induction tree generalizing parent root with
  | nil => simp
  | two a e l r leftIH rightIH =>
      obtain ⟨_, valid, _, left, right⟩ := rep
      simp only [inorder_two, List.mem_append, List.mem_cons]
      rintro x (inLeft | rfl | inRight)
      · exact leftIH left x inLeft
      · exact valid
      · exact rightIH right x inRight
  | three a e f l m r leftIH middleIH rightIH =>
      obtain ⟨_, first, second, _, left, middle, right⟩ := rep
      simp only [inorder_three, List.mem_append, List.mem_cons]
      rintro x (inLeft | rfl | inMiddle | rfl | inRight)
      · exact leftIH left x inLeft
      · exact first
      · exact middleIH middle x inMiddle
      · exact second
      · exact rightIH right x inRight

@[simp] theorem Rep.reparent {newParent : Addr} (nodup : tree.labels.Nodup) :
    Rep (s.modify (addr tree) fun n => { n with parent := newParent }) tree newParent root ↔
      ∃ parent, Rep s tree parent root := by
  cases tree with
  | nil => simp [Rep]
  | two a e l r =>
      simp only [labels_two, List.nodup_cons, List.mem_append, not_or] at nodup
      obtain ⟨⟨notLeft, notRight⟩, _⟩ := nodup
      simp only [Rep, addr_two, Machine.modify_live, Machine.modify_cell_self,
        Rep.modify notLeft, Rep.modify notRight]
      constructor
      · rintro ⟨live, valid, here, left, right⟩
        refine ⟨(s.cell a).parent, live, valid, ?_, left, right⟩
        rw [Node.mk.injEq] at here ⊢
        exact ⟨here.1, rfl, here.2.2⟩
      · rintro ⟨parent, live, valid, here, left, right⟩
        exact ⟨live, valid, by rw [here], left, right⟩
  | three a e f l m r =>
      simp only [labels_three, List.nodup_cons, List.mem_append, not_or] at nodup
      obtain ⟨⟨notLeft, notMiddle, notRight⟩, _⟩ := nodup
      simp only [Rep, addr_three, Machine.modify_live, Machine.modify_cell_self,
        Rep.modify notLeft, Rep.modify notMiddle, Rep.modify notRight]
      constructor
      · rintro ⟨live, first, second, here, left, middle, right⟩
        refine ⟨(s.cell a).parent, live, first, second, ?_, left, middle, right⟩
        rw [Node.mk.injEq] at here ⊢
        exact ⟨here.1, rfl, here.2.2⟩
      · rintro ⟨parent, live, first, second, here, left, middle, right⟩
        exact ⟨live, first, second, by rw [here], left, middle, right⟩

end Frames

section Middle

variable {s s' : TreeMachine} {slot hole : Addr} {inner path : LbsPath} {frame frame' : LbsFrame}

theorem parentOf_middle (slot : Addr) (inner path : LbsPath) (same : frame'.label = frame.label) :
    parentOf slot (inner ++ frame' :: path) = parentOf slot (inner ++ frame :: path) := by
  cases inner with
  | nil => exact same
  | cons => rfl

theorem topOf_middle (inner path : LbsPath) (hole : Addr) (same : frame'.label = frame.label) :
    topOf (inner ++ frame' :: path) hole = topOf (inner ++ frame :: path) hole := by
  induction inner generalizing hole with
  | nil => simp [same]
  | cons first inner ih => exact ih first.label

theorem rootOf_middle (inner path : LbsPath) (frame : LbsFrame) :
    rootOf (inner ++ frame :: path) = 0 := by
  cases inner <;> rfl

theorem PathRep.middle (rep : PathRep s slot (inner ++ frame :: path) hole) :
    FrameRep s frame (topOf inner hole) (parentOf slot path) (rootOf path) ∧
      PathRep s slot path frame.label := by
  induction inner generalizing hole with
  | nil => exact rep
  | cons first inner ih => exact ih rep.2

theorem PathRep.replace (rep : PathRep s slot (inner ++ frame :: path) hole)
    (same : frame'.label = frame.label)
    (here : FrameRep s' frame' (topOf inner hole) (parentOf slot path) (rootOf path))
    (above : PathRep s' slot path frame.label) (agree : AgreeOn inner.labels s s') :
    PathRep s' slot (inner ++ frame' :: path) hole := by
  induction inner generalizing hole with
  | nil => exact ⟨here, same ▸ above⟩
  | cons first inner ih =>
      simp only [Path23.labels_cons] at agree
      simp only [List.cons_append, PathRep, rootOf_middle] at rep ⊢
      rw [parentOf_middle slot inner path same]
      obtain ⟨below, beyond⟩ := rep
      refine ⟨?_, ih beyond here (agree.mono (by simp))⟩
      exact (FrameRep.readsLabels first hole _ _ s s' (agree.mono (by simp))).mp below

end Middle

/-!
## Exclusive-or exchanges
-/

section Operations

variable {s : TreeMachine} {a b p c : Addr}

/-- Fill a pair of fields. -/
def Node.setPair (n : Node) (x : Side) (key value : Word) : Node :=
  (n.setKey x key).setValue x value

@[simp] theorem Node.setPair_l (n : Node) (key value : Word) :
    n.setPair .l key value = { n with lkey := key, lvalue := value } := rfl

@[simp] theorem Node.setPair_r (n : Node) (key value : Word) :
    n.setPair .r key value = { n with rkey := key, rvalue := value } := rfl

@[simp] theorem Node.key_l (n : Node) : n.key .l = n.lkey := rfl

@[simp] theorem Node.key_r (n : Node) : n.key .r = n.rkey := rfl

@[simp] theorem Node.value_l (n : Node) : n.value .l = n.lvalue := rfl

@[simp] theorem Node.value_r (n : Node) : n.value .r = n.rvalue := rfl

/-- The exclusive-or assignments exchange the keys of different nodes. -/
theorem swapKey_apply (x y : Side) (first : a ∈ s.live) (second : b ∈ s.live) (different : a ≠ b) :
    swapKey a x b y s = some ((),
      (s.modify a fun n => n.setKey x ((s.cell b).key y)).modify b
        fun n => n.setKey y ((s.cell a).key x)) := by
  simp only [swapKey, bind_apply, load_apply, store_apply, andThen_some, first, second,
    Machine.modify_live, Machine.modify_cell_self, Machine.modify_cell_of_ne', different, ne_eq, not_false_eq_true]
  congr 2
  simp only [Machine.modify, Machine.mk.injEq, true_and, and_true]
  funext c
  by_cases atA : c = a
  · cases x <;> cases y <;>
      simp [Function.update_apply, atA, different, Node.setKey]
  · by_cases atB : c = b
    · cases x <;> cases y <;>
        simp [Function.update_apply, atB, Ne.symm different, Node.setKey]
    · simp [Function.update_apply, atA, atB]

theorem swapValue_apply (x y : Side) (first : a ∈ s.live) (second : b ∈ s.live)
    (different : a ≠ b) :
    swapValue a x b y s = some ((),
      (s.modify a fun n => n.setValue x ((s.cell b).value y)).modify b
        fun n => n.setValue y ((s.cell a).value x)) := by
  simp only [swapValue, bind_apply, load_apply, store_apply, andThen_some, first, second,
    Machine.modify_live, Machine.modify_cell_self, Machine.modify_cell_of_ne', different, ne_eq, not_false_eq_true]
  congr 2
  simp only [Machine.modify, Machine.mk.injEq, true_and, and_true]
  funext c
  by_cases atA : c = a
  · cases x <;> cases y <;>
      simp [Function.update_apply, atA, different, Node.setValue]
  · by_cases atB : c = b
    · cases x <;> cases y <;>
        simp [Function.update_apply, atB, Ne.symm different, Node.setValue]
    · simp [Function.update_apply, atA, atB]

@[simp] theorem swapPair_apply (x y : Side) (first : a ∈ s.live) (second : b ∈ s.live)
    (different : a ≠ b) :
    swapPair a x b y s = some ((),
      (s.modify a fun n => n.setPair x ((s.cell b).key y) ((s.cell b).value y)).modify b
        fun n => n.setPair y ((s.cell a).key x) ((s.cell a).value x)) := by
  simp only [swapPair, bind_apply, swapKey_apply, swapValue_apply, andThen_some, first, second,
    Machine.modify_live, Machine.modify_cell_self, Machine.modify_cell_of_ne,
    Machine.modify_cell_of_ne', different, ne_eq, not_false_eq_true]
  congr 2
  simp only [Machine.modify, Machine.mk.injEq, true_and, and_true]
  funext c
  by_cases atA : c = a
  · cases x <;> cases y <;> simp [Function.update_apply, atA, different, Node.setKey, Node.setValue]
  · by_cases atB : c = b
    · cases x <;> cases y <;>
        simp [Function.update_apply, atB, Ne.symm different, Node.setKey, Node.setValue]
    · simp [Function.update_apply, atA, atB]

@[simp] theorem swapPair_apply' (x y : Side) (first : a ∈ s.live) (second : b ∈ s.live)
    (different : b ≠ a) :
    swapPair a x b y s = some ((),
      (s.modify a fun n => n.setPair x ((s.cell b).key y) ((s.cell b).value y)).modify b
        fun n => n.setPair y ((s.cell a).key x) ((s.cell a).value x)) :=
  swapPair_apply x y first second different.symm

/-- They exchange the two pairs of one node as well. -/
@[simp] theorem swapPair_self (present : a ∈ s.live) :
    swapPair a .l a .r s = some ((),
      s.modify a fun n => { n with
        lkey := (s.cell a).rkey, lvalue := (s.cell a).rvalue,
        rkey := (s.cell a).lkey, rvalue := (s.cell a).lvalue }) := by
  simp only [swapPair, swapKey, swapValue, bind_apply, load_apply, store_apply, andThen_some,
    present, Machine.modify_live, Machine.modify_cell_self]
  congr 2
  simp only [Machine.modify, Machine.mk.injEq, true_and, and_true]
  funext c
  by_cases here : c = a
  · simp [Function.update_apply, here, Node.setKey, Node.setValue]
  · simp [here]

end Operations

end GbfLibrary.TwoThree
