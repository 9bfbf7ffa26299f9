import Mathlib.Algebra.Group.Nat.Defs
import Mathlib.Data.List.Basic
import Mathlib.Data.List.Nodup
import Mathlib.Data.List.Perm.Basic
import Mathlib.Order.Basic

/-!
# Left-leaning red-black trees

Trees whose red links lean to the left, with labelled nodes, and the paths
into them. Rebalancing is described on a path: what grows or shrinks below the
path is absorbed by the frames on the way up. The labels name the nodes, so a
relation also says which node ends up where.
-/

set_option autoImplicit false

namespace GbfLibrary.Trees

inductive ColoredTree (A E : Type) where
  | nil
  | node (label : A) (red : Bool) (entry : E) (left right : ColoredTree A E)

namespace ColoredTree

variable {A E : Type}

def isRed : ColoredTree A E → Bool
  | nil => false
  | node _ red _ _ _ => red

def labels : ColoredTree A E → List A
  | nil => []
  | node label _ _ left right => label :: (left.labels ++ right.labels)

def inorder : ColoredTree A E → List E
  | nil => []
  | node _ _ entry left right => left.inorder ++ entry :: right.inorder

def height : ColoredTree A E → Nat
  | nil => 0
  | node _ _ _ left right => max left.height right.height + 1

@[simp] theorem isRed_nil : (nil : ColoredTree A E).isRed = false := rfl

@[simp] theorem isRed_node (label : A) (red : Bool) (entry : E) (left right : ColoredTree A E) :
    (node label red entry left right).isRed = red := rfl

@[simp] theorem labels_nil : (nil : ColoredTree A E).labels = [] := rfl

@[simp] theorem labels_node (label : A) (red : Bool) (entry : E) (left right : ColoredTree A E) :
    (node label red entry left right).labels = label :: (left.labels ++ right.labels) := rfl

@[simp] theorem inorder_nil : (nil : ColoredTree A E).inorder = [] := rfl

@[simp] theorem inorder_node (label : A) (red : Bool) (entry : E) (left right : ColoredTree A E) :
    (node label red entry left right).inorder = left.inorder ++ entry :: right.inorder := rfl

theorem height_le_length_labels (tree : ColoredTree A E) : tree.height ≤ tree.labels.length := by
  induction tree with
  | nil => simp [height]
  | node label red entry left right leftIH rightIH =>
      simp only [height, labels_node, List.length_cons, List.length_append]
      omega

theorem length_labels_eq_length_inorder (tree : ColoredTree A E) :
    tree.labels.length = tree.inorder.length := by
  induction tree with
  | nil => rfl
  | node label red entry left right leftIH rightIH =>
      simp only [labels_node, inorder_node, List.length_cons, List.length_append]
      omega

/-!
## Invariants
-/

/-- Every path down to an empty tree has `height` black nodes, red nodes are
left children, and no red node has a red child. -/
inductive Balanced : ColoredTree A E → Nat → Prop where
  | nil : Balanced nil 0
  | black {label : A} {entry : E} {left right : ColoredTree A E} {height : Nat} :
      Balanced left height → Balanced right height → right.isRed = false →
      Balanced (node label false entry left right) (height + 1)
  | red {label : A} {entry : E} {left right : ColoredTree A E} {height : Nat} :
      Balanced left height → Balanced right height → left.isRed = false → right.isRed = false →
      Balanced (node label true entry left right) height

/-- Search order over whole subtrees. -/
def Ordered {O : Type} [LT O] (key : E → O) : ColoredTree A E → Prop
  | nil => True
  | node _ _ entry left right =>
      (∀ other ∈ left.inorder, key other < key entry) ∧
      (∀ other ∈ right.inorder, key entry < key other) ∧
      Ordered key left ∧ Ordered key right

theorem ordered_iff_sorted {O : Type} [Preorder O] (key : E → O) (tree : ColoredTree A E) :
    Ordered key tree ↔ (tree.inorder.map key).Pairwise (· < ·) := by
  induction tree with
  | nil => simp [Ordered]
  | node label red entry left right leftIH rightIH =>
      simp only [Ordered, leftIH, rightIH, inorder_node, List.map_append, List.map_cons,
        List.pairwise_append, List.pairwise_cons, List.mem_cons, List.mem_map,
        forall_exists_index, and_imp, forall_apply_eq_imp_iff₂]
      constructor
      · rintro ⟨below, above, left, right⟩
        refine ⟨left, ⟨above, right⟩, ?_⟩
        rintro other member larger (rfl | ⟨value, found, rfl⟩)
        · exact below other member
        · exact lt_trans (below other member) (above value found)
      · rintro ⟨left, ⟨above, right⟩, across⟩
        exact ⟨fun other member => across other member _ (.inl rfl), above, left, right⟩

def left : ColoredTree A E → ColoredTree A E
  | nil => nil
  | node _ _ _ left _ => left

def right : ColoredTree A E → ColoredTree A E
  | nil => nil
  | node _ _ _ _ right => right

def atRoot : ColoredTree A E → Option E
  | nil => none
  | node _ _ entry _ _ => some entry

theorem mem_inorder_of_entry {tree : ColoredTree A E} {entry : E} (member : entry ∈ tree.atRoot) :
    entry ∈ tree.inorder := by
  cases tree with
  | nil => cases member
  | node => simp_all [atRoot]

theorem mem_inorder_of_left {tree : ColoredTree A E} {entry : E} (member : entry ∈ tree.left.inorder) :
    entry ∈ tree.inorder := by
  cases tree with
  | nil => cases member
  | node => exact List.mem_append_left _ member

theorem mem_inorder_of_right {tree : ColoredTree A E} {entry : E} (member : entry ∈ tree.right.inorder) :
    entry ∈ tree.inorder := by
  cases tree with
  | nil => cases member
  | node => exact List.mem_append_right _ (List.mem_cons_of_mem _ member)

/-- Search order between a node and its children alone. -/
def ChildOrdered {O : Type} [LT O] (key : E → O) : ColoredTree A E → Prop
  | nil => True
  | node _ _ entry left right =>
      (∀ other ∈ left.atRoot, key other < key entry) ∧
      (∀ other ∈ right.atRoot, key entry < key other) ∧
      ChildOrdered key left ∧ ChildOrdered key right

/-- Search order between a node and the nodes that lie between it and a child. -/
def InnerOrdered {O : Type} [LT O] (key : E → O) : ColoredTree A E → Prop
  | nil => True
  | node _ _ entry left right =>
      (∀ other ∈ left.right.inorder, key other < key entry) ∧
      (∀ other ∈ right.left.inorder, key entry < key other) ∧
      InnerOrdered key left ∧ InnerOrdered key right

theorem ordered_iff_inner {O : Type} [Preorder O] (key : E → O) (tree : ColoredTree A E) :
    Ordered key tree ↔ ChildOrdered key tree ∧ InnerOrdered key tree := by
  induction tree with
  | nil => simp [Ordered, ChildOrdered, InnerOrdered]
  | node label red entry l r leftIH rightIH =>
      simp only [Ordered, ChildOrdered, InnerOrdered, leftIH, rightIH]
      constructor
      · rintro ⟨below, above, ⟨leftChild, leftInner⟩, rightChild, rightInner⟩
        refine ⟨⟨?_, ?_, leftChild, rightChild⟩, ?_, ?_, leftInner, rightInner⟩
        · exact fun other member => below other (mem_inorder_of_entry member)
        · exact fun other member => above other (mem_inorder_of_entry member)
        · exact fun other member => below other (mem_inorder_of_right member)
        · exact fun other member => above other (mem_inorder_of_left member)
      · rintro ⟨⟨below, above, leftChild, rightChild⟩, leftInside, rightInside, leftInner, rightInner⟩
        have leftOrdered : Ordered key l := leftIH.mpr ⟨leftChild, leftInner⟩
        have rightOrdered : Ordered key r := rightIH.mpr ⟨rightChild, rightInner⟩
        refine ⟨?_, ?_, ⟨leftChild, leftInner⟩, rightChild, rightInner⟩
        · cases l with
          | nil => simp
          | node b bRed be bl br =>
              have between : key be < key entry := below be (by simp [atRoot])
              intro other member
              simp only [inorder_node, List.mem_append, List.mem_cons] at member
              rcases member with inLeft | rfl | inRight
              · exact lt_trans (leftOrdered.1 other inLeft) between
              · exact between
              · exact leftInside other inRight
        · cases r with
          | nil => simp
          | node c cRed ce cl cr =>
              have between : key entry < key ce := above ce (by simp [atRoot])
              intro other member
              simp only [inorder_node, List.mem_append, List.mem_cons] at member
              rcases member with inLeft | rfl | inRight
              · exact rightInside other inLeft
              · exact between
              · exact lt_trans between (rightOrdered.2.1 other inRight)

/-- The number of black nodes on every way from the root to an empty tree. -/
def blackCounts : ColoredTree A E → List Nat
  | nil => [0]
  | node _ red _ left right =>
      (left.blackCounts ++ right.blackCounts).map (· + if red then 0 else 1)

theorem Balanced.blackCounts_eq {tree : ColoredTree A E} {height : Nat} (balanced : Balanced tree height) :
    ∀ count ∈ tree.blackCounts, count = height := by
  induction balanced with
  | nil => simp [blackCounts]
  | black _ _ _ leftIH rightIH | red _ _ _ _ leftIH rightIH =>
      simp only [blackCounts, List.mem_map, List.mem_append, forall_exists_index, and_imp]
      rintro _ count (member | member) rfl
      · simp [leftIH count member]
      · simp [rightIH count member]

/-- Red nodes at most double the length of a way. -/
theorem Balanced.height_le {tree : ColoredTree A E} {height : Nat} (balanced : Balanced tree height) :
    tree.height ≤ 2 * height + if tree.isRed then 1 else 0 := by
  induction balanced with
  | nil => simp [ColoredTree.height]
  | @black label entry left right height _ _ rightBlack leftIH rightIH =>
      have leftLow : left.height ≤ 2 * height + 1 := by
        refine Nat.le_trans leftIH ?_
        split <;> omega
      simp only [rightBlack, Bool.false_eq_true, if_false] at rightIH
      simp only [ColoredTree.height, isRed_node, Bool.false_eq_true, if_false]
      omega
  | red _ _ leftBlack rightBlack leftIH rightIH =>
      simp only [leftBlack, Bool.false_eq_true, if_false] at leftIH
      simp only [rightBlack, Bool.false_eq_true, if_false] at rightIH
      simp only [ColoredTree.height, isRed_node, if_true]
      omega

theorem Balanced.two_pow_le {tree : ColoredTree A E} {height : Nat} (balanced : Balanced tree height) :
    2 ^ height ≤ tree.labels.length + 1 := by
  induction balanced with
  | nil => simp
  | black _ _ _ leftIH rightIH =>
      rw [Nat.pow_succ]
      simp only [labels_node, List.length_cons, List.length_append]
      omega
  | red _ _ _ _ leftIH rightIH =>
      simp only [labels_node, List.length_cons, List.length_append]
      omega

/-- Two black subtrees may be joined under a node of either colour. -/
theorem Balanced.join {label : A} {red : Bool} {entry : E} {left right : ColoredTree A E} {height : Nat}
    (leftBalanced : Balanced left height) (rightBalanced : Balanced right height)
    (leftBlack : left.isRed = false) (rightBlack : right.isRed = false) :
    Balanced (node label red entry left right) (if red then height else height + 1) := by
  cases red with
  | false => exact .black leftBalanced rightBalanced rightBlack
  | true => exact .red leftBalanced rightBalanced leftBlack rightBlack

theorem Balanced.nil_of_height_zero {tree : ColoredTree A E} (balanced : Balanced tree 0)
    (black : tree.isRed = false) : tree = ColoredTree.nil := by
  cases balanced with
  | nil => rfl
  | red => simp at black

theorem Balanced.subtrees {label : A} {red : Bool} {entry : E} {left right : ColoredTree A E}
    {height : Nat} (balanced : Balanced (node label red entry left right) height) :
    ∃ below, Balanced left below ∧ Balanced right below ∧ right.isRed = false ∧
      height = if red then below else below + 1 := by
  cases balanced with
  | black leftBalanced rightBalanced rightBlack =>
      exact ⟨_, leftBalanced, rightBalanced, rightBlack, rfl⟩
  | red leftBalanced rightBalanced leftBlack rightBlack =>
      exact ⟨_, leftBalanced, rightBalanced, rightBlack, rfl⟩

/-- The shape of a tree does not depend on its entries. -/
theorem Balanced.replace {label : A} {red : Bool} {entry other : E} {left right : ColoredTree A E}
    {height : Nat} (balanced : Balanced (node label red entry left right) height) :
    Balanced (node label red other left right) height := by
  cases balanced with
  | black leftBalanced rightBalanced rightBlack =>
      exact .black leftBalanced rightBalanced rightBlack
  | red leftBalanced rightBalanced leftBlack rightBlack =>
      exact .red leftBalanced rightBalanced leftBlack rightBlack

/-- A node with a right child has a left child. -/
theorem Balanced.nonempty {left right : ColoredTree A E} {height : Nat} (leftBalanced : Balanced left height)
    (rightBalanced : Balanced right height) (rightBlack : right.isRed = false)
    (nonempty : right ≠ ColoredTree.nil) : left ≠ ColoredTree.nil := by
  rintro rfl
  cases leftBalanced with
  | nil => exact nonempty (rightBalanced.nil_of_height_zero rightBlack)

/-- A black tree of positive height is a node, and so is a red one. -/
theorem Balanced.black_node {tree : ColoredTree A E} {height : Nat} (balanced : Balanced tree (height + 1))
    (black : tree.isRed = false) :
    ∃ label entry left right, tree = ColoredTree.node label false entry left right ∧
      Balanced left height ∧ Balanced right height ∧ right.isRed = false := by
  cases balanced with
  | black leftBalanced rightBalanced rightBlack =>
      exact ⟨_, _, _, _, rfl, leftBalanced, rightBalanced, rightBlack⟩
  | red => simp at black

theorem Balanced.red_node {tree : ColoredTree A E} {height : Nat} (balanced : Balanced tree height)
    (red : tree.isRed = true) :
    ∃ label entry left right, tree = ColoredTree.node label true entry left right ∧
      Balanced left height ∧ Balanced right height ∧
      left.isRed = false ∧ right.isRed = false := by
  cases balanced with
  | nil => simp at red
  | black => simp at red
  | red leftBalanced rightBalanced leftBlack rightBlack =>
      exact ⟨_, _, _, _, rfl, leftBalanced, rightBalanced, leftBlack, rightBlack⟩

end ColoredTree

/-!
## Paths
-/

inductive Side where
  | left
  | right
  deriving DecidableEq

/-- A node on the way from a hole to the root. `side` tells on which side of
the node the hole is, `sibling` is the subtree on the other side. -/
structure Frame (A E : Type) where
  side : Side
  label : A
  red : Bool
  entry : E
  sibling : ColoredTree A E

/-- Frames from the hole up to the root. -/
abbrev Path (A E : Type) := List (Frame A E)

namespace Path

variable {A E : Type}

open ColoredTree

def plug : Path A E → ColoredTree A E → ColoredTree A E
  | [], tree => tree
  | ⟨.left, label, red, entry, sibling⟩ :: path, tree => plug path (node label red entry tree sibling)
  | ⟨.right, label, red, entry, sibling⟩ :: path, tree => plug path (node label red entry sibling tree)

def labels : Path A E → List A
  | [] => []
  | frame :: path => frame.label :: (frame.sibling.labels ++ labels path)

/-- The entries before the hole. -/
def before : Path A E → List E
  | [] => []
  | ⟨.left, _, _, _, _⟩ :: path => before path
  | ⟨.right, _, _, entry, sibling⟩ :: path => before path ++ (sibling.inorder ++ [entry])

/-- The entries after the hole. -/
def after : Path A E → List E
  | [] => []
  | ⟨.left, _, _, entry, sibling⟩ :: path => entry :: (sibling.inorder ++ after path)
  | ⟨.right, _, _, _, _⟩ :: path => after path

/-- The label at the root of a tree with `hole` at the root of the hole. -/
def top (hole : A) : Path A E → A
  | [] => hole
  | frame :: path => top frame.label path

@[simp] theorem top_nil (hole : A) : top hole ([] : Path A E) = hole := rfl

@[simp] theorem top_cons (hole : A) (frame : Frame A E) (path : Path A E) :
    top hole (frame :: path) = top frame.label path := rfl

@[simp] theorem plug_nil (tree : ColoredTree A E) : plug [] tree = tree := rfl

@[simp] theorem plug_left (label : A) (red : Bool) (entry : E) (sibling tree : ColoredTree A E)
    (path : Path A E) :
    plug (⟨.left, label, red, entry, sibling⟩ :: path) tree =
      plug path (node label red entry tree sibling) := rfl

@[simp] theorem plug_right (label : A) (red : Bool) (entry : E) (sibling tree : ColoredTree A E)
    (path : Path A E) :
    plug (⟨.right, label, red, entry, sibling⟩ :: path) tree =
      plug path (node label red entry sibling tree) := rfl

@[simp] theorem labels_nil : labels ([] : Path A E) = [] := rfl

@[simp] theorem labels_cons (frame : Frame A E) (path : Path A E) :
    labels (frame :: path) = frame.label :: (frame.sibling.labels ++ labels path) := rfl

theorem labels_append (inner outer : Path A E) :
    labels (inner ++ outer) = labels inner ++ labels outer := by
  induction inner with
  | nil => rfl
  | cons frame path ih => simp [ih]

theorem plug_append (inner outer : Path A E) (tree : ColoredTree A E) :
    plug (inner ++ outer) tree = plug outer (plug inner tree) := by
  induction inner generalizing tree with
  | nil => rfl
  | cons frame path ih =>
      rcases frame with ⟨side, label, red, entry, sibling⟩
      cases side <;> simp [ih]

theorem plug_node_ne_nil (path : Path A E) (label : A) (red : Bool) (entry : E)
    (left right : ColoredTree A E) : plug path (node label red entry left right) ≠ nil := by
  induction path generalizing label red entry left right with
  | nil => simp
  | cons frame path ih =>
      rcases frame with ⟨side, b, bRed, be, sibling⟩
      cases side with
      | left => exact ih _ _ _ _ _
      | right => exact ih _ _ _ _ _

theorem plug_ne_nil {path : Path A E} (nonempty : path ≠ []) (tree : ColoredTree A E) :
    plug path tree ≠ nil := by
  cases path with
  | nil => exact absurd rfl nonempty
  | cons frame path =>
      rcases frame with ⟨side, b, bRed, be, sibling⟩
      cases side with
      | left => exact plug_node_ne_nil _ _ _ _ _ _
      | right => exact plug_node_ne_nil _ _ _ _ _ _

theorem inorder_plug (path : Path A E) (tree : ColoredTree A E) :
    (plug path tree).inorder = before path ++ (tree.inorder ++ after path) := by
  induction path generalizing tree with
  | nil => simp [before, after]
  | cons frame path ih =>
      rcases frame with ⟨side, label, red, entry, sibling⟩
      cases side <;> simp [before, after, ih]

theorem labels_plug (path : Path A E) (tree : ColoredTree A E) :
    (plug path tree).labels.Perm (tree.labels ++ labels path) := by
  induction path generalizing tree with
  | nil => simp
  | cons frame path ih =>
      rcases frame with ⟨side, label, red, entry, sibling⟩
      cases side with
      | left =>
          refine (ih _).trans ?_
          simpa using List.perm_middle.symm
      | right =>
          refine (ih _).trans ?_
          simp only [labels_node, labels_cons, List.cons_append, List.append_assoc]
          refine List.Perm.trans ?_ List.perm_middle.symm
          refine List.Perm.cons _ ?_
          rw [← List.append_assoc, ← List.append_assoc]
          exact List.perm_append_comm.append_right _

theorem length_le_length_labels (path : Path A E) : path.length ≤ (labels path).length := by
  induction path with
  | nil => simp
  | cons frame path ih =>
      simp only [List.length_cons, labels_cons, List.length_append]
      omega

/-- Filling the hole with a balanced tree of height `height`, whose root has
colour `red`, makes a balanced tree of height `total` with a black root. -/
def Balanced : Bool → Path A E → Nat → Nat → Prop
  | red, [], height, total => red = false ∧ total = height
  | red, frame :: path, height, total =>
      frame.sibling.Balanced height ∧
      (red = true → frame.side = .left ∧ frame.red = false) ∧
      (frame.red = true ∨ frame.side = .left → frame.sibling.isRed = false) ∧
      Balanced frame.red path (if frame.red then height else height + 1) total

theorem Balanced.plug {path : Path A E} {tree : ColoredTree A E} {height total : Nat}
    (frames : Balanced tree.isRed path height total) (balanced : tree.Balanced height) :
    (plug path tree).Balanced total ∧ (plug path tree).isRed = false := by
  induction path generalizing tree height with
  | nil =>
      obtain ⟨black, rfl⟩ := frames
      exact ⟨balanced, black⟩
  | cons frame path ih =>
      rcases frame with ⟨side, label, red, entry, sibling⟩
      obtain ⟨sibling, redHole, black, outer⟩ := frames
      cases side with
      | left =>
          refine ih outer ?_
          cases red with
          | false => exact .black balanced sibling (black (.inr rfl))
          | true =>
              have holeBlack : tree.isRed = false := by
                by_contra holeRed
                simpa using (redHole (by simpa using holeRed)).2
              exact .red balanced sibling holeBlack (black (.inl rfl))
      | right =>
          have holeBlack : tree.isRed = false := by
            by_contra holeRed
            simpa using (redHole (by simpa using holeRed)).1
          refine ih outer ?_
          cases red with
          | false => exact .black sibling balanced holeBlack
          | true => exact .red sibling balanced (black (.inl rfl)) holeBlack

theorem Balanced.replace_middle (other : E) {inner outer : Path A E} {side : Side} {label : A}
    {red hole : Bool} {entry : E} {sibling : ColoredTree A E} {height total : Nat}
    (frames : Balanced hole (inner ++ ⟨side, label, red, entry, sibling⟩ :: outer) height total) :
    Balanced hole (inner ++ ⟨side, label, red, other, sibling⟩ :: outer) height total := by
  induction inner generalizing hole height with
  | nil => exact frames
  | cons frame inner ih =>
      obtain ⟨sibling, redHole, black, above⟩ := frames
      exact ⟨sibling, redHole, black, ih above⟩

theorem Balanced.of_plug {path : Path A E} {tree : ColoredTree A E} {total : Nat}
    (balanced : (Path.plug path tree).Balanced total) (black : (Path.plug path tree).isRed = false) :
    ∃ height, tree.Balanced height ∧ Balanced tree.isRed path height total := by
  induction path generalizing tree with
  | nil => exact ⟨total, balanced, black, rfl⟩
  | cons frame path ih =>
      rcases frame with ⟨side, label, red, entry, sibling⟩
      cases side with
      | left =>
          obtain ⟨height, joined, outer⟩ := ih balanced black
          cases joined with
          | black left right rightBlack =>
              exact ⟨_, left, right, by simp, by simp [rightBlack], outer⟩
          | red left right leftBlack rightBlack =>
              exact ⟨_, left, right, by simp [leftBlack], by simp [rightBlack], outer⟩
      | right =>
          obtain ⟨height, joined, outer⟩ := ih balanced black
          cases joined with
          | black left right rightBlack =>
              exact ⟨_, right, left, by simp [rightBlack], by simp, outer⟩
          | red left right leftBlack rightBlack =>
              exact ⟨_, right, left, by simp [rightBlack], by simp [leftBlack], outer⟩

end Path

end GbfLibrary.Trees
