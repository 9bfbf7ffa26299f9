import Mathlib.Data.List.Basic
import Mathlib.Data.List.Count
import Mathlib.Data.List.Nodup
import Mathlib.Data.List.Perm.Basic
import Mathlib.Data.List.Perm.Subperm
import Mathlib.Order.Basic

/-!
# 2-3 trees

Trees of labelled nodes with one or two entries, and the paths into them. A
hole of a path can be filled in three ways: by a tree as high as the hole, by
two trees with an entry between them (`Settles`), and by a tree that is one
level too low below a node that lost its entry (`Shrinks`).
-/

set_option autoImplicit false

namespace GbfLibrary.Trees

inductive Tree23 (A E : Type) where
  | nil
  | two (label : A) (entry : E) (left right : Tree23 A E)
  | three (label : A) (first second : E) (left middle right : Tree23 A E)

namespace Tree23

variable {A E : Type}

def labels : Tree23 A E → List A
  | nil => []
  | two label _ left right => label :: (left.labels ++ right.labels)
  | three label _ _ left middle right =>
      label :: (left.labels ++ (middle.labels ++ right.labels))

def inorder : Tree23 A E → List E
  | nil => []
  | two _ entry left right => left.inorder ++ entry :: right.inorder
  | three _ first second left middle right =>
      left.inorder ++ first :: (middle.inorder ++ second :: right.inorder)

@[simp] theorem labels_nil : (nil : Tree23 A E).labels = [] := rfl

@[simp] theorem labels_two (label : A) (entry : E) (left right : Tree23 A E) :
    (two label entry left right).labels = label :: (left.labels ++ right.labels) := rfl

@[simp] theorem labels_three (label : A) (first second : E) (left middle right : Tree23 A E) :
    (three label first second left middle right).labels =
      label :: (left.labels ++ (middle.labels ++ right.labels)) := rfl

@[simp] theorem inorder_nil : (nil : Tree23 A E).inorder = [] := rfl

@[simp] theorem inorder_two (label : A) (entry : E) (left right : Tree23 A E) :
    (two label entry left right).inorder = left.inorder ++ entry :: right.inorder := rfl

@[simp] theorem inorder_three (label : A) (first second : E) (left middle right : Tree23 A E) :
    (three label first second left middle right).inorder =
      left.inorder ++ first :: (middle.inorder ++ second :: right.inorder) := rfl

/-- All leaves are `height` levels below the root. -/
inductive Uniform : Tree23 A E → Nat → Prop where
  | nil : Uniform nil 0
  | two {label : A} {entry : E} {left right : Tree23 A E} {height : Nat} :
      Uniform left height → Uniform right height → Uniform (two label entry left right) (height + 1)
  | three {label : A} {first second : E} {left middle right : Tree23 A E} {height : Nat} :
      Uniform left height → Uniform middle height → Uniform right height →
      Uniform (three label first second left middle right) (height + 1)

theorem Uniform.eq_nil {tree : Tree23 A E} (uniform : Uniform tree 0) : tree = Tree23.nil := by
  cases uniform with
  | nil => rfl

theorem Uniform.eq_zero {height : Nat} (uniform : Uniform (Tree23.nil : Tree23 A E) height) :
    height = 0 := by
  cases uniform with
  | nil => rfl

theorem Uniform.two_children {a : A} {e : E} {l r : Tree23 A E} {height : Nat}
    (uniform : Uniform (Tree23.two a e l r) (height + 1)) :
    Uniform l height ∧ Uniform r height := by
  cases uniform with
  | two left right => exact ⟨left, right⟩

theorem Uniform.three_children {a : A} {e f : E} {l m r : Tree23 A E} {height : Nat}
    (uniform : Uniform (Tree23.three a e f l m r) (height + 1)) :
    Uniform l height ∧ Uniform m height ∧ Uniform r height := by
  cases uniform with
  | three left middle right => exact ⟨left, middle, right⟩

theorem Uniform.unique {tree : Tree23 A E} {height other : Nat} (uniform : Uniform tree height)
    (another : Uniform tree other) : height = other := by
  induction uniform generalizing other with
  | nil => exact another.eq_zero.symm
  | two _ _ leftIH _ =>
      cases another with
      | two left _ => rw [leftIH left]
  | three _ _ _ leftIH _ _ =>
      cases another with
      | three left _ _ => rw [leftIH left]

theorem Uniform.le_length {tree : Tree23 A E} {height : Nat} (uniform : Uniform tree height) :
    height ≤ tree.inorder.length := by
  induction uniform with
  | nil => simp
  | two left right leftIH rightIH =>
      simp only [inorder_two, List.length_append, List.length_cons]
      omega
  | three left middle right leftIH middleIH rightIH =>
      simp only [inorder_three, List.length_append, List.length_cons]
      omega

/-- Search order over whole subtrees. -/
def Ordered {O : Type} [LT O] (key : E → O) : Tree23 A E → Prop
  | nil => True
  | two _ entry left right =>
      (∀ other ∈ left.inorder, key other < key entry) ∧
      (∀ other ∈ right.inorder, key entry < key other) ∧
      Ordered key left ∧ Ordered key right
  | three _ first second left middle right =>
      key first < key second ∧
      (∀ other ∈ left.inorder, key other < key first) ∧
      (∀ other ∈ middle.inorder, key first < key other ∧ key other < key second) ∧
      (∀ other ∈ right.inorder, key second < key other) ∧
      Ordered key left ∧ Ordered key middle ∧ Ordered key right

theorem ordered_of_sorted {O : Type} [Preorder O] (key : E → O) (tree : Tree23 A E)
    (sorted : (tree.inorder.map key).Pairwise (· < ·)) : Ordered key tree := by
  induction tree with
  | nil => trivial
  | two label entry left right leftIH rightIH =>
      simp only [inorder_two, List.map_append, List.map_cons, List.pairwise_append,
        List.pairwise_cons, List.mem_cons, List.mem_map, forall_exists_index, and_imp,
        forall_apply_eq_imp_iff₂] at sorted
      obtain ⟨left, ⟨above, right⟩, across⟩ := sorted
      exact ⟨fun other member => across other member _ (.inl rfl), above, leftIH left, rightIH right⟩
  | three label first second left middle right leftIH middleIH rightIH =>
      simp only [inorder_three, List.map_append, List.map_cons, List.pairwise_append,
        List.pairwise_cons, List.mem_append, List.mem_cons, List.mem_map, forall_exists_index,
        and_imp] at sorted
      obtain ⟨left, ⟨above, middle, ⟨beyond, right⟩, between⟩, across⟩ := sorted
      refine ⟨?_, ?_, ?_, ?_, leftIH left, middleIH middle, rightIH right⟩
      · exact above _ (.inr (.inl rfl))
      · exact fun other member => across _ other member rfl _ (.inl rfl)
      · intro other member
        exact ⟨above _ (.inl ⟨other, member, rfl⟩), between _ other member rfl _ (.inl rfl)⟩
      · exact fun other member => beyond _ other member rfl

end Tree23

open Tree23

/-!
## Paths
-/

/-- A node on the way from a hole to the root. -/
inductive Frame23 (A E : Type) where
  | twoLeft (label : A) (entry : E) (right : Tree23 A E)
  | twoRight (label : A) (entry : E) (left : Tree23 A E)
  | threeLeft (label : A) (first second : E) (middle right : Tree23 A E)
  | threeMiddle (label : A) (first second : E) (left right : Tree23 A E)
  | threeRight (label : A) (first second : E) (left middle : Tree23 A E)

namespace Frame23

variable {A E : Type}

def fill : Frame23 A E → Tree23 A E → Tree23 A E
  | twoLeft label entry right, tree => two label entry tree right
  | twoRight label entry left, tree => two label entry left tree
  | threeLeft label first second middle right, tree => three label first second tree middle right
  | threeMiddle label first second left right, tree => three label first second left tree right
  | threeRight label first second left middle, tree => three label first second left middle tree

def label : Frame23 A E → A
  | twoLeft label _ _ | twoRight label _ _ => label
  | threeLeft label _ _ _ _ | threeMiddle label _ _ _ _ | threeRight label _ _ _ _ => label

def labels : Frame23 A E → List A
  | twoLeft label _ right => label :: right.labels
  | twoRight label _ left => label :: left.labels
  | threeLeft label _ _ middle right => label :: (middle.labels ++ right.labels)
  | threeMiddle label _ _ left right => label :: (left.labels ++ right.labels)
  | threeRight label _ _ left middle => label :: (left.labels ++ middle.labels)

/-- The entries before the hole. -/
def before : Frame23 A E → List E
  | twoLeft _ _ _ | threeLeft _ _ _ _ _ => []
  | twoRight _ entry left => left.inorder ++ [entry]
  | threeMiddle _ first _ left _ => left.inorder ++ [first]
  | threeRight _ first second left middle =>
      left.inorder ++ first :: (middle.inorder ++ [second])

/-- The entries after the hole. -/
def after : Frame23 A E → List E
  | twoLeft _ entry right => entry :: right.inorder
  | twoRight _ _ _ | threeRight _ _ _ _ _ => []
  | threeLeft _ first second middle right =>
      first :: (middle.inorder ++ second :: right.inorder)
  | threeMiddle _ _ second _ right => second :: right.inorder

/-- The siblings of the hole have the given height. -/
def Uniform : Frame23 A E → Nat → Prop
  | twoLeft _ _ sibling, height | twoRight _ _ sibling, height => sibling.Uniform height
  | threeLeft _ _ _ middle right, height => middle.Uniform height ∧ right.Uniform height
  | threeMiddle _ _ _ left right, height => left.Uniform height ∧ right.Uniform height
  | threeRight _ _ _ left middle, height => left.Uniform height ∧ middle.Uniform height

theorem label_mem_labels (frame : Frame23 A E) : frame.label ∈ frame.labels := by
  cases frame <;> simp [label, labels]

theorem inorder_fill (frame : Frame23 A E) (tree : Tree23 A E) :
    (frame.fill tree).inorder = frame.before ++ (tree.inorder ++ frame.after) := by
  cases frame <;> simp [fill, before, after]

theorem labels_fill (frame : Frame23 A E) (tree : Tree23 A E) :
    (frame.fill tree).labels.Perm (tree.labels ++ frame.labels) := by
  classical
  refine List.perm_iff_count.mpr fun x => ?_
  cases frame <;>
    simp only [fill, labels, labels_two, labels_three, List.count_cons, List.count_append] <;>
    omega

theorem Uniform.fill {frame : Frame23 A E} {tree : Tree23 A E} {height : Nat}
    (around : frame.Uniform height) (uniform : tree.Uniform height) :
    (frame.fill tree).Uniform (height + 1) := by
  cases frame with
  | twoLeft label entry right => exact .two uniform around
  | twoRight label entry left => exact .two around uniform
  | threeLeft label first second middle right => exact .three uniform around.1 around.2
  | threeMiddle label first second left right => exact .three around.1 uniform around.2
  | threeRight label first second left middle => exact .three around.1 around.2 uniform

end Frame23

/-- Frames from the hole up to the root. -/
abbrev Path23 (A E : Type) := List (Frame23 A E)

namespace Path23

variable {A E : Type}

def plug : Path23 A E → Tree23 A E → Tree23 A E
  | [], tree => tree
  | frame :: path, tree => plug path (frame.fill tree)

def labels : Path23 A E → List A
  | [] => []
  | frame :: path => frame.labels ++ labels path

def before : Path23 A E → List E
  | [] => []
  | frame :: path => before path ++ frame.before

def after : Path23 A E → List E
  | [] => []
  | frame :: path => frame.after ++ after path

/-- The hole has height `height`, the whole tree height `total`. -/
def Uniform : Path23 A E → Nat → Nat → Prop
  | [], height, total => total = height
  | frame :: path, height, total => frame.Uniform height ∧ Uniform path (height + 1) total

@[simp] theorem plug_nil (tree : Tree23 A E) : plug [] tree = tree := rfl

@[simp] theorem plug_cons (frame : Frame23 A E) (path : Path23 A E) (tree : Tree23 A E) :
    plug (frame :: path) tree = plug path (frame.fill tree) := rfl

@[simp] theorem labels_nil : labels ([] : Path23 A E) = [] := rfl

@[simp] theorem labels_cons (frame : Frame23 A E) (path : Path23 A E) :
    labels (frame :: path) = frame.labels ++ labels path := rfl

theorem plug_append (inner outer : Path23 A E) (tree : Tree23 A E) :
    plug (inner ++ outer) tree = plug outer (plug inner tree) := by
  induction inner generalizing tree with
  | nil => rfl
  | cons frame inner ih => exact ih (frame.fill tree)

theorem labels_append (inner outer : Path23 A E) :
    labels (inner ++ outer) = labels inner ++ labels outer := by
  induction inner with
  | nil => rfl
  | cons frame inner ih => simp [ih]

theorem before_append (inner outer : Path23 A E) :
    before (inner ++ outer) = before outer ++ before inner := by
  induction inner with
  | nil => simp [before]
  | cons frame inner ih => simp [before, ih]

theorem after_append (inner outer : Path23 A E) :
    after (inner ++ outer) = after inner ++ after outer := by
  induction inner with
  | nil => simp [after]
  | cons frame inner ih => simp [after, ih]

theorem inorder_plug (path : Path23 A E) (tree : Tree23 A E) :
    (plug path tree).inorder = before path ++ (tree.inorder ++ after path) := by
  induction path generalizing tree with
  | nil => simp [before, after]
  | cons frame path ih => simp [ih, Frame23.inorder_fill, before, after]

theorem labels_plug (path : Path23 A E) (tree : Tree23 A E) :
    (plug path tree).labels.Perm (tree.labels ++ labels path) := by
  induction path generalizing tree with
  | nil => simp
  | cons frame path ih =>
      refine (ih _).trans ?_
      simpa using (frame.labels_fill tree).append_right (labels path)

theorem label_mem_plug (frame : Frame23 A E) (path : Path23 A E) (tree : Tree23 A E) :
    frame.label ∈ (plug (frame :: path) tree).labels :=
  (labels_plug _ _).mem_iff.mpr (by simp [frame.label_mem_labels])

theorem plug_cons_ne_nil (frame : Frame23 A E) (path : Path23 A E) (tree : Tree23 A E) :
    plug (frame :: path) tree ≠ nil := by
  intro empty
  have member := label_mem_plug frame path tree
  rw [empty] at member
  simp at member

theorem plug_ne_nil {path : Path23 A E} {tree : Tree23 A E} (nonempty : tree ≠ nil) :
    plug path tree ≠ nil := by
  cases path with
  | nil => exact nonempty
  | cons frame path => exact plug_cons_ne_nil frame path tree

theorem fill_plug (path : Path23 A E) (frame : Frame23 A E) (tree : Tree23 A E) :
    frame.fill (plug path tree) = plug (path ++ [frame]) tree := by
  rw [plug_append, plug_cons, plug_nil]

/-- Every label is that of the node in the hole of some path. -/
theorem exists_plug {label : A} {tree : Tree23 A E} (member : label ∈ tree.labels) :
    ∃ path, (∃ e l r, tree = plug path (two label e l r)) ∨
      ∃ e f l m r, tree = plug path (three label e f l m r) := by
  have deeper : ∀ (frame : Frame23 A E) (child : Tree23 A E),
      (∃ path, (∃ e l r, child = plug path (two label e l r)) ∨
        ∃ e f l m r, child = plug path (three label e f l m r)) →
      ∃ path, (∃ e l r, frame.fill child = plug path (two label e l r)) ∨
        ∃ e f l m r, frame.fill child = plug path (three label e f l m r) := by
    rintro frame child ⟨path, ⟨e, l, r, rfl⟩ | ⟨e, f, l, m, r, rfl⟩⟩
    · exact ⟨path ++ [frame], .inl ⟨e, l, r, fill_plug path frame _⟩⟩
    · exact ⟨path ++ [frame], .inr ⟨e, f, l, m, r, fill_plug path frame _⟩⟩
  induction tree with
  | nil => cases member
  | two a e l r leftIH rightIH =>
      rcases List.mem_cons.mp member with rfl | below
      · exact ⟨[], .inl ⟨e, l, r, rfl⟩⟩
      · rcases List.mem_append.mp below with left | right
        · exact deeper (.twoLeft a e r) l (leftIH left)
        · exact deeper (.twoRight a e l) r (rightIH right)
  | three a e f l m r leftIH middleIH rightIH =>
      rcases List.mem_cons.mp member with rfl | below
      · exact ⟨[], .inr ⟨e, f, l, m, r, rfl⟩⟩
      · rcases List.mem_append.mp below with left | beyond
        · exact deeper (.threeLeft a e f m r) l (leftIH left)
        · rcases List.mem_append.mp beyond with middle | right
          · exact deeper (.threeMiddle a e f l r) m (middleIH middle)
          · exact deeper (.threeRight a e f l m) r (rightIH right)

theorem Uniform.plug {path : Path23 A E} {tree : Tree23 A E} {height total : Nat}
    (around : Uniform path height total) (uniform : tree.Uniform height) :
    (plug path tree).Uniform total := by
  induction path generalizing tree height with
  | nil => exact around ▸ uniform
  | cons frame path ih => exact ih around.2 (around.1.fill uniform)

theorem Uniform.replace {inner path : Path23 A E} {frame frame' : Frame23 A E} {height total : Nat}
    (same : ∀ h, frame'.Uniform h ↔ frame.Uniform h)
    (around : Uniform (inner ++ frame :: path) height total) :
    Uniform (inner ++ frame' :: path) height total := by
  induction inner generalizing height with
  | nil => exact ⟨(same height).mpr around.1, around.2⟩
  | cons first inner ih => exact ⟨around.1, ih around.2⟩

theorem Uniform.of_plug {path : Path23 A E} {tree : Tree23 A E} {total : Nat}
    (uniform : (Path23.plug path tree).Uniform total) :
    ∃ height, tree.Uniform height ∧ Uniform path height total := by
  induction path generalizing tree with
  | nil => exact ⟨total, uniform, rfl⟩
  | cons frame path ih =>
      obtain ⟨height, filled, outer⟩ := ih uniform
      cases frame with
      | twoLeft label entry right =>
          cases filled with
          | two left right => exact ⟨_, left, right, outer⟩
      | twoRight label entry left =>
          cases filled with
          | two left right => exact ⟨_, right, left, outer⟩
      | threeLeft label first second middle right =>
          cases filled with
          | three left middle right => exact ⟨_, left, ⟨middle, right⟩, outer⟩
      | threeMiddle label first second left right =>
          cases filled with
          | three left middle right => exact ⟨_, middle, ⟨left, right⟩, outer⟩
      | threeRight label first second left middle =>
          cases filled with
          | three left middle right => exact ⟨_, right, ⟨left, middle⟩, outer⟩

theorem Uniform.length_add {path : Path23 A E} {height total : Nat}
    (around : Uniform path height total) : path.length + height = total := by
  induction path generalizing height with
  | nil => simpa using Eq.symm around
  | cons frame path ih =>
      have above := ih around.2
      simp only [List.length_cons]
      omega

end Path23

end GbfLibrary.Trees
