import GbfLibrary.Maps.Increasing
import GbfLibrary.Trees.TwoThree

/-!
# Reshaping 2-3 trees

How a path takes in a split or a deficit below it: relations between a path
and the whole tree that results, one constructor for each shape around the
hole. Constructors with a premise move on to the frames above.
-/

set_option autoImplicit false

namespace GbfLibrary.Trees

variable {A E : Type}

open Tree23 Maps

/-!
## Splits
-/

/-- A node with one child more than it had. A `four` has to be split. -/
inductive Wide (A E : Type) where
  | three (label : A) (first second : E) (c₁ c₂ c₃ : Tree23 A E)
  | four (label : A) (first second third : E) (c₁ c₂ c₃ c₄ : Tree23 A E)

namespace Wide

def label : Wide A E → A
  | three label _ _ _ _ _ => label
  | four label _ _ _ _ _ _ _ => label

def labels : Wide A E → List A
  | three label _ _ c₁ c₂ c₃ => label :: (c₁.labels ++ (c₂.labels ++ c₃.labels))
  | four label _ _ _ c₁ c₂ c₃ c₄ =>
      label :: (c₁.labels ++ (c₂.labels ++ (c₃.labels ++ c₄.labels)))

def inorder : Wide A E → List E
  | three _ e f c₁ c₂ c₃ => c₁.inorder ++ e :: (c₂.inorder ++ f :: c₃.inorder)
  | four _ e f g c₁ c₂ c₃ c₄ =>
      c₁.inorder ++ e :: (c₂.inorder ++ f :: (c₃.inorder ++ g :: c₄.inorder))

/-- The children have the given height. -/
def Uniform : Wide A E → Nat → Prop
  | three _ _ _ c₁ c₂ c₃, height => c₁.Uniform height ∧ c₂.Uniform height ∧ c₃.Uniform height
  | four _ _ _ _ c₁ c₂ c₃ c₄, height =>
      c₁.Uniform height ∧ c₂.Uniform height ∧ c₃.Uniform height ∧ c₄.Uniform height

end Wide

namespace Frame23

/-- Two trees and the entry between them instead of one. -/
def widen : Frame23 A E → Tree23 A E → E → Tree23 A E → Wide A E
  | twoLeft p a right, l, k, r => .three p k a l r right
  | twoRight p a left, l, k, r => .three p a k left l r
  | threeLeft p a b middle right, l, k, r => .four p k a b l r middle right
  | threeMiddle p a b left right, l, k, r => .four p a k b left l r right
  | threeRight p a b left middle, l, k, r => .four p a b k left middle l r

@[simp] theorem label_widen (frame : Frame23 A E) (l r : Tree23 A E) (k : E) :
    (frame.widen l k r).label = frame.label := by
  cases frame <;> rfl

theorem inorder_widen (frame : Frame23 A E) (l r : Tree23 A E) (k : E) :
    (frame.widen l k r).inorder = frame.before ++ (l.inorder ++ k :: (r.inorder ++ frame.after)) := by
  cases frame <;> simp [widen, Wide.inorder, before, after]

theorem labels_widen (frame : Frame23 A E) (l r : Tree23 A E) (k : E) :
    (frame.widen l k r).labels.Perm (l.labels ++ (r.labels ++ frame.labels)) := by
  classical
  refine List.perm_iff_count.mpr fun x => ?_
  cases frame <;>
    simp only [widen, Wide.labels, labels, List.count_cons, List.count_append] <;>
    omega

theorem Uniform.widen {frame : Frame23 A E} {l r : Tree23 A E} {height : Nat}
    (around : frame.Uniform height) (left : l.Uniform height) (right : r.Uniform height) (k : E) :
    (frame.widen l k r).Uniform height := by
  cases frame with
  | twoLeft => exact ⟨left, right, around⟩
  | twoRight => exact ⟨around, left, right⟩
  | threeLeft => exact ⟨left, right, around.1, around.2⟩
  | threeMiddle => exact ⟨around.1, left, right, around.2⟩
  | threeRight => exact ⟨around.1, around.2, left, right⟩

end Frame23

/-- A node of two entries has no room for another one. -/
def Frame23.isFull : Frame23 A E → Bool
  | .twoLeft _ _ _ | .twoRight _ _ _ => false
  | .threeLeft _ _ _ _ _ | .threeMiddle _ _ _ _ _ | .threeRight _ _ _ _ _ => true

/-- The number of full nodes in a row from the hole upwards. -/
def Path23.full : Path23 A E → Nat
  | [] => 0
  | frame :: path => if frame.isFull then Path23.full path + 1 else 0

/-- The number of nodes that are divided before there is room. -/
def Wide.splits (path : Path23 A E) : Wide A E → Nat
  | .three _ _ _ _ _ _ => 0
  | .four _ _ _ _ _ _ _ _ => path.full + 1

theorem Frame23.splits_widen (frame : Frame23 A E) (l r : Tree23 A E) (k : E) (path : Path23 A E) :
    (frame.widen l k r).splits path = Path23.full (frame :: path) := by
  cases frame <;> rfl

/-- `Settles wide path tree deeper`: the wide node in the hole of the path makes
`tree`, which is `deeper` levels higher than before. A split puts the right half
into a new node; at the root another new node goes on top. -/
inductive Settles : Wide A E → Path23 A E → Tree23 A E → Nat → Prop where
  | fits {p : A} {e f : E} {c₁ c₂ c₃ : Tree23 A E} {path : Path23 A E} :
      Settles (.three p e f c₁ c₂ c₃) path (path.plug (three p e f c₁ c₂ c₃)) 0
  | root {p d m : A} {e f g : E} {c₁ c₂ c₃ c₄ : Tree23 A E} :
      Settles (.four p e f g c₁ c₂ c₃ c₄) [] (two m f (two p e c₁ c₂) (two d g c₃ c₄)) 1
  | split {p d : A} {e f g : E} {c₁ c₂ c₃ c₄ tree : Tree23 A E} {frame : Frame23 A E}
      {path : Path23 A E} {deeper : Nat}
      (above : Settles (frame.widen (two p e c₁ c₂) f (two d g c₃ c₄)) path tree deeper) :
      Settles (.four p e f g c₁ c₂ c₃ c₄) (frame :: path) tree deeper

namespace Settles

variable {wide : Wide A E} {path : Path23 A E} {tree : Tree23 A E} {deeper height total : Nat}

theorem inorder (settles : Settles wide path tree deeper) :
    tree.inorder = path.before ++ (wide.inorder ++ path.after) := by
  induction settles with
  | fits => simp [Path23.inorder_plug, Wide.inorder]
  | root => simp [Wide.inorder, Path23.before, Path23.after]
  | split _ ih =>
      rw [ih, Frame23.inorder_widen]
      simp [Wide.inorder, Path23.before, Path23.after]

theorem uniform (settles : Settles wide path tree deeper)
    (around : path.Uniform (height + 1) total) (below : wide.Uniform height) :
    tree.Uniform (total + deeper) := by
  induction settles generalizing height with
  | fits => exact Path23.Uniform.plug around (.three below.1 below.2.1 below.2.2)
  | root =>
      obtain rfl : total = height + 1 := around
      exact .two (.two below.1 below.2.1) (.two below.2.2.1 below.2.2.2)
  | split _ ih =>
      exact ih around.2 (around.1.widen (.two below.1 below.2.1) (.two below.2.2.1 below.2.2.2) _)

end Settles

/-!
## Deficits
-/

/-- `Repair frame n rest full`: below the frame, the node `n` has lost its entry
and keeps the single child `rest`. A brother that can spare an entry, or a node
above that can, makes it good. -/
inductive Repair : Frame23 A E → A → Tree23 A E → Tree23 A E → Prop where
  | rightFromTwo {p n b : A} {e x y : E} {c₁ c₂ c₃ rest : Tree23 A E} :
      Repair (.twoRight p e (three b x y c₁ c₂ c₃)) n rest
        (two p y (two b x c₁ c₂) (two n e c₃ rest))
  | leftFromTwo {p n b : A} {e x y : E} {c₁ c₂ c₃ rest : Tree23 A E} :
      Repair (.twoLeft p e (three b x y c₁ c₂ c₃)) n rest
        (two p x (two n e rest c₁) (two b y c₂ c₃))
  | rightBorrow {p n b : A} {e f x y : E} {l c₁ c₂ c₃ rest : Tree23 A E} :
      Repair (.threeRight p e f l (three b x y c₁ c₂ c₃)) n rest
        (three p e y l (two b x c₁ c₂) (two n f c₃ rest))
  | rightJoin {p n b : A} {e f x : E} {l c₁ c₂ rest : Tree23 A E} :
      Repair (.threeRight p e f l (two b x c₁ c₂)) n rest
        (two p e l (three b x f c₁ c₂ rest))
  | middleBorrow {p n b : A} {e f x y : E} {l c₁ c₂ c₃ rest : Tree23 A E} :
      Repair (.threeMiddle p e f l (three b x y c₁ c₂ c₃)) n rest
        (three p e x l (two n f rest c₁) (two b y c₂ c₃))
  | middleJoin {p n b : A} {e f x : E} {l c₁ c₂ rest : Tree23 A E} :
      Repair (.threeMiddle p e f l (two b x c₁ c₂)) n rest
        (two p e l (three b f x rest c₁ c₂))
  | leftBorrow {p n b : A} {e f x y : E} {c₁ c₂ c₃ r rest : Tree23 A E} :
      Repair (.threeLeft p e f (three b x y c₁ c₂ c₃) r) n rest
        (three p x f (two n e rest c₁) (two b y c₂ c₃) r)
  | leftJoin {p n b : A} {e f x : E} {c₁ c₂ r rest : Tree23 A E} :
      Repair (.threeLeft p e f (two b x c₁ c₂) r) n rest
        (two p f (three n e x rest c₁ c₂) r)

/-- The brother of the node takes the entry of the frame and the child, and the
frame becomes the node without an entry. -/
inductive Merge : Frame23 A E → Tree23 A E → Tree23 A E → Prop where
  | right {p b : A} {e x : E} {c₁ c₂ rest : Tree23 A E} :
      Merge (.twoRight p e (two b x c₁ c₂)) rest (three b x e c₁ c₂ rest)
  | left {p b : A} {e x : E} {c₁ c₂ rest : Tree23 A E} :
      Merge (.twoLeft p e (two b x c₁ c₂)) rest (three b e x rest c₁ c₂)

/-- The nodes that a repair of the frame with the node `n` does not need. -/
def Frame23.leftOver (n : A) : Frame23 A E → List A
  | .threeRight _ _ _ _ (two _ _ _ _) | .threeMiddle _ _ _ _ (two _ _ _ _) => [n]
  | .threeLeft _ _ _ (two b _ _ _) _ => [b]
  | _ => []

section Reshape

variable {frame : Frame23 A E} {n : A} {rest full merged : Tree23 A E} {height : Nat}

theorem Repair.inorder (repair : Repair frame n rest full) :
    full.inorder = frame.before ++ (rest.inorder ++ frame.after) := by
  cases repair <;> simp [Frame23.before, Frame23.after]

theorem Repair.labels (repair : Repair frame n rest full) :
    full.labels.Subperm (n :: (rest.labels ++ frame.labels)) := by
  classical
  refine List.subperm_ext_iff.mpr fun x _ => ?_
  cases repair <;>
    simp only [Frame23.labels, labels_two, labels_three, List.count_cons, List.count_append] <;>
    omega

theorem Repair.leftOver (repair : Repair frame n rest full) :
    (frame.leftOver n ++ full.labels).Perm (n :: (rest.labels ++ frame.labels)) := by
  classical
  refine List.perm_iff_count.mpr fun x => ?_
  cases repair <;>
    simp only [Frame23.leftOver, Frame23.labels, labels_two, labels_three, List.count_cons, List.count_append,
      List.nil_append, List.cons_append] <;>
    omega

theorem Repair.uniform (repair : Repair frame n rest full) (around : frame.Uniform (height + 1))
    (below : rest.Uniform height) : full.Uniform (height + 2) := by
  cases repair with
  | rightFromTwo =>
      cases around with
      | three c₁ c₂ c₃ => exact .two (.two c₁ c₂) (.two c₃ below)
  | leftFromTwo =>
      cases around with
      | three c₁ c₂ c₃ => exact .two (.two below c₁) (.two c₂ c₃)
  | rightBorrow =>
      obtain ⟨left, brother⟩ := around
      cases brother with
      | three c₁ c₂ c₃ => exact .three left (.two c₁ c₂) (.two c₃ below)
  | rightJoin =>
      obtain ⟨left, brother⟩ := around
      cases brother with
      | two c₁ c₂ => exact .two left (.three c₁ c₂ below)
  | middleBorrow =>
      obtain ⟨left, brother⟩ := around
      cases brother with
      | three c₁ c₂ c₃ => exact .three left (.two below c₁) (.two c₂ c₃)
  | middleJoin =>
      obtain ⟨left, brother⟩ := around
      cases brother with
      | two c₁ c₂ => exact .two left (.three below c₁ c₂)
  | leftBorrow =>
      obtain ⟨brother, right⟩ := around
      cases brother with
      | three c₁ c₂ c₃ => exact .three (.two below c₁) (.two c₂ c₃) right
  | leftJoin =>
      obtain ⟨brother, right⟩ := around
      cases brother with
      | two c₁ c₂ => exact .two (.three below c₁ c₂) right

theorem Merge.inorder (merge : Merge frame rest merged) :
    merged.inorder = frame.before ++ (rest.inorder ++ frame.after) := by
  cases merge <;> simp [Frame23.before, Frame23.after]

theorem Merge.labels (merge : Merge frame rest merged) :
    (frame.label :: merged.labels).Perm (rest.labels ++ frame.labels) := by
  classical
  refine List.perm_iff_count.mpr fun x => ?_
  cases merge <;>
    simp only [Frame23.labels, Frame23.label, labels_two, labels_three, List.count_cons,
      List.count_append] <;>
    omega

theorem Merge.uniform (merge : Merge frame rest merged) (around : frame.Uniform (height + 1))
    (below : rest.Uniform height) : merged.Uniform (height + 1) := by
  cases merge with
  | right =>
      cases around with
      | two c₁ c₂ => exact .three c₁ c₂ below
  | left =>
      cases around with
      | two c₁ c₂ => exact .three below c₁ c₂

theorem repair_or_merge (frame : Frame23 A E) (n : A) (rest : Tree23 A E)
    (around : frame.Uniform (height + 1)) :
    (∃ full, Repair frame n rest full) ∨ ∃ merged, Merge frame rest merged := by
  cases frame with
  | twoLeft label entry right =>
      cases around with
      | two => exact .inr ⟨_, .left⟩
      | three => exact .inl ⟨_, .leftFromTwo⟩
  | twoRight label entry left =>
      cases around with
      | two => exact .inr ⟨_, .right⟩
      | three => exact .inl ⟨_, .rightFromTwo⟩
  | threeLeft label first second middle right =>
      obtain ⟨brother, _⟩ := around
      cases brother with
      | two => exact .inl ⟨_, .leftJoin⟩
      | three => exact .inl ⟨_, .leftBorrow⟩
  | threeMiddle label first second left right =>
      obtain ⟨_, brother⟩ := around
      cases brother with
      | two => exact .inl ⟨_, .middleJoin⟩
      | three => exact .inl ⟨_, .middleBorrow⟩
  | threeRight label first second left middle =>
      obtain ⟨_, brother⟩ := around
      cases brother with
      | two => exact .inl ⟨_, .rightJoin⟩
      | three => exact .inl ⟨_, .rightBorrow⟩

end Reshape

/-- `Shrinks path n rest tree lower`: with the node `n` without an entry above
`rest` in its hole, the path makes `tree`, which is `lower` levels lower. -/
inductive Shrinks : Path23 A E → A → Tree23 A E → Tree23 A E → Nat → Prop where
  | root {n : A} {rest : Tree23 A E} : Shrinks [] n rest rest 1
  | repair {frame : Frame23 A E} {n : A} {rest full : Tree23 A E} {path : Path23 A E}
      (here : Repair frame n rest full) : Shrinks (frame :: path) n rest (path.plug full) 0
  | merge {frame : Frame23 A E} {n : A} {rest merged tree : Tree23 A E} {path : Path23 A E}
      {lower : Nat} (here : Merge frame rest merged)
      (above : Shrinks path frame.label merged tree lower) :
      Shrinks (frame :: path) n rest tree lower

namespace Shrinks

variable {path : Path23 A E} {n : A} {rest tree : Tree23 A E} {lower height total : Nat}

theorem inorder (shrinks : Shrinks path n rest tree lower) :
    tree.inorder = path.before ++ (rest.inorder ++ path.after) := by
  induction shrinks with
  | root => simp [Path23.before, Path23.after]
  | repair here => simp [Path23.inorder_plug, here.inorder, Path23.before, Path23.after]
  | merge here _ ih => simp [ih, here.inorder, Path23.before, Path23.after]

theorem labels (shrinks : Shrinks path n rest tree lower) :
    tree.labels.Subperm (n :: (rest.labels ++ path.labels)) := by
  induction shrinks with
  | root => exact (List.sublist_cons_of_sublist _ (by simp)).subperm
  | repair here =>
      refine (Path23.labels_plug _ _).subperm.trans ?_
      simpa using (List.subperm_append_right _).mpr here.labels
  | merge here _ ih =>
      refine ih.trans ((List.Perm.subperm ?_).trans (List.sublist_cons_self _ _).subperm)
      simpa using here.labels.append_right _

theorem nodup (shrinks : Shrinks path n rest tree lower)
    (distinct : (n :: (rest.labels ++ path.labels)).Nodup) : tree.labels.Nodup := by
  obtain ⟨kept, permuted, included⟩ := shrinks.labels
  exact permuted.nodup_iff.mp (included.nodup distinct)

theorem uniform (shrinks : Shrinks path n rest tree lower)
    (around : path.Uniform (height + 1) total) (below : rest.Uniform height) :
    tree.Uniform (total - lower) := by
  induction shrinks generalizing height with
  | root =>
      obtain rfl : total = height + 1 := around
      exact below
  | repair here => exact Path23.Uniform.plug around.2 (here.uniform around.1 below)
  | merge here _ ih => exact ih around.2 (here.uniform around.1 below)

theorem lower_le (shrinks : Shrinks path n rest tree lower) : lower ≤ 1 := by
  induction shrinks with
  | root => exact Nat.le_refl 1
  | repair => exact Nat.zero_le 1
  | merge _ _ ih => exact ih

theorem exists_of_uniform (path : Path23 A E) (n : A) (rest : Tree23 A E)
    (around : path.Uniform (height + 1) total) (below : rest.Uniform height) :
    ∃ tree lower, Shrinks path n rest tree lower := by
  induction path generalizing n rest height with
  | nil => exact ⟨rest, 1, .root⟩
  | cons frame path ih =>
      rcases repair_or_merge frame n rest around.1 with ⟨full, repair⟩ | ⟨merged, merge⟩
      · exact ⟨_, 0, .repair repair⟩
      · obtain ⟨tree, lower, above⟩ := ih frame.label merged around.2 (merge.uniform around.1 below)
        exact ⟨tree, lower, .merge merge above⟩

end Shrinks

/-!
## The entry before a hole
-/

namespace Frame23

/-- The entry of the frame right before the hole. -/
def Pivot : Frame23 A E → E → Prop
  | twoRight _ e _, x | threeMiddle _ e _ _ _, x | threeRight _ _ e _ _, x => e = x
  | _, _ => False

/-- The frame with another entry right before the hole. -/
def repivot : Frame23 A E → E → Frame23 A E
  | twoRight a _ l, x => twoRight a x l
  | threeMiddle a _ f l r, x => threeMiddle a x f l r
  | threeRight a e _ l m, x => threeRight a e x l m
  | frame, _ => frame

variable {frame : Frame23 A E} {e : E}

theorem Pivot.before (pivot : frame.Pivot e) :
    ∃ front, frame.before = front ++ [e] ∧ ∀ x, (frame.repivot x).before = front ++ [x] := by
  cases frame with
  | twoLeft | threeLeft => exact absurd pivot id
  | twoRight a _ l | threeMiddle a _ _ l =>
      obtain rfl := pivot
      exact ⟨l.inorder, rfl, fun _ => rfl⟩
  | threeRight a d _ l m =>
      obtain rfl := pivot
      exact ⟨l.inorder ++ d :: m.inorder, by simp [Frame23.before], by simp [repivot, Frame23.before]⟩

@[simp] theorem repivot_after (frame : Frame23 A E) (x : E) : (frame.repivot x).after = frame.after := by
  cases frame <;> rfl

@[simp] theorem repivot_label (frame : Frame23 A E) (x : E) : (frame.repivot x).label = frame.label := by
  cases frame <;> rfl

@[simp] theorem repivot_labels (frame : Frame23 A E) (x : E) :
    (frame.repivot x).labels = frame.labels := by
  cases frame <;> rfl

theorem repivot_uniform (frame : Frame23 A E) (x : E) (height : Nat) :
    (frame.repivot x).Uniform height ↔ frame.Uniform height := by
  cases frame <;> rfl

end Frame23

/-!
## Searches
-/

/-- What is searched lies between the entries before and after the hole. -/
structure Path23.Surrounds (order : E → Ordering) (path : Path23 A E) : Prop where
  before : ∀ x ∈ path.before, order x = .gt
  after : ∀ y ∈ path.after, order y = .lt

theorem Path23.Surrounds.cons {order : E → Ordering} {frame : Frame23 A E} {path : Path23 A E}
    (surrounds : path.Surrounds order) (before : ∀ x ∈ frame.before, order x = .gt)
    (after : ∀ y ∈ frame.after, order y = .lt) :
    Path23.Surrounds order (frame :: path) := by
  refine ⟨fun x member => ?_, fun y member => ?_⟩
  · rcases List.mem_append.mp member with outside | inside
    · exact surrounds.before x outside
    · exact before x inside
  · rcases List.mem_append.mp member with inside | outside
    · exact after y inside
    · exact surrounds.after y outside

namespace Tree23

/-- The descent of a search from the hole of `path`. -/
def descend (order : E → Ordering) : Path23 A E → Tree23 A E → Path23 A E × Tree23 A E
  | path, nil => (path, nil)
  | path, two a e l r =>
      match order e with
      | .eq => (path, two a e l r)
      | .lt => descend order (.twoLeft a e r :: path) l
      | .gt => descend order (.twoRight a e l :: path) r
  | path, three a e f l m r =>
      match order e with
      | .eq => (path, three a e f l m r)
      | .lt => descend order (.threeLeft a e f m r :: path) l
      | .gt =>
          match order f with
          | .eq => (path, three a e f l m r)
          | .lt => descend order (.threeMiddle a e f l r :: path) m
          | .gt => descend order (.threeRight a e f l m :: path) r

/-- What is searched is an entry of the root node, if there is a root node. -/
def Matches (order : E → Ordering) : Tree23 A E → Prop
  | nil => True
  | two _ e _ _ => order e = .eq
  | three _ e f _ _ _ => order e = .eq ∨ order f = .eq

section Descend

variable {order : E → Ordering} {path : Path23 A E} {tree : Tree23 A E}

theorem plug_descend :
    (descend order path tree).1.plug (descend order path tree).2 = path.plug tree := by
  induction tree generalizing path with
  | nil => rfl
  | two a e l r leftIH rightIH =>
      cases atEntry : order e with
      | eq => simp [descend, atEntry]
      | lt => simp [descend, atEntry, leftIH, Frame23.fill]
      | gt => simp [descend, atEntry, rightIH, Frame23.fill]
  | three a e f l m r leftIH middleIH rightIH =>
      cases atFirst : order e with
      | eq => simp [descend, atFirst]
      | lt => simp [descend, atFirst, leftIH, Frame23.fill]
      | gt =>
          cases atSecond : order f with
          | eq => simp [descend, atFirst, atSecond]
          | lt => simp [descend, atFirst, atSecond, middleIH, Frame23.fill]
          | gt => simp [descend, atFirst, atSecond, rightIH, Frame23.fill]

theorem descend_matches : (descend order path tree).2.Matches order := by
  induction tree generalizing path with
  | nil => trivial
  | two a e l r leftIH rightIH =>
      cases atEntry : order e with
      | eq => simp [descend, atEntry, Matches]
      | lt => simpa [descend, atEntry] using leftIH
      | gt => simpa [descend, atEntry] using rightIH
  | three a e f l m r leftIH middleIH rightIH =>
      cases atFirst : order e with
      | eq => simp [descend, atFirst, Matches]
      | lt => simpa [descend, atFirst] using leftIH
      | gt =>
          cases atSecond : order f with
          | eq => simp [descend, atFirst, atSecond, Matches]
          | lt => simpa [descend, atFirst, atSecond] using middleIH
          | gt => simpa [descend, atFirst, atSecond] using rightIH

theorem descend_surrounds (searchable : Searchable order tree.inorder)
    (surrounds : path.Surrounds order) : (descend order path tree).1.Surrounds order := by
  induction tree generalizing path with
  | nil => exact surrounds
  | two a e l r leftIH rightIH =>
      have leftSearchable : Searchable order l.inorder := searchable.sublist (by simp)
      have rightSearchable : Searchable order r.inorder := searchable.sublist (by simp)
      cases atEntry : order e with
      | eq => simpa [descend, atEntry] using surrounds
      | lt =>
          have above := Searchable.after searchable atEntry
          simp only [descend, atEntry]
          exact leftIH leftSearchable
            (surrounds.cons (by simp [Frame23.before]) (by simpa [Frame23.after, atEntry] using above))
      | gt =>
          have below := Searchable.before searchable atEntry
          simp only [descend, atEntry]
          refine rightIH rightSearchable (surrounds.cons ?_ (by simp [Frame23.after]))
          simpa [Frame23.before, or_imp, forall_and, atEntry] using below
  | three a e f l m r leftIH middleIH rightIH =>
      have leftSearchable : Searchable order l.inorder := searchable.sublist (by simp)
      have middleSearchable : Searchable order m.inorder :=
        searchable.sublist ((List.sublist_append_left _ _).trans
          ((List.sublist_cons_self _ _).trans (List.sublist_append_right _ _)))
      have rightSearchable : Searchable order r.inorder :=
        searchable.sublist ((List.sublist_cons_self _ _).trans ((List.sublist_append_right _ _).trans
          ((List.sublist_cons_self _ _).trans (List.sublist_append_right _ _))))
      have atSecondSplit : Searchable order ((l.inorder ++ e :: m.inorder) ++ f :: r.inorder) := by
        simpa using searchable
      cases atFirst : order e with
      | eq => simpa [descend, atFirst] using surrounds
      | lt =>
          have above := Searchable.after searchable atFirst
          simp only [descend, atFirst]
          refine leftIH leftSearchable (surrounds.cons (by simp [Frame23.before]) ?_)
          simpa [Frame23.after, atFirst] using above
      | gt =>
          have below := Searchable.before searchable atFirst
          cases atSecond : order f with
          | eq => simpa [descend, atFirst, atSecond] using surrounds
          | lt =>
              have above := Searchable.after atSecondSplit atSecond
              simp only [descend, atFirst, atSecond]
              refine middleIH middleSearchable (surrounds.cons ?_ ?_)
              · simpa [Frame23.before, or_imp, forall_and, atFirst] using below
              · simpa [Frame23.after, atSecond] using above
          | gt =>
              have below := Searchable.before atSecondSplit atSecond
              simp only [descend, atFirst, atSecond]
              refine rightIH rightSearchable (surrounds.cons ?_ (by simp [Frame23.after]))
              intro x member
              simp only [Frame23.before, List.mem_append, List.mem_cons, List.not_mem_nil,
                or_false] at member below
              rcases member with inLeft | rfl | inMiddle | rfl
              · exact below x (.inl inLeft)
              · exact atFirst
              · exact below x (.inr (.inr inMiddle))
              · exact atSecond

end Descend

end Tree23

end GbfLibrary.Trees
