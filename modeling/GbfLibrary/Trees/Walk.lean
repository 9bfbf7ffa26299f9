import GbfLibrary.Trees.RedBlack

/-!
# Walks

The labels of a tree in search order, forth and back, and those that lie beyond the hole
of a path.
-/

set_option autoImplicit false

namespace GbfLibrary.Trees

variable {A E : Type}

def Side.other : Side → Side
  | .left => .right
  | .right => .left

@[simp] theorem Side.other_other (side : Side) : side.other.other = side := by
  cases side <;> rfl

namespace ColoredTree

/-- The labels in the order of a walk to one side. -/
def walk : Side → ColoredTree A E → List A
  | _, nil => []
  | .right, node label _ _ left right => walk .right left ++ label :: walk .right right
  | .left, node label _ _ left right => walk .left right ++ label :: walk .left left

@[simp] theorem walk_nil (side : Side) : (nil : ColoredTree A E).walk side = [] := by
  cases side <;> rfl

theorem walk_other (side : Side) (tree : ColoredTree A E) : tree.walk side.other = (tree.walk side).reverse := by
  induction tree with
  | nil => simp
  | node label red entry left right leftIH rightIH =>
      cases side with
      | left =>
          simp only [Side.other] at leftIH rightIH
          simp [walk, Side.other, leftIH, rightIH]
      | right =>
          simp only [Side.other] at leftIH rightIH
          simp [walk, Side.other, leftIH, rightIH]

theorem walk_perm (side : Side) (tree : ColoredTree A E) : (tree.walk side).Perm tree.labels := by
  induction tree with
  | nil => simp
  | node label red entry left right leftIH rightIH =>
      cases side with
      | right => exact List.perm_middle.trans ((leftIH.append rightIH).cons label)
      | left =>
          refine List.perm_middle.trans (List.Perm.cons label ?_)
          exact (rightIH.append leftIH).trans List.perm_append_comm

theorem exists_plug {tree : ColoredTree A E} {label : A} (member : label ∈ tree.labels) :
    ∃ path red entry left right, tree = Path.plug path (node label red entry left right) := by
  induction tree with
  | nil => cases member
  | node root rootRed rootEntry l r leftIH rightIH =>
      simp only [labels_node, List.mem_cons, List.mem_append] at member
      rcases member with rfl | inside | inside
      · exact ⟨[], rootRed, rootEntry, l, r, rfl⟩
      · obtain ⟨path, red, entry, left, right, rfl⟩ := leftIH inside
        refine ⟨path ++ [⟨.left, root, rootRed, rootEntry, r⟩], red, entry, left, right, ?_⟩
        simp [Path.plug_append]
      · obtain ⟨path, red, entry, left, right, rfl⟩ := rightIH inside
        refine ⟨path ++ [⟨.right, root, rootRed, rootEntry, l⟩], red, entry, left, right, ?_⟩
        simp [Path.plug_append]

end ColoredTree

namespace Path

open ColoredTree

/-- The labels on this side of the hole, the nearest first. -/
def beyond : Side → Path A E → List A
  | _, [] => []
  | .right, ⟨.left, label, _, _, sibling⟩ :: path => label :: (sibling.walk .right ++ beyond .right path)
  | .left, ⟨.right, label, _, _, sibling⟩ :: path => label :: (sibling.walk .left ++ beyond .left path)
  | side, _ :: path => beyond side path

@[simp] theorem beyond_nil (side : Side) : beyond side ([] : Path A E) = [] := by
  cases side <;> rfl

theorem walk_plug (side : Side) (path : Path A E) (tree : ColoredTree A E) :
    (plug path tree).walk side = (beyond side.other path).reverse ++ (tree.walk side ++ beyond side path) := by
  induction path generalizing tree with
  | nil => simp
  | cons frame path ih =>
      rcases frame with ⟨here, label, red, entry, sibling⟩
      cases side <;> cases here <;>
        simp [ih, walk, beyond, Side.other, ← walk_other]

end Path

end GbfLibrary.Trees
