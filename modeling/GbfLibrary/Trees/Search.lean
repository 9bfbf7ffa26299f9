import GbfLibrary.Maps.Increasing
import GbfLibrary.Trees.RedBlack

/-!
# Searching trees

A search compares every entry it meets with what is searched. It walks from a
path to a longer one, and stops at the entry itself or in an empty hole.
-/

set_option autoImplicit false

namespace GbfLibrary.Trees

variable {A E : Type}

open ColoredTree Maps

namespace Path

theorem before_append (inner outer : Path A E) :
    before (inner ++ outer) = before outer ++ before inner := by
  induction inner with
  | nil => simp [before]
  | cons frame path ih =>
      rcases frame with ⟨side, label, red, entry, sibling⟩
      cases side <;> simp [before, ih]

theorem after_append (inner outer : Path A E) :
    after (inner ++ outer) = after inner ++ after outer := by
  induction inner with
  | nil => simp [after]
  | cons frame path ih =>
      rcases frame with ⟨side, label, red, entry, sibling⟩
      cases side <;> simp [after, ih]

/-- What is searched lies between the entries before and after the hole. -/
structure Surrounds (order : E → Ordering) (path : Path A E) : Prop where
  before : ∀ x ∈ path.before, order x = .gt
  after : ∀ y ∈ path.after, order y = .lt

end Path

/-- The descent of a search from the hole of `path`. -/
def seek (order : E → Ordering) : Path A E → ColoredTree A E → Path A E × ColoredTree A E
  | path, nil => (path, nil)
  | path, node label red entry left right =>
      match order entry with
      | .eq => (path, node label red entry left right)
      | .lt => seek order (⟨.left, label, red, entry, right⟩ :: path) left
      | .gt => seek order (⟨.right, label, red, entry, left⟩ :: path) right

variable {order : E → Ordering} {path : Path A E} {tree : ColoredTree A E}

theorem plug_seek : (seek order path tree).1.plug (seek order path tree).2 = path.plug tree := by
  induction tree generalizing path with
  | nil => rfl
  | node label red entry left right leftIH rightIH =>
      cases relation : order entry with
      | eq => simp [seek, relation]
      | lt => simp [seek, relation, leftIH]
      | gt => simp [seek, relation, rightIH]

/-- A search that does not end in an empty hole ends at a matching entry. -/
theorem seek_found {label : A} {red : Bool} {entry : E} {left right : ColoredTree A E}
    (found : (seek order path tree).2 = node label red entry left right) : order entry = .eq := by
  induction tree generalizing path with
  | nil => simp [seek] at found
  | node a aRed e l r leftIH rightIH =>
      cases relation : order e with
      | eq =>
          simp only [seek, relation, node.injEq] at found
          exact found.2.2.1 ▸ relation
      | lt =>
          simp only [seek, relation] at found
          exact leftIH found
      | gt =>
          simp only [seek, relation] at found
          exact rightIH found

theorem seek_surrounds (searchable : Searchable order tree.inorder)
    (surrounds : path.Surrounds order) : (seek order path tree).1.Surrounds order := by
  induction tree generalizing path with
  | nil => exact surrounds
  | node label red entry left right leftIH rightIH =>
      simp only [Searchable, inorder_node, List.pairwise_append, List.pairwise_cons,
        List.mem_cons] at searchable
      obtain ⟨leftSearchable, ⟨above, rightSearchable⟩, across⟩ := searchable
      cases relation : order entry with
      | eq => simpa [seek, relation] using surrounds
      | lt =>
          simp only [seek, relation]
          refine leftIH leftSearchable ⟨surrounds.before, ?_⟩
          intro y member
          simp only [Path.after, List.mem_cons, List.mem_append] at member
          rcases member with rfl | inside | outside
          · exact relation
          · exact (above y inside).resolve_left (by simp [relation])
          · exact surrounds.after y outside
      | gt =>
          simp only [seek, relation]
          refine rightIH rightSearchable ⟨?_, surrounds.after⟩
          intro x member
          simp only [Path.before, List.mem_append, List.mem_singleton] at member
          rcases member with outside | inside | rfl
          · exact surrounds.before x outside
          · exact (across x inside entry (.inl rfl)).resolve_right (by simp [relation])
          · exact relation

end GbfLibrary.Trees
