import Mathlib.Data.List.Basic
import Mathlib.Order.Compare
import Mathlib.Order.Lattice

/-!
# Increasing lists

Lists of entries in the strict order of a rank, and searches in them.
-/

set_option autoImplicit false

namespace GbfLibrary.Maps

variable {E O : Type}

/-- `order entry` is `lt` when what is searched lies before the entry. The
entries of a list are searchable if those that lie before it come first. -/
def Searchable (order : E → Ordering) (entries : List E) : Prop :=
  entries.Pairwise fun x y => order x = .gt ∨ order y = .lt

namespace Searchable

variable {order : E → Ordering} {first last : List E} {x : E}

theorem after (searchable : Searchable order (first ++ x :: last)) (here : order x = .lt) :
    ∀ y ∈ last, order y = .lt := by
  intro y member
  have pairs := (List.pairwise_cons.mp (List.pairwise_append.mp searchable).2.1).1
  exact (pairs y member).resolve_left (by simp [here])

theorem before (searchable : Searchable order (first ++ x :: last)) (here : order x = .gt) :
    ∀ y ∈ first, order y = .gt := by
  intro y member
  have pairs := (List.pairwise_append.mp searchable).2.2
  exact (pairs y member x (List.mem_cons_self ..)).resolve_right (by simp [here])

end Searchable

variable [LinearOrder O]

def Increasing (rank : E → O) (entries : List E) : Prop :=
  (entries.map rank).Pairwise (· < ·)

namespace Increasing

variable {rank : E → O} {entries others first last : List E} {e x y : E}

theorem nil : Increasing rank [] := List.Pairwise.nil

theorem singleton (e : E) : Increasing rank [e] := by
  simp [Increasing]

theorem across (increasing : Increasing rank (first ++ last)) (left : x ∈ first)
    (right : y ∈ last) : rank x < rank y := by
  simp only [Increasing, List.map_append] at increasing
  exact (List.pairwise_append.mp increasing).2.2 _ (List.mem_map_of_mem left) _
    (List.mem_map_of_mem right)

theorem sublist (increasing : Increasing rank entries) (included : others.Sublist entries) :
    Increasing rank others :=
  List.Pairwise.sublist (included.map rank) increasing

theorem insert (increasing : Increasing rank (first ++ last))
    (before : ∀ x ∈ first, rank x < rank e) (after : ∀ y ∈ last, rank e < rank y) :
    Increasing rank (first ++ e :: last) := by
  simp only [Increasing, List.map_append, List.map_cons, List.pairwise_append,
    List.pairwise_cons, List.mem_map, List.mem_cons, forall_exists_index, and_imp,
    forall_apply_eq_imp_iff₂, forall_eq_or_imp] at increasing ⊢
  exact ⟨increasing.1, ⟨after, increasing.2.1⟩,
    fun x member => ⟨before x member, increasing.2.2 x member⟩⟩

/-- No other entry of an increasing list has the same rank. -/
theorem rank_ne (increasing : Increasing rank (first ++ e :: last)) :
    ∀ x ∈ first ++ last, rank x ≠ rank e := by
  intro x member
  have tail : Increasing rank ([e] ++ last) := increasing.sublist (by simp)
  rcases List.mem_append.mp member with before | after
  · exact (increasing.across before (List.mem_cons_self ..)).ne
  · exact (tail.across (List.mem_singleton_self e) after).ne'

theorem searchable (increasing : Increasing rank entries) (target : O) :
    Searchable (fun e => compare target (rank e)) entries := by
  refine (List.pairwise_map.mp increasing).imp fun {x y} smaller => ?_
  rw [compare_gt_iff_gt, compare_lt_iff_lt]
  rcases lt_or_ge (rank x) target with above | below
  · exact .inl above
  · exact .inr (below.trans_lt smaller)

end Increasing

end GbfLibrary.Maps
