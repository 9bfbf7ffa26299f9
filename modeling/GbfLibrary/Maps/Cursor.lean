import GbfLibrary.Maps.Increasing

/-!
# Going through a map

An iteration that keeps nothing but the rank of the entry it came to last, over entries that may become more
meanwhile.
-/

set_option autoImplicit false

namespace GbfLibrary.Maps

variable {E O : Type} [LinearOrder O]

/-- No other stored entry lies before this one and beyond the rank. -/
structure Nearest (rank : E → O) (stored : E → Prop) (cursor : O) (e : E) : Prop where
  here : stored e
  beyond : cursor < rank e
  nearest : ∀ other, stored other → cursor < rank other → other = e ∨ rank e < rank other

/-- What an iteration has come past: the stored entries up to the rank, in their order. -/
structure Traversed (rank : E → O) (stored : E → Prop) (cursor : O) (entries : List E) : Prop where
  increasing : Increasing rank entries
  mem_iff : ∀ e, e ∈ entries ↔ stored e ∧ rank e ≤ cursor

section Cursor

variable {rank : E → O} {stored stored' : E → Prop} {cursor cursor' : O} {entries : List E} {e : E}

/-- Beyond a rank there is a nearest entry or none. -/
theorem exists_nearest (increasing : Increasing rank entries) (cursor : O) :
    (∀ e ∈ entries, rank e ≤ cursor) ∨ ∃ e, Nearest rank (· ∈ entries) cursor e := by
  induction entries with
  | nil => exact .inl fun e member => absurd member List.not_mem_nil
  | cons x entries ih =>
      obtain ⟨before, rest⟩ := List.pairwise_cons.mp increasing
      rcases lt_or_ge cursor (rank x) with beyond | passed
      · refine .inr ⟨x, List.mem_cons_self, beyond, fun other member _ => ?_⟩
        exact (List.mem_cons.mp member).imp_right fun later => before _ (List.mem_map_of_mem later)
      · rcases ih rest with all | ⟨e, member, beyond, nearest⟩
        · refine .inl fun e member => ?_
          rcases List.mem_cons.mp member with rfl | later
          · exact passed
          · exact all e later
        · refine .inr ⟨e, List.mem_cons_of_mem x member, beyond, fun other member' beyond' => ?_⟩
          rcases List.mem_cons.mp member' with rfl | later
          · exact absurd beyond' (not_lt.mpr passed)
          · exact nearest other later beyond'

theorem Nearest.congr (nearest : Nearest rank stored cursor e) (same : ∀ e, stored' e ↔ stored e) :
    Nearest rank stored' cursor e :=
  ⟨(same e).mpr nearest.here, nearest.beyond, fun other here => nearest.nearest other ((same other).mp here)⟩

theorem Traversed.nothing (beyond : ∀ e, stored e → cursor < rank e) : Traversed rank stored cursor [] where
  increasing := .nil
  mem_iff e := by
    have not : ¬ (stored e ∧ rank e ≤ cursor) := fun both => not_lt.mpr both.2 (beyond e both.1)
    exact iff_of_false List.not_mem_nil not

/-- A step to the nearest entry comes past that one only. -/
theorem Traversed.next (passed : Traversed rank stored cursor entries) (nearest : Nearest rank stored cursor e) :
    Traversed rank stored (rank e) (entries ++ [e]) where
  increasing := by
    have before : ∀ x ∈ entries, rank x < rank e := fun x member =>
      ((passed.mem_iff x).mp member).2.trans_lt nearest.beyond
    have whole : Increasing rank (entries ++ []) := by simpa using passed.increasing
    exact whole.insert before (by simp)
  mem_iff x := by
    rw [List.mem_append, List.mem_singleton, passed.mem_iff]
    constructor
    · rintro (⟨here, notBeyond⟩ | rfl)
      · exact ⟨here, notBeyond.trans nearest.beyond.le⟩
      · exact ⟨nearest.here, le_rfl⟩
    · rintro ⟨here, notLater⟩
      rcases le_or_gt (rank x) cursor with notBeyond | beyond
      · exact .inl ⟨here, notBeyond⟩
      · exact .inr ((nearest.nearest x here beyond).resolve_right (not_lt.mpr notLater))

/-- Entries that come beyond the cursor are still to come. -/
theorem Traversed.grown (passed : Traversed rank stored cursor entries)
    (same : ∀ e, rank e ≤ cursor → (stored' e ↔ stored e)) : Traversed rank stored' cursor entries where
  increasing := passed.increasing
  mem_iff e := by
    rw [passed.mem_iff]
    exact and_congr_left fun notBeyond => (same e notBeyond).symm

end Cursor

end GbfLibrary.Maps
