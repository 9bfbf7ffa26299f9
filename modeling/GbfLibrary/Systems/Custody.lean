import Mathlib.Data.Multiset.Count
import Mathlib.Logic.Function.Basic

/-!
# Custody

Things that are handed from one place to another. Each thing that is in use is in
one place at most, and in one place exactly where nothing was lost.
-/

set_option autoImplicit false

namespace GbfLibrary.Systems

variable {P T : Type} {used used' : T → Prop} {held : P → Multiset T} {p q : P} {t : T}
  {rest : Multiset T}

/-- No thing is twice in a place or in two places, and only things in use are in a
place. -/
structure Custody (used : T → Prop) (held : P → Multiset T) : Prop where
  once : ∀ p, (held p).Nodup
  alone : ∀ p q t, t ∈ held p → t ∈ held q → p = q
  used : ∀ p t, t ∈ held p → used t

/-- Every thing in use is somewhere. -/
def Accounted (used : T → Prop) (held : P → Multiset T) : Prop := ∀ t, used t → ∃ p, t ∈ held p

theorem coe_append_singleton (l : List T) (t : T) :
    ((l ++ [t] : List T) : Multiset T) = t ::ₘ (l : Multiset T) :=
  Multiset.coe_eq_coe.mpr (List.perm_append_singleton t l)

/-- Each thing in use is in exactly one place, and there once. -/
theorem Custody.existsUnique [DecidableEq T] (custody : Custody used held)
    (accounted : Accounted used held) (inUse : used t) :
    ∃ p, (held p).count t = 1 ∧ ∀ q, q ≠ p → (held q).count t = 0 := by
  obtain ⟨p, here⟩ := accounted t inUse
  refine ⟨p, Multiset.count_eq_one_of_mem (custody.once p) here, fun q other => ?_⟩
  refine Multiset.count_eq_zero_of_notMem fun there => ?_
  exact other (custody.alone q p t there here)

/-- What is used is not a matter of custody as long as it covers what is held. -/
theorem Custody.mono (custody : Custody used held) (covers : ∀ p t, t ∈ held p → used' t) :
    Custody used' held :=
  ⟨custody.once, custody.alone, covers⟩

variable [DecidableEq P]

theorem Custody.gain (custody : Custody used held) (fresh : ∀ q, t ∉ held q)
    (still : ∀ u, used u → used' u) (inUse : used' t) :
    Custody used' (Function.update held p (t ::ₘ held p)) := by
  obtain ⟨once, alone, inPlace⟩ := custody
  have member : ∀ q u, u ∈ Function.update held p (t ::ₘ held p) q ↔ u ∈ held q ∨ u = t ∧ q = p := by
    intro q u
    by_cases same : q = p
    · subst same
      simp [or_comm]
    · simp [same]
  refine ⟨fun q => ?_, fun q r u hereQ hereR => ?_, fun q u here => ?_⟩
  · by_cases same : q = p
    · subst same
      simpa using ⟨fresh q, once q⟩
    · simpa [same] using once q
  · rw [member] at hereQ hereR
    rcases hereQ with old | ⟨new, rfl⟩
    · rcases hereR with old' | ⟨new', rfl⟩
      · exact alone q r u old old'
      · exact absurd (new' ▸ old) (fresh q)
    · rcases hereR with old' | ⟨_, rfl⟩
      · exact absurd (new ▸ old') (fresh r)
      · rfl
  · rw [member] at here
    rcases here with old | ⟨rfl, _⟩
    · exact still u (inPlace q u old)
    · exact inUse

/-- A thing leaves a place, and is nowhere then. -/
theorem Custody.lose (custody : Custody used held) (here : held p = t ::ₘ rest)
    (still : ∀ u, u ≠ t → used u → used' u) :
    Custody used' (Function.update held p rest) ∧ ∀ q, t ∉ Function.update held p rest q := by
  obtain ⟨once, alone, inPlace⟩ := custody
  have nodup : (t ::ₘ rest).Nodup := here ▸ once p
  have inP : t ∈ held p := by simp [here]
  have nowhere : ∀ q, t ∉ Function.update held p rest q := by
    intro q there
    by_cases same : q = p
    · subst same
      rw [Function.update_self] at there
      exact (Multiset.nodup_cons.mp nodup).1 there
    · rw [Function.update_of_ne same] at there
      exact same (alone q p t there inP)
  have before : ∀ q u, u ∈ Function.update held p rest q → u ∈ held q := by
    intro q u there
    by_cases same : q = p
    · subst same
      rw [Function.update_self] at there
      rw [here]
      exact Multiset.mem_cons_of_mem there
    · rwa [Function.update_of_ne same] at there
  refine ⟨⟨fun q => ?_, fun q r u hereQ hereR => alone q r u (before q u hereQ) (before r u hereR),
    fun q u there => ?_⟩, nowhere⟩
  · by_cases same : q = p
    · subst same
      rw [Function.update_self]
      exact (Multiset.nodup_cons.mp nodup).2
    · rw [Function.update_of_ne same]
      exact once q
  · refine still u ?_ (inPlace q u (before q u there))
    rintro rfl
    exact nowhere q there

theorem Custody.hand (custody : Custody used held) (here : held p = t ::ₘ rest) :
    Custody used (Function.update (Function.update held p rest) q
      (t ::ₘ Function.update held p rest q)) := by
  have inUse : used t := custody.used p t (by simp [here])
  obtain ⟨left, nowhere⟩ := custody.lose here fun u _ still => still
  exact left.gain nowhere (fun u still => still) inUse

/-- What one step does with the things in use and with the places. `lost` tells
which things are in use afterwards and nowhere. -/
inductive Transfer (lost : T → Prop) (used used' : T → Prop) (held held' : P → Multiset T) : Prop where
  | keep (same : ∀ t, used' t ↔ used t) (places : ∀ p, held' p = held p)
  | gain (p : P) (t : T) (fresh : ¬ used t) (more : ∀ u, used' u ↔ u = t ∨ used u)
      (here : held' p = t ::ₘ held p) (others : ∀ q, q ≠ p → held' q = held q)
  | lose (p : P) (t : T) (fewer : ∀ u, used' u ↔ u ≠ t ∧ used u) (here : held p = t ::ₘ held' p)
      (others : ∀ q, q ≠ p → held' q = held q)
  | hand (p q : P) (t : T) (different : p ≠ q) (same : ∀ t, used' t ↔ used t)
      (left : held p = t ::ₘ held' p) (here : held' q = t ::ₘ held q)
      (others : ∀ r, r ≠ p → r ≠ q → held' r = held r)
  | leak (p : P) (same : ∀ t, used' t ↔ used t) (left : held' p ≤ held p)
      (gone : ∀ t ∈ held p, t ∈ held' p ∨ lost t) (others : ∀ q, q ≠ p → held' q = held q)

section Transfer

variable {lost : T → Prop} {held' : P → Multiset T}

theorem eq_update {m : Multiset T} (here : held' p = m) (others : ∀ q, q ≠ p → held' q = held q) :
    held' = Function.update held p m := by
  funext q
  by_cases same : q = p
  · subst same
    simp [here]
  · simp [same, others q same]

theorem Transfer.custody (transfer : Transfer lost used used' held held') (custody : Custody used held) :
    Custody used' held' := by
  cases transfer with
  | keep same places =>
      obtain rfl : held' = held := funext places
      exact custody.mono fun p t here => (same t).mpr (custody.used p t here)
  | gain p t fresh more here others =>
      rw [eq_update here others]
      refine custody.gain (fun q there => fresh (custody.used q t there)) ?_ ((more t).mpr (.inl rfl))
      exact fun u inUse => (more u).mpr (.inr inUse)
  | lose p t fewer here others =>
      rw [eq_update rfl others]
      exact (custody.lose here fun u other inUse => (fewer u).mpr ⟨other, inUse⟩).1
  | hand p q t different same left here others =>
      have first : ∀ r, r ≠ q → held' r = Function.update held p (held' p) r := by
        intro r notQ
        by_cases atP : r = p
        · subst atP
          simp
        · simp [atP, others r atP notQ]
      have second : held' q = t ::ₘ Function.update held p (held' p) q := by
        rw [Function.update_of_ne different.symm, here]
      rw [eq_update second first]
      exact (custody.hand left).mono fun p' u there =>
        (same u).mpr ((custody.hand left).used p' u there)
  | leak p same left gone others =>
      have before : ∀ q, held' q ≤ held q := by
        intro q
        by_cases atP : q = p
        · subst atP
          exact left
        · exact (others q atP).le
      exact ⟨fun q => Multiset.nodup_of_le (before q) (custody.once q),
        fun q r u hereQ hereR => custody.alone q r u (Multiset.mem_of_le (before q) hereQ)
          (Multiset.mem_of_le (before r) hereR),
        fun q u here => (same u).mpr (custody.used q u (Multiset.mem_of_le (before q) here))⟩

/-- A thing that a step does not lose is somewhere afterwards if it was before. -/
theorem Transfer.accounted (transfer : Transfer lost used used' held held') (kept : ¬ lost t)
    (inUse : used' t) (before : used t → ∃ p, t ∈ held p) : ∃ p, t ∈ held' p := by
  cases transfer with
  | keep same places =>
      obtain ⟨p, here⟩ := before ((same t).mp inUse)
      exact ⟨p, by rwa [places p]⟩
  | gain p u fresh more here others =>
      rcases (more t).mp inUse with rfl | old
      · exact ⟨p, by simp [here]⟩
      · obtain ⟨q, there⟩ := before old
        by_cases same : q = p
        · subst same
          exact ⟨q, by simp [here, there]⟩
        · exact ⟨q, by rwa [others q same]⟩
  | lose p u fewer here others =>
      obtain ⟨other, old⟩ := (fewer t).mp inUse
      obtain ⟨q, there⟩ := before old
      by_cases same : q = p
      · subst same
        rw [here, Multiset.mem_cons] at there
        exact ⟨q, there.resolve_left other⟩
      · exact ⟨q, by rwa [others q same]⟩
  | hand p q u different same left here others =>
      obtain ⟨r, there⟩ := before ((same t).mp inUse)
      by_cases moved : t = u
      · exact ⟨q, by simp [here, moved]⟩
      · by_cases atP : r = p
        · subst atP
          rw [left, Multiset.mem_cons] at there
          exact ⟨r, there.resolve_left moved⟩
        · by_cases atQ : r = q
          · subst atQ
            exact ⟨r, by simp [here, there]⟩
          · exact ⟨r, by rwa [others r atP atQ]⟩
  | leak p same left gone others =>
      obtain ⟨q, there⟩ := before ((same t).mp inUse)
      by_cases atP : q = p
      · subst atP
        exact ⟨q, (gone t there).resolve_right kept⟩
      · exact ⟨q, by rwa [others q atP]⟩

end Transfer

end GbfLibrary.Systems
