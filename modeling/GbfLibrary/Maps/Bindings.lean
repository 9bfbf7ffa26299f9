import Mathlib.Data.List.Basic
import Mathlib.Data.List.Induction
import Mathlib.Logic.Function.Basic

/-!
# Bindings

Lists of entries as finite maps. An entry list binds its keys as a map does
when it holds exactly the graph of the map.
-/

set_option autoImplicit false

namespace GbfLibrary.Maps

variable {K D : Type}

/-- The entries are the graph of the map. -/
def Binds (entries : List (K × D)) (map : K → Option D) : Prop :=
  ∀ key datum, (key, datum) ∈ entries ↔ map key = some datum

theorem Binds.empty : Binds ([] : List (K × D)) fun _ => none := by
  simp [Binds]

theorem Binds.absent {entries : List (K × D)} {map : K → Option D} {key : K}
    (binds : Binds entries map) (outside : ∀ entry ∈ entries, entry.1 ≠ key) :
    map key = none := by
  cases bound : map key with
  | none => rfl
  | some datum => exact absurd rfl (outside _ ((binds key datum).mpr bound))

theorem Binds.present {entries : List (K × D)} {map : K → Option D} {key : K} {datum : D}
    (binds : Binds entries map) (member : (key, datum) ∈ entries) : map key = some datum :=
  (binds key datum).mp member

theorem Binds.noEntry {entries : List (K × D)} {map : K → Option D} {key : K} (binds : Binds entries map)
    (unbound : map key = none) (datum : D) : (key, datum) ∉ entries := by
  intro member
  rw [binds.present member] at unbound
  cases unbound

theorem exists_first_entry {entries : List (K × D)} {key : K} (bound : key ∈ entries.map Prod.fst) :
    ∃ first old last, entries = first ++ (key, old) :: last ∧ key ∉ first.map Prod.fst := by
  obtain ⟨first, last, split, fresh⟩ := List.eq_append_cons_of_mem bound
  obtain ⟨front, back, rfl, rfl, rest⟩ := List.map_eq_append_iff.mp split
  obtain ⟨⟨name, old⟩, back, rfl, rfl, rfl⟩ := List.map_eq_cons_iff.mp rest
  exact ⟨front, old, back, rfl, fresh⟩

/-- Some entries are the graph of one map only. -/
theorem Binds.unique {entries : List (K × D)} {map other : K → Option D} (binds : Binds entries map)
    (otherwise : Binds entries other) : map = other := by
  funext key
  apply Option.ext
  intro datum
  exact (binds key datum).symm.trans (otherwise key datum)

variable [DecidableEq K] {first last : List (K × D)} {map : K → Option D} {key : K}
  {old datum : D}

theorem Binds.insert (binds : Binds (first ++ last) map) (fresh : map key = none) :
    Binds (first ++ (key, datum) :: last) (Function.update map key (some datum)) := by
  intro k d
  have here := binds k d
  by_cases same : k = key
  · subst same
    simp only [List.mem_append, fresh] at here
    simp only [List.mem_append, List.mem_cons, Prod.mk.injEq, true_and, Function.update_self,
      Option.some.injEq]
    have outside : (k, d) ∉ first ∧ (k, d) ∉ last := by simpa using here
    simp [outside, eq_comm]
  · simp only [List.mem_append] at here
    simp [same, here]

theorem Binds.erase (binds : Binds (first ++ (key, old) :: last) map)
    (outside : ∀ entry ∈ first ++ last, entry.1 ≠ key) :
    Binds (first ++ last) (Function.update map key none) := by
  intro k d
  have here := binds k d
  by_cases same : k = key
  · subst same
    have unbound : (k, d) ∉ first ++ last := fun member => outside _ member rfl
    simpa using unbound
  · simp only [List.mem_append, List.mem_cons, Prod.mk.injEq, same, false_and, false_or] at here
    simp [same, here]

theorem Binds.replace (binds : Binds (first ++ (key, old) :: last) map)
    (outside : ∀ entry ∈ first ++ last, entry.1 ≠ key) :
    Binds (first ++ (key, datum) :: last) (Function.update map key (some datum)) := by
  have bound : Binds (first ++ (key, datum) :: last)
      (Function.update (Function.update map key none) key (some datum)) :=
    (binds.erase outside).insert (by simp)
  simpa using bound

theorem Binds.find {entries : List (K × D)} (binds : Binds entries map) (key : K) :
    entries.find? (fun entry => entry.1 = key) = (map key).map (Prod.mk key) := by
  cases found : entries.find? (fun entry => entry.1 = key) with
  | none =>
      have outside : ∀ entry ∈ entries, entry.1 ≠ key := by simpa using List.find?_eq_none.mp found
      rw [binds.absent outside, Option.map_none]
  | some entry =>
      obtain ⟨name, datum⟩ := entry
      have here : name = key := by simpa using List.find?_some found
      subst here
      rw [binds.present (List.mem_of_find?_eq_some found), Option.map_some]

/-- Bind a key where it is bound already, or else at the end. -/
def upsert (key : K) (datum : D) : List (K × D) → List (K × D)
  | [] => [(key, datum)]
  | entry :: entries =>
      if entry.1 = key then (key, datum) :: entries else entry :: upsert key datum entries

theorem upsert_fresh {entries : List (K × D)} (fresh : key ∉ entries.map Prod.fst) :
    upsert key datum entries = entries ++ [(key, datum)] := by
  induction entries with
  | nil => rfl
  | cons entry entries ih =>
      rw [List.map_cons, List.mem_cons, not_or] at fresh
      rw [upsert, if_neg (Ne.symm fresh.1), ih fresh.2, List.cons_append]

theorem upsert_bound (fresh : key ∉ first.map Prod.fst) :
    upsert key datum (first ++ (key, old) :: last) = first ++ (key, datum) :: last := by
  induction first with
  | nil => rw [List.nil_append, upsert, if_pos rfl, List.nil_append]
  | cons entry first ih =>
      rw [List.map_cons, List.mem_cons, not_or] at fresh
      rw [List.cons_append, upsert, if_neg (Ne.symm fresh.1), ih fresh.2, List.cons_append]

theorem keys_upsert (key : K) (datum : D) (entries : List (K × D)) :
    (upsert key datum entries).map Prod.fst =
      if key ∈ entries.map Prod.fst then entries.map Prod.fst else entries.map Prod.fst ++ [key] := by
  split
  · next bound =>
    obtain ⟨first, old, last, rfl, fresh⟩ := exists_first_entry bound
    simp [upsert_bound fresh]
  · next fresh => simp [upsert_fresh fresh]

theorem Binds.upsert {entries : List (K × D)} (binds : Binds entries map)
    (nodup : (entries.map Prod.fst).Nodup) :
    Binds (upsert key datum entries) (Function.update map key (some datum)) := by
  by_cases bound : key ∈ entries.map Prod.fst
  · obtain ⟨first, old, last, rfl, fresh⟩ := exists_first_entry bound
    rw [upsert_bound fresh]
    apply binds.replace
    rw [List.map_append, List.map_cons] at nodup
    have outside := (List.nodup_cons.mp (List.perm_middle.nodup_iff.mp nodup)).1
    intro entry member same
    rw [← List.map_append] at outside
    exact outside (List.mem_map.mpr ⟨entry, member, same⟩)
  · rw [upsert_fresh bound]
    rw [← List.append_nil entries] at binds
    apply binds.insert
    apply binds.absent
    intro entry member same
    rw [List.append_nil] at member
    exact bound (List.mem_map.mpr ⟨entry, member, same⟩)

/-- The datum of the last pair with a key. -/
def latest (pairs : List (K × D)) (key : K) : Option D := pairs.reverse.lookup key

theorem latest_snoc (pairs : List (K × D)) (pair : K × D) :
    latest (pairs ++ [pair]) = Function.update (latest pairs) pair.1 (some pair.2) := by
  funext key
  rw [latest, List.reverse_append, List.reverse_singleton, List.singleton_append, List.lookup_cons]
  by_cases same : key = pair.1
  · simp [same]
  · simp [same, beq_false_of_ne same, latest]

theorem mem_of_latest {pairs : List (K × D)} (found : latest pairs key = some datum) : (key, datum) ∈ pairs := by
  obtain ⟨first, last, split, _⟩ := List.lookup_eq_some_iff.mp found
  rw [← List.mem_reverse, split]
  exact List.mem_append_right first List.mem_cons_self

theorem latest_eq_none_iff {pairs : List (K × D)} : latest pairs key = none ↔ ∀ pair ∈ pairs, pair.1 ≠ key := by
  rw [latest, List.lookup_eq_none_iff]
  simp only [List.mem_reverse, bne_iff_ne]
  exact forall₂_congr fun pair _ => ne_comm

theorem latest_map {E : Type} (pairs : List (K × D)) (f : D → E) (key : K) :
    latest (pairs.map fun pair => (pair.1, f pair.2)) key = (latest pairs key).map f := by
  induction pairs using List.reverseRecOn with
  | nil => rfl
  | append_singleton pairs pair ih =>
      rw [List.map_append, List.map_singleton, latest_snoc, latest_snoc, Function.update_apply, Function.update_apply, ih]
      split
      · rfl
      · rfl

/-- Bind some pairs one after another. -/
def upserts (pairs : List (K × D)) : List (K × D) :=
  pairs.foldl (fun entries pair => upsert pair.1 pair.2 entries) []

theorem upserts_snoc (pairs : List (K × D)) (pair : K × D) :
    upserts (pairs ++ [pair]) = upsert pair.1 pair.2 (upserts pairs) := by
  rw [upserts, List.foldl_append]
  rfl

theorem eraseDups_snoc (keys : List K) (key : K) :
    (keys ++ [key]).eraseDups = if key ∈ keys then keys.eraseDups else keys.eraseDups ++ [key] := by
  rw [List.eraseDups_append]
  by_cases bound : key ∈ keys
  · simp [List.removeAll, bound]
  · simp [List.removeAll, bound, List.eraseDups_cons]

/-- The keys stand in the order in which they came first. -/
theorem keys_upserts (pairs : List (K × D)) :
    (upserts pairs).map Prod.fst = (pairs.map Prod.fst).eraseDups := by
  induction pairs using List.reverseRecOn with
  | nil => rfl
  | append_singleton pairs pair ih =>
      rw [upserts_snoc, keys_upsert, ih, List.map_append, List.map_singleton, eraseDups_snoc]
      simp only [List.mem_eraseDups]

theorem nodup_keys_upserts (pairs : List (K × D)) : ((upserts pairs).map Prod.fst).Nodup := by
  induction pairs using List.reverseRecOn with
  | nil => exact List.nodup_nil
  | append_singleton pairs pair ih =>
      rw [upserts_snoc, keys_upsert]
      split
      · exact ih
      · next fresh =>
        exact (List.perm_append_singleton _ _).nodup_iff.mpr (List.nodup_cons.mpr ⟨fresh, ih⟩)

theorem binds_upserts (pairs : List (K × D)) : Binds (upserts pairs) (latest pairs) := by
  induction pairs using List.reverseRecOn with
  | nil => exact Binds.empty
  | append_singleton pairs pair ih =>
      rw [upserts_snoc, latest_snoc]
      exact ih.upsert (nodup_keys_upserts pairs)

/-- Entries with different keys are the graph of a map. -/
theorem exists_binds {entries : List (K × D)} (nodup : (entries.map Prod.fst).Nodup) :
    ∃ map, Binds entries map := by
  induction entries with
  | nil => exact ⟨_, Binds.empty⟩
  | cons e rest ih =>
      rw [List.map_cons, List.nodup_cons] at nodup
      obtain ⟨map, binds⟩ := ih nodup.2
      have fresh : map e.1 = none :=
        binds.absent fun other member same => nodup.1 (List.mem_map.mpr ⟨other, member, same⟩)
      exact ⟨_, Binds.insert (show Binds ([] ++ rest) map from binds) fresh⟩

end GbfLibrary.Maps
