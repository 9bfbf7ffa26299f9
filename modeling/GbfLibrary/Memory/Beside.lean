import GbfLibrary.Memory.Chain
import Mathlib.Data.Finset.Dedup
import Mathlib.Data.Finset.SDiff

/-!
# The records beside a structure

A structure in memory claims the records at some addresses. What is allocated beside them stays the same when a
record that leaves the structure is freed and one that joins it is new, and when a whole list is freed.
-/

set_option autoImplicit false

namespace GbfLibrary.Memory.Machine

variable {Rec Glob : Type} {s s' : Machine Rec Glob} {addrs more : List Addr} {a : Addr}

/-- The records at other addresses. -/
def beside (s : Machine Rec Glob) (addrs : List Addr) : Finset Addr := s.live \ addrs.toFinset

theorem mem_beside : a ∈ s.beside addrs ↔ a ∈ s.live ∧ a ∉ addrs := by
  rw [beside, Finset.mem_sdiff, List.mem_toFinset]

theorem beside_nil (s : Machine Rec Glob) : s.beside [] = s.live := by
  rw [beside, List.toFinset_nil, Finset.sdiff_empty]

@[simp] theorem beside_withGlob (s : Machine Rec Glob) (g : Glob) (addrs : List Addr) :
    (s.withGlob g).beside addrs = s.beside addrs := rfl

/-- Records leave the structure and are freed. -/
theorem beside_sdiff {gone : List Addr} (live : s'.live = s.live \ gone.toFinset) (moved : (gone ++ addrs).Perm more) :
    s'.beside addrs = s.beside more := by
  ext b
  rw [mem_beside, mem_beside, live, Finset.mem_sdiff, List.mem_toFinset, ← moved.mem_iff, List.mem_append, not_or,
    and_assoc]

theorem beside_perm (live : s'.live = s.live) (moved : addrs.Perm more) : s'.beside addrs = s.beside more :=
  beside_sdiff (show s'.live = s.live \ [].toFinset by rw [live, List.toFinset_nil, Finset.sdiff_empty]) moved

theorem beside_erase (live : s'.live = s.live.erase a) (moved : (a :: addrs).Perm more) :
    s'.beside addrs = s.beside more :=
  beside_sdiff (by rw [live, List.toFinset_cons, List.toFinset_nil, insert_empty_eq, Finset.sdiff_singleton_eq_erase])
    moved

/-- A new record joins the structure. -/
theorem beside_insert (live : s'.live = insert a s.live) (fresh : a ∉ s.live) (moved : (a :: addrs).Perm more) :
    s'.beside more = s.beside addrs := by
  ext b
  rw [mem_beside, mem_beside, live, Finset.mem_insert, ← moved.mem_iff, List.mem_cons, not_or]
  have other : b ∈ s.live → b ≠ a := fun old same => fresh (same ▸ old)
  tauto

/-- A new record stays outside. -/
theorem beside_stray (live : s'.live = insert a s.live) (outside : a ∉ addrs) :
    s'.beside addrs = insert a (s.beside addrs) := by
  ext b
  rw [Finset.mem_insert, mem_beside, mem_beside, live, Finset.mem_insert]
  have other : b = a → b ∉ addrs := fun same => same ▸ outside
  tauto

end GbfLibrary.Memory.Machine

namespace GbfLibrary.Memory

open Prog

variable {Rec Glob : Type} {link : Rec → Addr}

/-- The records from `head` on are freed, along the field `link`. -/
def freeChain (link : Rec → Addr) : Nat → Addr → Prog Rec Glob Unit
  | 0, _ => fault
  | fuel + 1, head =>
    if head = 0 then pure ()
    else do
      let node ← load head
      free head
      freeChain link fuel (link node)

theorem Chain.freeChain {s : Machine Rec Glob} {head : Addr} {nodes : List Addr} {fuel : Nat}
    (chain : Chain link s head nodes) (nodup : nodes.Nodup) (enough : nodes.length < fuel) :
    ∃ s', Memory.freeChain link fuel head s = some ((), s') ∧ s'.live = s.live \ nodes.toFinset ∧
      s'.others = s.others ∧ s'.cell = s.cell ∧ s'.glob = s.glob := by
  induction nodes generalizing s head fuel with
  | nil =>
      obtain ⟨fuel, rfl⟩ : ∃ more, fuel = more + 1 := ⟨fuel - 1, by simp at enough; omega⟩
      exact ⟨s, by simp [Memory.freeChain, show head = 0 from chain], by simp, rfl, rfl, rfl⟩
  | cons a rest ih =>
      simp only [List.length_cons] at enough
      obtain ⟨fuel, rfl⟩ : ∃ more, fuel = more + 1 := ⟨fuel - 1, by omega⟩
      obtain ⟨rfl, notNull, present, beyond⟩ := chain
      obtain ⟨outside, distinct⟩ := List.nodup_cons.mp nodup
      have released : Chain link (s.release head) (link (s.cell head)) rest :=
        ((Chain.readsNodes _ _ rest).release outside).mpr beyond
      obtain ⟨s', runs, live, same⟩ := ih released distinct (show rest.length < fuel by omega)
      refine ⟨s', ?_, ?_, same⟩
      · rw [← runs]
        simp [Memory.freeChain, notNull, present, free]
      · rw [live]
        simp [Finset.erase_sdiff_comm, Finset.sdiff_insert]

end GbfLibrary.Memory
