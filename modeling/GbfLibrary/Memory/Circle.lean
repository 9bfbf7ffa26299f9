import GbfLibrary.Memory.Machine
import Mathlib.Data.List.Cycle
import Mathlib.Data.List.Nodup

/-!
# Circular lists in memory

Records that are linked in a circle, in both directions.
-/

set_option autoImplicit false

namespace GbfLibrary.Memory

variable {Rec Glob α : Type}

/-- A chain whose edges are edges of another relation. -/
theorem isChain_of_edges {R S : α → α → Prop} {l : List α} (chain : l.IsChain R)
    (edges : ∀ a ∈ l.dropLast, ∀ b ∈ l.tail, R a b → S a b) : l.IsChain S := by
  induction l with
  | nil => exact .nil
  | cons a l ih =>
      cases l with
      | nil => exact .singleton a
      | cons b l =>
          rw [List.isChain_cons_cons] at chain ⊢
          constructor
          · exact edges a (by simp) b (by simp) chain.1
          · refine ih chain.2 fun x early y late => ?_
            apply edges x
            · rw [List.dropLast_cons_cons]
              exact List.mem_cons_of_mem _ early
            · exact List.mem_cons_of_mem _ late

/-- `b` is the next record of `a`, and `a` the previous one of `b`. -/
def Follows (next prev : Rec → Addr) (s : Machine Rec Glob) (a b : Addr) : Prop :=
  next (s.cell a) = b ∧ prev (s.cell b) = a

/-- Live records, each linked to its neighbours in the circle. -/
structure Circular (next prev : Rec → Addr) (s : Machine Rec Glob) (circle : Cycle Addr) : Prop where
  nodup : circle.Nodup
  live : ∀ a ∈ circle, a ∈ s.live
  chain : circle.Chain (Follows next prev s)

namespace Circular

variable {next prev : Rec → Addr} {s s' : Machine Rec Glob} {a b : Addr} {nodes : List Addr}

theorem rotate {front back : List Addr} :
    ((front ++ a :: back : List Addr) : Cycle Addr) = (a :: (back ++ front) : List Addr) := by
  rw [Cycle.coe_eq_coe]
  exact List.isRotated_append

theorem nil : Circular next prev s ([] : List Addr) := ⟨List.nodup_nil, nofun, trivial⟩

theorem edges (circular : Circular next prev s (a :: nodes : List Addr)) :
    (∀ b ∈ (nodes ++ [a]).head?, next (s.cell a) = b ∧ prev (s.cell b) = a) ∧
      ∀ b ∈ (a :: nodes).getLast?, next (s.cell b) = a ∧ prev (s.cell a) = b := by
  have chain := circular.chain
  rw [Cycle.chain_coe_cons] at chain
  constructor
  · exact (List.isChain_cons.mp chain).1
  · intro b last
    rw [← List.cons_append] at chain
    exact (List.isChain_append.mp chain).2.2 b last a rfl

/-- Changes of other fields, and of other records. -/
theorem congr {circle : Cycle Addr} (circular : Circular next prev s circle)
    (live : ∀ a ∈ circle, a ∈ s'.live)
    (same : ∀ a ∈ circle, next (s'.cell a) = next (s.cell a) ∧ prev (s'.cell a) = prev (s.cell a)) :
    Circular next prev s' circle := by
  refine ⟨circular.nodup, live, ?_⟩
  have chain := circular.chain
  induction circle using Cycle.induction_on with
  | nil => trivial
  | cons a nodes _ =>
      rw [Cycle.chain_coe_cons] at chain ⊢
      refine isChain_of_edges chain fun x early y late edge => ?_
      have first : x ∈ ((a :: nodes : List Addr) : Cycle Addr) := by
        rw [← List.cons_append, List.dropLast_concat] at early
        exact early
      have second : y ∈ ((a :: nodes : List Addr) : Cycle Addr) := by
        rw [Cycle.mem_coe_iff]
        simpa [or_comm] using late
      exact ⟨(same x first).1.trans edge.1, (same y second).2.trans edge.2⟩

theorem singleton (live : a ∈ s.live) (next_ : next (s.cell a) = a) (prev_ : prev (s.cell a) = a) :
    Circular next prev s ([a] : List Addr) := by
  refine ⟨List.nodup_singleton a, fun b member => ?_, ?_⟩
  · rw [Cycle.mem_coe_iff, List.mem_singleton] at member
    rwa [member]
  · rw [Cycle.chain_singleton]
    exact ⟨next_, prev_⟩

/-- A record `b` between `a` and the next one. -/
theorem insert {after : Addr} (circular : Circular next prev s (a :: nodes : List Addr))
    (fresh : b ∉ a :: nodes) (behind : (nodes ++ [a]).head? = some after)
    (live : ∀ x ∈ b :: a :: nodes, x ∈ s'.live)
    (first : next (s'.cell a) = b ∧ prev (s'.cell b) = a)
    (second : next (s'.cell b) = after ∧ prev (s'.cell after) = b)
    (nexts : ∀ x, x ≠ a → x ≠ b → next (s'.cell x) = next (s.cell x))
    (prevs : ∀ x, x ≠ after → x ≠ b → prev (s'.cell x) = prev (s.cell x)) :
    Circular next prev s' (a :: b :: nodes : List Addr) := by
  have distinct : (a :: nodes).Nodup := circular.nodup
  have chain := circular.chain
  rw [Cycle.chain_coe_cons] at chain
  refine ⟨?_, ?_, ?_⟩
  · exact (List.Perm.swap a b nodes).nodup_iff.mp (List.nodup_cons.mpr ⟨fresh, distinct⟩)
  · intro x member
    rw [Cycle.mem_coe_iff] at member
    exact live x ((List.Perm.swap a b nodes).mem_iff.mpr member)
  · rw [Cycle.chain_coe_cons, List.cons_append, List.isChain_cons_cons]
    refine ⟨first, ?_⟩
    rw [List.isChain_cons]
    constructor
    · intro x head
      rw [behind] at head
      cases head
      exact second
    · have rest := (List.isChain_cons.mp chain).2
      refine isChain_of_edges rest fun x early y late edge => ?_
      have apart : (nodes ++ [a]).Nodup := (List.perm_append_singleton a nodes).nodup_iff.mpr distinct
      rw [List.dropLast_concat] at early
      constructor
      · rw [nexts x, edge.1]
        · rintro rfl
          exact (List.nodup_cons.mp distinct).1 early
        · rintro rfl
          exact fresh (List.mem_cons_of_mem _ early)
      · obtain ⟨tail, split⟩ : ∃ tail, nodes ++ [a] = after :: tail :=
          ⟨_, (List.cons_head?_tail behind).symm⟩
        have member : y ∈ nodes ++ [a] := List.mem_of_mem_tail late
        rw [split, List.tail_cons] at late
        rw [split] at apart
        rw [prevs y, edge.2]
        · rintro rfl
          exact (List.nodup_cons.mp apart).1 late
        · rintro rfl
          apply fresh
          simpa [or_comm] using member

/-- The circle without its record `a`. -/
theorem remove {before after : Addr} (circular : Circular next prev s (a :: after :: nodes : List Addr))
    (last : (after :: nodes).getLast? = some before)
    (live : ∀ x ∈ after :: nodes, x ∈ s'.live)
    (joined : next (s'.cell before) = after ∧ prev (s'.cell after) = before)
    (nexts : ∀ x, x ≠ a → x ≠ before → next (s'.cell x) = next (s.cell x))
    (prevs : ∀ x, x ≠ a → x ≠ after → prev (s'.cell x) = prev (s.cell x)) :
    Circular next prev s' (after :: nodes : List Addr) := by
  have distinct : (a :: after :: nodes).Nodup := circular.nodup
  obtain ⟨outside, inner⟩ := List.nodup_cons.mp distinct
  have chain := circular.chain
  rw [Cycle.chain_coe_cons] at chain
  refine ⟨inner, live, ?_⟩
  rw [Cycle.chain_coe_cons, ← List.cons_append, List.isChain_append]
  refine ⟨?_, .singleton _, ?_⟩
  · have rest := (List.isChain_append.mp (List.isChain_cons.mp chain).2).1
    refine isChain_of_edges rest fun x early y late edge => ?_
    constructor
    · rw [nexts x, edge.1]
      · rintro rfl
        exact outside (List.mem_of_mem_dropLast early)
      · rintro rfl
        have split := List.dropLast_append_getLast? x last
        rw [← split] at inner
        exact (List.nodup_append'.mp inner).2.2 early (List.mem_singleton_self x)
    · rw [prevs y, edge.2]
      · rintro rfl
        exact outside (List.mem_of_mem_tail late)
      · rintro rfl
        exact (List.nodup_cons.mp inner).1 late
  · intro x lastX y headY
    rw [last] at lastX
    cases lastX
    cases headY
    exact joined

end Circular

end GbfLibrary.Memory
