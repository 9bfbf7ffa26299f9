import Mathlib.Algebra.Order.Group.Nat
import GbfLibrary.Streams.Blocks

/-!
# Collisions of chained blocks

Two messages that leave the same state either agree block by block, or the block function gets an input for one of them
and another for the other that it does not tell apart.
-/

set_option autoImplicit false

namespace GbfLibrary.Streams

variable {σ α : Type} {size : Nat} {compress : σ → List α → σ}

/-- The inputs that the block function gets for a number of blocks of a message: the state so far and the block. -/
def inputs (size : Nat) (compress : σ → List α → σ) : Nat → σ → List α → List (σ × List α)
  | 0, _, _ => []
  | count + 1, state, message =>
      (state, message.take size) ::
        inputs size compress count (compress state (message.take size)) (message.drop size)

/-- The inputs for all whole blocks of a message. -/
def fed (size : Nat) (compress : σ → List α → σ) (state : σ) (message : List α) : List (σ × List α) :=
  inputs size compress (message.length / size) state message

/-- An input of either list that the block function does not tell apart from one of the other. -/
def Collide (compress : σ → List α → σ) (first second : List (σ × List α)) : Prop :=
  ∃ x ∈ first, ∃ y ∈ second, x ≠ y ∧ compress x.1 x.2 = compress y.1 y.2

theorem Collide.mono {first second more more' : List (σ × List α)} (collide : Collide compress first second)
    (subset : first ⊆ more) (subset' : second ⊆ more') : Collide compress more more' := by
  obtain ⟨x, here, y, there, different, same⟩ := collide
  exact ⟨x, subset here, y, subset' there, different, same⟩

theorem collide_or_eq {x y : σ × List α} {first second : List (σ × List α)} (here : x ∈ first) (there : y ∈ second)
    (same : compress x.1 x.2 = compress y.1 y.2) : Collide compress first second ∨ x = y := by
  by_cases equal : x = y
  · exact .inr equal
  · exact .inl ⟨x, here, y, there, equal, same⟩

theorem chain_collides_or_eq {count : Nat} {s s' : σ} {message message' : List α}
    (length : message.length = count * size) (length' : message'.length = count * size)
    (same : chain size compress count s message = chain size compress count s' message') :
    Collide compress (inputs size compress count s message) (inputs size compress count s' message') ∨
      s = s' ∧ message = message' := by
  induction count generalizing s s' message message' with
  | zero =>
      rw [Nat.zero_mul] at length length'
      rw [List.eq_nil_of_length_eq_zero length, List.eq_nil_of_length_eq_zero length']
      exact .inr ⟨same, rfl⟩
  | succ count ih =>
      rw [Nat.succ_mul] at length length'
      rcases ih (by rw [List.length_drop]; omega) (by rw [List.length_drop]; omega) same with collide | ⟨states, rest⟩
      · exact .inl (collide.mono (List.subset_cons_self ..) (List.subset_cons_self ..))
      · have first : (s, message.take size) ∈ inputs size compress (count + 1) s message := List.mem_cons_self ..
        have second : (s', message'.take size) ∈ inputs size compress (count + 1) s' message' := List.mem_cons_self ..
        refine (collide_or_eq first second states).imp_right fun equal => ?_
        obtain ⟨start, block⟩ := Prod.mk.inj equal
        refine ⟨start, ?_⟩
        rw [← List.take_append_drop size message, block, rest, List.take_append_drop]

/-- The last block is the last thing that the state depends on. -/
theorem chain_last {count : Nat} (s : σ) {message : List α} (length : message.length = (count + 1) * size) :
    chain size compress (count + 1) s message =
      compress (chain size compress count s message) (message.drop (count * size)) := by
  rw [Nat.succ_mul] at length
  rw [chain_add, chain_succ, chain_zero, List.take_of_length_le]
  rw [List.length_drop]
  omega

theorem last_mem_inputs {count : Nat} (s : σ) {message : List α} (length : message.length = (count + 1) * size) :
    (chain size compress count s message, message.drop (count * size)) ∈ inputs size compress (count + 1) s message := by
  induction count generalizing s message with
  | zero =>
      rw [Nat.zero_add, Nat.one_mul] at length
      rw [inputs, ← length, List.take_length, Nat.zero_mul]
      exact List.mem_cons_self ..
  | succ count ih =>
      rw [Nat.succ_mul] at length
      have shorter : (message.drop size).length = (count + 1) * size := by
        rw [List.length_drop]
        omega
      have rest := ih (compress s (message.take size)) shorter
      rw [List.drop_drop, Nat.add_comm size, ← Nat.succ_mul] at rest
      exact List.mem_cons_of_mem _ rest

/-- Messages of whole blocks that end in different blocks whenever their lengths differ. -/
theorem absorbed_collides_or_eq {s : σ} {message message' : List α}
    (whole : message.length % size = 0) (whole' : message'.length % size = 0)
    (ends : message.length ≠ message'.length →
      message ≠ [] ∧ message' ≠ [] ∧ message.drop (message.length - size) ≠ message'.drop (message'.length - size))
    (same : absorbed size compress s message = absorbed size compress s message') :
    Collide compress (fed size compress s message) (fed size compress s message') ∨ message = message' := by
  have exact' := Nat.div_mul_cancel (Nat.dvd_of_mod_eq_zero whole)
  have exact'' := Nat.div_mul_cancel (Nat.dvd_of_mod_eq_zero whole')
  rw [absorbed, absorbed] at same
  rw [fed, fed]
  by_cases lengths : message.length = message'.length
  · rw [← lengths] at same ⊢
    exact (chain_collides_or_eq exact'.symm (lengths.symm.trans exact'.symm) same).imp_right And.right
  obtain ⟨nonempty, nonempty', last⟩ := ends lengths
  have blocks {message : List α} (exact' : message.length / size * size = message.length) (nonempty : message ≠ []) :
      ∃ count, message.length / size = count + 1 :=
    Nat.exists_eq_succ_of_ne_zero fun nothing => by
      rw [nothing, Nat.zero_mul] at exact'
      exact nonempty (List.eq_nil_of_length_eq_zero exact'.symm)
  obtain ⟨count, total⟩ := blocks exact' nonempty
  obtain ⟨count', total'⟩ := blocks exact'' nonempty'
  rw [total] at exact' same ⊢
  rw [total'] at exact'' same ⊢
  rw [chain_last s exact'.symm, chain_last s exact''.symm] at same
  have first : _ ∈ inputs size compress (count + 1) s message := last_mem_inputs s exact'.symm
  have second : _ ∈ inputs size compress (count' + 1) s message' := last_mem_inputs s exact''.symm
  rw [Nat.succ_mul] at exact' exact''
  have place : message.length - size = count * size := by omega
  have place' : message'.length - size = count' * size := by omega
  rw [place, place'] at last
  refine (collide_or_eq first second same).imp_right fun equal => ?_
  exact absurd (Prod.mk.inj equal).2 last

end GbfLibrary.Streams
