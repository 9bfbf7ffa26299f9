import Mathlib.Logic.Function.Iterate
import Mathlib.Data.List.Range

/-!
# Rounds on registers that move on

After each round of a hash function its registers change their names. A program that leaves the registers where they
are gives other names to each round instead.
-/

set_option autoImplicit false

namespace GbfLibrary.Streams

variable {σ : Type} {move : σ → σ} {round fixed : Nat → σ → σ}

/-- Rounds after each of which the registers move. -/
def moving (move : σ → σ) (round : Nat → σ → σ) (count : Nat) (s : σ) : σ :=
  (List.range count).foldl (fun s i => move (round i s)) s

/-- The same under changing names leaves the registers as many places behind as there were rounds. -/
theorem moving_eq_iterate (renames : ∀ i, Function.Semiconj move^[i] (fixed i) (round i)) (count : Nat) (s : σ) :
    moving move round count s = move^[count] ((List.range count).foldl (fun s i => fixed i s) s) := by
  rw [moving]
  induction count with
  | zero => rfl
  | succ count ih =>
      rw [List.range_succ, List.foldl_concat, List.foldl_concat, ih, Function.iterate_succ_apply',
        (renames count).eq]

/-- After whole turns the registers are back in their places. -/
theorem moving_eq_of_turns {period turns count : Nat} (back : ∀ s, move^[period] s = s) (whole : count = period * turns)
    (renames : ∀ i, Function.Semiconj move^[i] (fixed i) (round i)) (s : σ) :
    moving move round count s = (List.range count).foldl (fun s i => fixed i s) s := by
  have turned : (move^[period])^[turns] = id := by
    rw [show move^[period] = id from funext back, Function.iterate_id]
  rw [moving_eq_iterate renames, whole, Function.iterate_mul, turned, id_eq]

theorem iterate_mod {period : Nat} (back : ∀ s, move^[period] s = s) (count : Nat) :
    move^[count] = move^[count % period] := by
  have turned : (move^[period])^[count / period] = id := by
    rw [show move^[period] = id from funext back, Function.iterate_id]
  conv_lhs => rw [← Nat.mod_add_div count period, Function.iterate_add, Function.iterate_mul, turned, Function.comp_id]

end GbfLibrary.Streams
