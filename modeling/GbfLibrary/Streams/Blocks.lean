import Mathlib.Data.List.Basic
import Mathlib.Data.List.TakeDrop

/-!
# Hashing a stream block by block

A message is taken in by whole blocks, and what is left of it waits for more. Where the message was cut does not
matter.
-/

set_option autoImplicit false

namespace GbfLibrary.Streams

variable {σ α : Type}

/-- A number of blocks of `size` taken in from the front of a message. -/
def chain (size : Nat) (compress : σ → List α → σ) : Nat → σ → List α → σ
  | 0, state, _ => state
  | count + 1, state, message => chain size compress count (compress state (message.take size)) (message.drop size)

/-- The state after all whole blocks of a message. -/
def absorbed (size : Nat) (compress : σ → List α → σ) (state : σ) (message : List α) : σ :=
  chain size compress (message.length / size) state message

/-- What is left of a message behind its whole blocks. -/
def left (size : Nat) (message : List α) : List α :=
  message.drop (message.length / size * size)

section Chain

variable {size : Nat} {compress : σ → List α → σ}

@[simp]
theorem chain_zero (state : σ) (message : List α) : chain size compress 0 state message = state := rfl

theorem chain_succ (count : Nat) (state : σ) (message : List α) :
    chain size compress (count + 1) state message =
      chain size compress count (compress state (message.take size)) (message.drop size) := rfl

theorem chain_add (first second : Nat) (state : σ) (message : List α) :
    chain size compress (first + second) state message =
      chain size compress second (chain size compress first state message) (message.drop (first * size)) := by
  induction first generalizing state message with
  | zero => rw [Nat.zero_add, chain_zero, Nat.zero_mul, List.drop_zero]
  | succ first ih =>
      rw [Nat.add_right_comm, chain_succ, ih, chain_succ, List.drop_drop, Nat.succ_mul, Nat.add_comm size]

/-- The blocks of the front do not depend on what follows. -/
theorem chain_append {count : Nat} {message : List α} (whole : count * size ≤ message.length) (state : σ)
    (rest : List α) : chain size compress count state (message ++ rest) = chain size compress count state message := by
  induction count generalizing state message with
  | zero => rfl
  | succ count ih =>
      rw [Nat.succ_mul] at whole
      rw [chain_succ, chain_succ, List.take_append_of_le_length (by omega), List.drop_append_of_le_length (by omega)]
      exact ih (by rw [List.length_drop]; omega) _

theorem chain_take {count bound : Nat} {message : List α} (whole : count * size ≤ bound) (state : σ) :
    chain size compress count state (message.take bound) = chain size compress count state message := by
  by_cases short : message.length ≤ bound
  · rw [List.take_of_length_le short]
  · have inside : count * size ≤ (message.take bound).length := by
      rw [List.length_take]
      omega
    rw [← chain_append inside state (message.drop bound), List.take_append_drop]

/-- A first block that is made of two parts. -/
theorem chain_block {front block : List α} (count : Nat) (state : σ) (full : front.length = size) :
    chain size compress (count + 1) state (front ++ block) =
      chain size compress count (compress state front) block := by
  rw [chain_succ, ← full, List.take_left, List.drop_left]

end Chain

section Absorbed

variable {size : Nat} {compress : σ → List α → σ}

theorem length_left (message : List α) : (left size message).length = message.length % size := by
  rw [left, List.length_drop, Nat.mod_eq_sub_div_mul]

theorem absorbed_of_lt {message : List α} (short : message.length < size) (state : σ) :
    absorbed size compress state message = state := by
  rw [absorbed, Nat.div_eq_of_lt short, chain_zero]

theorem left_of_lt {message : List α} (short : message.length < size) : left size message = message := by
  rw [left, Nat.div_eq_of_lt short, Nat.zero_mul, List.drop_zero]

private theorem div_left_append (positive : 0 < size) (message rest : List α) :
    (message ++ rest).length / size = message.length / size + (left size message ++ rest).length / size := by
  rw [List.length_append, List.length_append, length_left]
  have split := Nat.div_add_mod message.length size
  calc (message.length + rest.length) / size
      = (message.length % size + rest.length + size * (message.length / size)) / size := by congr 1; omega
    _ = message.length / size + (message.length % size + rest.length) / size := by
        rw [Nat.add_mul_div_left _ _ positive, Nat.add_comm]

theorem drop_append_left (message rest : List α) :
    (message ++ rest).drop (message.length / size * size) = left size message ++ rest :=
  List.drop_append_of_le_length (Nat.div_mul_le_self _ _)

/-- Taking in a message and then more of it is taking in both at once. -/
theorem absorbed_append (positive : 0 < size) (state : σ) (message rest : List α) :
    absorbed size compress state (message ++ rest) =
      absorbed size compress (absorbed size compress state message) (left size message ++ rest) := by
  rw [absorbed, div_left_append positive, chain_add, chain_append (Nat.div_mul_le_self _ _), drop_append_left]
  rfl

theorem left_append (positive : 0 < size) (message rest : List α) :
    left size (message ++ rest) = left size (left size message ++ rest) := by
  rw [left, div_left_append positive, Nat.add_mul, ← List.drop_drop, drop_append_left]
  rfl

/-- More of a message that does not fill the block that is waiting. -/
theorem absorbed_append_short {message more : List α} (short : message.length % size + more.length < size)
    (state : σ) : absorbed size compress state (message ++ more) = absorbed size compress state message := by
  rw [absorbed_append (by omega), absorbed_of_lt]
  rwa [List.length_append, length_left]

theorem left_append_short {message more : List α} (short : message.length % size + more.length < size) :
    left size (message ++ more) = left size message ++ more := by
  rw [left_append (by omega), left_of_lt]
  rwa [List.length_append, length_left]

section Long

variable {message more : List α} {part : Nat}

private theorem blocks_long (positive : 0 < size) (fills : message.length % size + part = size)
    (enough : part ≤ more.length) :
    (left size message ++ more).length / size = (more.length - part) / size + 1 := by
  have total : message.length % size + more.length = (more.length - part) + size := by omega
  rw [List.length_append, length_left, total, Nat.add_div_right _ positive]

/-- More of a message that fills the block that is waiting: this one first, then the whole blocks behind it. -/
theorem absorbed_append_long (positive : 0 < size) (fills : message.length % size + part = size)
    (enough : part ≤ more.length) (state : σ) :
    absorbed size compress state (message ++ more) =
      chain size compress ((more.length - part) / size)
        (compress (absorbed size compress state message) (left size message ++ more.take part)) (more.drop part) := by
  have full : (left size message ++ more.take part).length = size := by
    rw [List.length_append, length_left, List.length_take_of_le enough, fills]
  have split : left size message ++ more = left size message ++ more.take part ++ more.drop part := by
    rw [List.append_assoc, List.take_append_drop]
  rw [absorbed_append positive, absorbed, blocks_long positive fills enough, split, chain_block _ _ full]

theorem left_append_long (positive : 0 < size) (fills : message.length % size + part = size)
    (enough : part ≤ more.length) :
    left size (message ++ more) = (more.drop part).drop ((more.length - part) / size * size) := by
  have waiting : (left size message).length = message.length % size := length_left message
  rw [left_append positive, left, blocks_long positive fills enough, Nat.succ_mul, List.drop_append, waiting,
    List.drop_eq_nil_of_le (by omega), List.nil_append, List.drop_drop]
  congr 1
  omega

end Long

end Absorbed

end GbfLibrary.Streams
