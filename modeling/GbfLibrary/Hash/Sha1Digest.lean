import Mathlib.Data.List.GetD
import GbfLibrary.Hash.Sha1

/-!
# The digest of a message under SHA-1

The message schedule of 80 words in a window of 16, the 80 statements as rounds on five registers that move on, and
the digest that the chunks of a message have, wherever it was cut.
-/

set_option autoImplicit false

namespace GbfLibrary.Hash

open Memory Stdlbs Streams Sha1

namespace Sha1

/-- The word of four bytes, the highest first. -/
def bigEndianAt (bytes : Bytes) (offset : Nat) : Word :=
  bytes.getD offset 0 ++ bytes.getD (offset + 1) 0 ++ bytes.getD (offset + 2) 0 ++ bytes.getD (offset + 3) 0

def ofBigEndian (word : Word) : Bytes := (ofWord word).reverse

/-- The front of the message schedule. -/
def schedule (block : Bytes) : Nat → List Word
  | 0 => []
  | t + 1 =>
      let w := schedule block t
      w ++ [if t < 16 then bigEndianAt block (4 * t)
        else (w.getD (t - 3) 0 ^^^ w.getD (t - 8) 0 ^^^ w.getD (t - 14) 0 ^^^ w.getD (t - 16) 0).rotateLeft 1]

/-- The words of the message schedule. -/
def scheduled (block : Bytes) (t : Nat) : Word := (schedule block (t + 1)).getD t 0

def functionOf (t : Nat) (b c d : Word) : Word :=
  match t / 20 with
  | 0 => (b &&& c) ||| (~~~b &&& d)
  | 1 => b ^^^ c ^^^ d
  | 2 => (b &&& c) ^^^ (b &&& d) ^^^ (c &&& d)
  | _ => b ^^^ c ^^^ d

def constantOf (t : Nat) : Word :=
  match t / 20 with
  | 0 => 0x5A827999
  | 1 => 0x6ED9EBA1
  | 2 => 0x8F1BBCDC
  | _ => 0xCA62C1D6

/-- A round before its registers move. -/
def round (w : Nat → Word) (t : Nat) (s : Sha1State) : Sha1State :=
  { s with
    b := s.b.rotateLeft 30
    e := s.a.rotateLeft 5 + functionOf t s.b s.c s.d + s.e + w t + constantOf t }

def move (s : Sha1State) : Sha1State := ⟨s.e, s.a, s.b, s.c, s.d⟩

/-- The block function of SHA-1. -/
def compress (state : Sha1State) (block : Bytes) : Sha1State :=
  let vars := moving move (round (scheduled block)) 80 state
  ⟨state.a + vars.a, state.b + vars.b, state.c + vars.c, state.d + vars.d, state.e + vars.e⟩

def start : Sha1State := ⟨0x67452301, 0xEFCDAB89, 0x98BADCFE, 0x10325476, 0xC3D2E1F0⟩

/-- The digest of a message under SHA-1: its blocks are chained, the last of them with padding and the number of the
bits. -/
def digest (message : Bytes) : Bytes :=
  let last := absorbed 64 compress start (padded message ++ (littleEndian 8 (8 * message.length)).reverse)
  [last.a, last.b, last.c, last.d, last.e].flatMap ofBigEndian

def operationOf (t : Nat) : Operation :=
  if t < 16 then .R0
  else match t / 20 with
    | 0 => .R1
    | 1 => .R2
    | 2 => .R3
    | _ => .R4

/-- The statement of a round, the registers under their names there. -/
def statementOf (t : Nat) : Statement :=
  let line := Statement.mk (operationOf t)
  match t % 5 with
  | 0 => line .a .b .c .d .e t
  | 1 => line .e .a .b .c .d t
  | 2 => line .d .e .a .b .c t
  | 3 => line .c .d .e .a .b t
  | _ => line .b .c .d .e .a t

private theorem hashSha1Statements_eq : hashSha1Statements = (List.range 80).map statementOf := by
  decide +kernel

section Words

private theorem rol_eq (x : Word) {n : Nat} (small : n < 32) : rol x n = x.rotateLeft n := by
  rw [rol, BitVec.rotateLeft_def, Nat.mod_eq_of_lt small]

/-- The `and` of the choice is done once. -/
theorem choice_eq (w x y : Word) : (w &&& (x ^^^ y)) ^^^ y = (w &&& x) ||| (~~~w &&& y) := by
  apply BitVec.eq_of_getLsbD_eq
  intro j small
  simp only [BitVec.getLsbD_and, BitVec.getLsbD_or, BitVec.getLsbD_xor, BitVec.getLsbD_not]
  grind

theorem majority_eq (w x y : Word) : ((w ||| x) &&& y) ||| (w &&& x) = (w &&& x) ^^^ (w &&& y) ^^^ (x &&& y) := by
  apply BitVec.eq_of_getLsbD_eq
  intro j small
  simp only [BitVec.getLsbD_and, BitVec.getLsbD_or, BitVec.getLsbD_xor]
  grind

private theorem masks_eq (c0 c1 c2 c3 : Byte) :
    ((c0 ++ c3 ++ c2 ++ c1) &&& ((0xFF : Byte) ++ (0x00 : Byte) ++ (0xFF : Byte) ++ (0x00 : Byte))) |||
      ((c2 ++ c1 ++ c0 ++ c3) &&& ((0x00 : Byte) ++ (0xFF : Byte) ++ (0x00 : Byte) ++ (0xFF : Byte))) =
      c0 ++ c1 ++ c2 ++ c3 := by
  have ones (c : Byte) : c &&& 0xFF = c := BitVec.and_allOnes
  have zeros (c : Byte) : c &&& 0x00 = 0 := BitVec.and_zero
  have above (c : Byte) : 0 ||| c = c := BitVec.zero_or
  have under (c : Byte) : c ||| 0 = c := BitVec.or_zero
  rw [BitVec.and_append, BitVec.and_append, BitVec.and_append, BitVec.and_append, BitVec.and_append, BitVec.and_append]
  rw [BitVec.or_append, BitVec.or_append, BitVec.or_append]
  rw [ones, ones, ones, ones, zeros, zeros, zeros, zeros, above, above, under, under]

/-- Two turns and two masks put the bytes of a word the other way round. -/
theorem swap_eq (c0 c1 c2 c3 : Byte) :
    (rol (c3 ++ c2 ++ c1 ++ c0) 24 &&& 0xFF00FF00) ||| (rol (c3 ++ c2 ++ c1 ++ c0) 8 &&& 0x00FF00FF) =
      (c0 ++ c1 ++ c2 ++ c3 : Word) := by
  have turn24 : rol (c3 ++ c2 ++ c1 ++ c0) 24 = (c0 ++ c3 ++ c2 ++ c1 : Word) := by
    apply BitVec.eq_of_getLsbD_eq
    intro j small
    simp only [rol, BitVec.getLsbD_append, BitVec.getLsbD_or, BitVec.getLsbD_shiftLeft, BitVec.getLsbD_ushiftRight]
    grind
  have turn8 : rol (c3 ++ c2 ++ c1 ++ c0) 8 = (c2 ++ c1 ++ c0 ++ c3 : Word) := by
    apply BitVec.eq_of_getLsbD_eq
    intro j small
    simp only [rol, BitVec.getLsbD_append, BitVec.getLsbD_or, BitVec.getLsbD_shiftLeft, BitVec.getLsbD_ushiftRight]
    grind
  rw [turn24, turn8]
  exact masks_eq c0 c1 c2 c3

end Words

section Schedule

variable {block : Bytes}

private theorem length_schedule (t : Nat) : (schedule block t).length = t := by
  induction t with
  | zero => rfl
  | succ t ih => rw [schedule, List.length_append, ih, List.length_singleton]

/-- A word of the schedule does not change any more. -/
theorem getD_schedule {s t : Nat} (earlier : s < t) : (schedule block t).getD s 0 = scheduled block s := by
  induction t with
  | zero => exact absurd earlier (Nat.not_lt_zero s)
  | succ t ih =>
      by_cases same : s = t
      · rw [same, scheduled]
      · rw [schedule, List.getD_append _ _ _ _ (by rw [length_schedule]; omega)]
        exact ih (by omega)

private theorem scheduled_eq (t : Nat) :
    scheduled block t =
      if t < 16 then bigEndianAt block (4 * t)
      else (scheduled block (t - 3) ^^^ scheduled block (t - 8) ^^^ scheduled block (t - 14) ^^^
        scheduled block (t - 16)).rotateLeft 1 := by
  rw [scheduled, schedule, List.getD_append_right _ _ _ _ (by rw [length_schedule]), length_schedule, Nat.sub_self,
    List.getD_cons_zero]
  split
  · rfl
  · rw [getD_schedule (by omega), getD_schedule (by omega), getD_schedule (by omega), getD_schedule (by omega)]

/-- The words of `block->l` before the round `t`: the last 16 words of the schedule, and at first those of the block
that have not been swapped. -/
structure Window (block : Bytes) (t : Nat) (l : List Word) : Prop where
  length : l.length = 16
  recent : ∀ s, s < t → t ≤ s + 16 → l.getD (s % 16) 0 = scheduled block s
  raw : ∀ j, t ≤ j → j < 16 → l.getD j 0 = wordAt block (4 * j)

private theorem window_zero : Window block 0 ((List.range 16).map fun i => wordAt block (4 * i)) where
  length := rfl
  recent := fun s before => absurd before (Nat.not_lt_zero s)
  raw := fun j _ inside => by
    rw [List.getD_eq_getElem _ _ (by rwa [List.length_map, List.length_range]), List.getElem_map, List.getElem_range]

private theorem getD_set (l : List Word) {i : Nat} (inside : i < l.length) (word : Word) (j : Nat) :
    (l.set i word).getD j 0 = if i = j then word else l.getD j 0 := by
  rw [List.getD_eq_getElem?_getD, List.getElem?_set, List.getD_eq_getElem?_getD]
  split
  · rfl
  · rfl

/-- A round puts the next word of the schedule in the place of the oldest. -/
theorem Window.set {t : Nat} {l : List Word} (window : Window block t l) :
    Window block (t + 1) (l.set (t % 16) (scheduled block t)) where
  length := by rw [List.length_set, window.length]
  recent := fun s before near => by
    rw [getD_set _ (by rw [window.length]; omega)]
    by_cases same : s = t
    · rw [same, if_pos rfl]
    · rw [if_neg (by omega), window.recent s (by omega) (by omega)]
  raw := fun j after inside => by
    rw [getD_set _ (by rw [window.length]; omega), if_neg (by omega), window.raw j (by omega) inside]

private theorem blk0_eq {t : Nat} {l : List Word} (window : Window block t l) (first : t < 16) :
    blk0 l t = l.set (t % 16) (scheduled block t) := by
  have word : l.getD t 0 = block.getD (4 * t + 3) 0 ++ block.getD (4 * t + 2) 0 ++ block.getD (4 * t + 1) 0 ++
      block.getD (4 * t) 0 := window.raw t (Nat.le_refl t) first
  rw [blk0, word, swap_eq, scheduled_eq, if_pos first, Nat.mod_eq_of_lt first]
  rfl

private theorem blk_eq {t : Nat} {l : List Word} (window : Window block t l) (later : ¬ t < 16) :
    blk l t = l.set (t % 16) (scheduled block t) := by
  have back (distance : Nat) (close : 0 < distance ∧ distance ≤ 16) :
      l.getD ((t + (16 - distance)) % 16) 0 = scheduled block (t - distance) := by
    have same : (t + (16 - distance)) % 16 = (t - distance) % 16 := by omega
    rw [same, window.recent _ (by omega) (by omega)]
  have oldest : l.getD (t % 16) 0 = scheduled block (t - 16) := back 16 (by decide)
  rw [blk, rol_eq _ (by decide), back 3 (by decide), back 8 (by decide), back 14 (by decide), oldest,
    scheduled_eq t, if_neg later]

end Schedule

section Rounds

private theorem statementOf_operation (t : Nat) : (statementOf t).operation = operationOf t := by
  unfold statementOf
  split <;> rfl

private theorem statementOf_i (t : Nat) : (statementOf t).i = t := by
  unfold statementOf
  split <;> rfl

private theorem operationOf_eq_R0 (t : Nat) : operationOf t = .R0 ↔ t < 16 := by
  unfold operationOf
  split
  · next first => exact iff_of_true rfl first
  · next later =>
    refine iff_of_false ?_ later
    split <;> exact nofun

private theorem mix_eq (t : Nat) (w x y : Word) : (operationOf t).mix w x y = functionOf t w x y := by
  unfold operationOf functionOf
  split
  · next first =>
    rw [show t / 20 = 0 by omega]
    exact choice_eq w x y
  · split
    · exact choice_eq w x y
    · rfl
    · exact majority_eq w x y
    · rfl

private theorem constant_eq (t : Nat) : (operationOf t).constant = constantOf t := by
  unfold operationOf constantOf
  split
  · next first =>
    rw [show t / 20 = 0 by omega]
    rfl
  · split <;> rfl

theorem move_back (s : Sha1State) : move^[5] s = s := rfl

/-- A statement is its round under other names. -/
theorem statementOf_renames (w : Nat → Word) (t : Nat) :
    Function.Semiconj move^[t] ((statementOf t).vars (w t)) (round w t) := by
  intro s
  have sum (z f word k r : Word) : z + (f + word + k + r) = r + f + z + word + k := by ac_rfl
  rw [iterate_mod move_back]
  unfold round
  rw [← constant_eq]
  simp only [← mix_eq, ← rol_eq _ (show 5 < 32 by decide), ← rol_eq _ (show 30 < 32 by decide), ← sum]
  unfold statementOf
  rcases show t % 5 = 0 ∨ t % 5 = 1 ∨ t % 5 = 2 ∨ t % 5 = 3 ∨ t % 5 = 4 by omega with turn | turn | turn | turn | turn
  all_goals
    rw [turn]
    rfl

/-- The statements compute with the words of the schedule. -/
theorem statements_eq (block : Bytes) (state : Sha1State) (count : Nat) :
    ∃ l, Window block count l ∧
      (List.range count).foldl (fun work t => (statementOf t).run work)
        (state, (List.range 16).map fun i => wordAt block (4 * i)) =
        ((List.range count).foldl (fun vars t => (statementOf t).vars (scheduled block t) vars) state, l) := by
  induction count with
  | zero => exact ⟨_, window_zero, rfl⟩
  | succ t ih =>
      obtain ⟨l, window, same⟩ := ih
      refine ⟨_, window.set, ?_⟩
      have next : (if (statementOf t).operation = .R0 then blk0 l (statementOf t).i else blk l (statementOf t).i) =
          l.set (t % 16) (scheduled block t) := by
        rw [statementOf_operation, statementOf_i]
        by_cases first : t < 16
        · rw [if_pos ((operationOf_eq_R0 t).mpr first), blk0_eq window first]
        · rw [if_neg fun same => first ((operationOf_eq_R0 t).mp same), blk_eq window first]
      rw [List.range_succ (n := t), List.foldl_concat, List.foldl_concat, same, Statement.run]
      simp only [next]
      rw [statementOf_i, getD_set _ (by rw [window.length]; omega), if_pos rfl]

/-- The statements of `hash_sha1_hash` are the rounds of the block function. -/
theorem hashSha1Hash_eq (state : Sha1State) (buffer : Bytes) : hashSha1Hash state buffer = compress state buffer := by
  obtain ⟨l, _, same⟩ := statements_eq buffer state 80
  have vars := moving_eq_of_turns move_back (show 80 = 5 * 16 from rfl) (statementOf_renames (scheduled buffer)) state
  rw [hashSha1Hash, hashSha1Statements_eq, List.foldl_map]
  simp only [same]
  rw [compress, vars]

end Rounds

private theorem hashSha1Process_updates : Updates hashSha1Hash start hashSha1Process where
  takes {context message input len} held inside small := by
    have waits := index_eq held.low
    have low := count0_add len held.low
    have high := count1_add len held.low held.high
    refine takeIn_absorbs held waits inside small (decide_eq_decide.mpr ?_) low high
    show 63 < (((context.count0 >>> 3) &&& 63).toNat + len.toNat) % 4294967296 ↔ _
    omega
  wraps {context message input len} held large := by
    have waits := index_eq held.low
    exact takeIn_wraps (by omega) (by omega)

/-- The test of the loop that pads asks for the place of the length. -/
theorem and_504_eq {count0 : Word} {n : Nat} (low : count0.toNat = 8 * n % 4294967296) :
    count0 &&& 504 = 448 ↔ n % 64 = 56 := by
  have bits : count0 = BitVec.ofNat 32 n <<< 3 := by
    apply BitVec.eq_of_toNat_eq
    rw [low, BitVec.toNat_shiftLeft, BitVec.toNat_ofNat, Nat.shiftLeft_eq]
    omega
  have mask : (BitVec.ofNat 32 n &&& 63).toNat = n % 64 := by
    have low6 : (n % 4294967296) &&& 63 = n % 4294967296 % 64 := Nat.and_two_pow_sub_one_eq_mod _ 6
    rw [BitVec.toNat_and, BitVec.toNat_ofNat]
    refine low6.trans ?_
    omega
  have value : (count0 &&& 504).toNat = 8 * (n % 64) := by
    have moved : count0 &&& (504 : Word) = (BitVec.ofNat 32 n &&& 63) <<< 3 := by
      rw [bits, BitVec.shiftLeft_and_distrib]
      rfl
    rw [moved, BitVec.toNat_shiftLeft, mask, Nat.shiftLeft_eq]
    omega
  rw [← BitVec.toNat_inj, value]
  show 8 * (n % 64) = 448 ↔ n % 64 = 56
  omega

private theorem hashSha1Pad_eq {zeros fuel : Nat} {context : Context Sha1State} {message : Bytes}
    (held : Absorbs hashSha1Hash start context message) (exact' : zeros = (120 - message.length % 64) % 64)
    (enough : zeros < fuel) :
    ∃ after, hashSha1Pad fuel context = some after ∧
      Absorbs hashSha1Hash start after (message ++ List.replicate zeros 0) := by
  induction zeros generalizing fuel context message with
  | zero =>
      obtain ⟨fuel, rfl⟩ := Nat.exists_eq_succ_of_ne_zero (Nat.ne_of_gt enough)
      have ends : ¬ context.count0 &&& 504 ≠ 448 := not_not.mpr ((and_504_eq held.low).mpr (by omega))
      refine ⟨context, by rw [Nat.succ_eq_add_one, hashSha1Pad, if_neg ends], ?_⟩
      rwa [List.replicate_zero, List.append_nil]
  | succ zeros ih =>
      obtain ⟨fuel, rfl⟩ := Nat.exists_eq_succ_of_ne_zero (Nat.ne_of_gt (Nat.zero_lt_of_lt enough))
      have goes : context.count0 &&& 504 ≠ 448 := fun same => by
        have place := (and_504_eq held.low).mp same
        omega
      have one : ([0x00] : Bytes).length = 1 := rfl
      obtain ⟨between, returns, absorbs⟩ := hashSha1Process_updates.chunk [0x00] held (by omega)
      have longer : (message ++ [0x00] : Bytes).length = message.length + 1 := by
        rw [List.length_append, one]
      obtain ⟨after, pads, all⟩ := ih absorbs (by omega) (show zeros < fuel by omega)
      refine ⟨after, ?_, by rwa [List.append_assoc] at all⟩
      have returns : hashSha1Process context [0x00] 1 = some between := returns
      rw [Nat.succ_eq_add_one, hashSha1Pad, if_pos goes, returns]
      exact pads

/-- What is left of a context behind `hash_sha1_final`. -/
def wiped : Context Sha1State := { state := ⟨0, 0, 0, 0, 0⟩, count0 := 0, count1 := 0, buffer := List.replicate 64 0 }

private theorem hashSha1Final_eq {context : Context Sha1State} {message : Bytes}
    (held : Absorbs hashSha1Hash start context message) :
    hashSha1Final context = some (digest message, wiped) := by
  have finalcount : ((List.range 8).map fun i =>
      (((if i ≥ 4 then context.count0 else context.count1) >>> ((3 - i % 4) * 8)) &&& 255).setWidth 8) =
      (littleEndian 8 (8 * message.length)).reverse := by
    rw [← counts_eq held.low held.high]
    simp only [byteOf_eq]
    rfl
  have eight : (littleEndian 8 (8 * message.length)).reverse.length = 8 := by
    rw [List.length_reverse, littleEndian, List.length_map, List.length_range]
  have one : ([0x80] : Bytes).length = 1 := rfl
  obtain ⟨first, marks, marked⟩ := hashSha1Process_updates.chunk [0x80] held (by omega)
  have longer : (message ++ [0x80] : Bytes).length = message.length + 1 := by
    rw [List.length_append, one]
  obtain ⟨second, pads, waiting⟩ := hashSha1Pad_eq marked rfl (Nat.mod_lt _ (show 0 < 64 by decide))
  have padding : message ++ [0x80] ++ List.replicate ((120 - (message ++ [0x80] : Bytes).length % 64) % 64) 0 =
      padded message := by
    have zeros : (120 - (message.length + 1) % 64) % 64 = (119 - message.length % 64) % 64 := by omega
    rw [longer, zeros, padded, List.append_assoc]
    rfl
  rw [padding] at waiting
  obtain ⟨after, counts, absorbs⟩ :=
    hashSha1Process_updates.chunk (littleEndian 8 (8 * message.length)).reverse waiting (by omega)
  have function : hashSha1Hash = compress := funext fun state => funext fun block => hashSha1Hash_eq state block
  have state : after.state =
      absorbed 64 compress start (padded message ++ (littleEndian 8 (8 * message.length)).reverse) := by
    rw [← function]
    exact absorbs.state
  rw [eight] at counts
  have marks : hashSha1Process context [0x80] 1 = some first := marks
  have counts : hashSha1Process second (littleEndian 8 (8 * message.length)).reverse 8 = some after := counts
  rw [hashSha1Final, finalcount, digest]
  dsimp only [Option.bind_eq_bind]
  rw [marks, Option.bind_some, pads, Option.bind_some, counts, Option.bind_some, ← state]
  simp only [byteOf_eq]
  rfl

end Sha1

/-- The chunks of a message, one `hash_sha1_process` each, and `hash_sha1_final`. -/
def hashSha1Stream (context : Context Sha1State) (chunks : List Bytes) : Option (Bytes × Context Sha1State) := do
  let context ← updateAll hashSha1Process (hashSha1Init context) chunks
  hashSha1Final context

private theorem hashSha1Init_absorbs {context : Context Sha1State} (full : context.buffer.length = 64) :
    Absorbs hashSha1Hash Sha1.start (hashSha1Init context) [] where
  state := rfl
  low := rfl
  high := rfl
  full := full
  buffer := rfl

theorem hashSha1Stream_of_fits {context : Context Sha1State} {chunks : List Bytes}
    (full : context.buffer.length = 64) (fits : Fits 0 chunks) :
    hashSha1Stream context chunks = some (Sha1.digest chunks.flatten, Sha1.wiped) := by
  obtain ⟨after, returns, absorbs⟩ := hashSha1Process_updates.all (hashSha1Init_absorbs full) fits
  rw [hashSha1Stream, returns]
  exact hashSha1Final_eq absorbs

theorem hashSha1Stream_of_not_fits {context : Context Sha1State} {chunks : List Bytes}
    (full : context.buffer.length = 64) (words : ∀ chunk ∈ chunks, chunk.length < 4294967296)
    (overflows : ¬ Fits 0 chunks) : hashSha1Stream context chunks = none := by
  rw [hashSha1Stream, hashSha1Process_updates.all_of_not_fits (hashSha1Init_absorbs full) words overflows]
  rfl

/-- The chunks of a message give its digest, wherever it was cut and whatever was in the context, and leave a context
that is wiped, unless a chunk and the bytes that wait for it are more than a word can count: `hash_sha1_process` then
takes the chunk for a short one and copies past the buffer. -/
theorem hashSha1Stream_digest {context : Context Sha1State} {chunks : List Bytes} (full : context.buffer.length = 64)
    (words : ∀ chunk ∈ chunks, chunk.length < 4294967296) :
    hashSha1Stream context chunks = if Fits 0 chunks then some (Sha1.digest chunks.flatten, Sha1.wiped) else none := by
  split
  · next fits => exact hashSha1Stream_of_fits full fits
  · next overflows => exact hashSha1Stream_of_not_fits full words overflows

theorem hashSha1Stream_abc :
    hashSha1Stream ⟨⟨1, 2, 3, 4, 5⟩, 6, 7, List.replicate 64 8⟩ [[97], [98, 99]] =
      if Fits 0 [[97], [98, 99]] then some (Sha1.digest [97, 98, 99], Sha1.wiped) else none :=
  hashSha1Stream_digest (by decide) (by decide)

/-- The test vector of "abc". -/
example : Sha1.digest [97, 98, 99] =
    [0xa9, 0x99, 0x3e, 0x36, 0x47, 0x06, 0x81, 0x6a, 0xba, 0x3e, 0x25, 0x71, 0x78, 0x50, 0xc2, 0x6c, 0x9c, 0xd0, 0xd8,
      0x9d] := by
  decide +kernel

end GbfLibrary.Hash
