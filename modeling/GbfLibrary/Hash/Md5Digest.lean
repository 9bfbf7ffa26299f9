import GbfLibrary.Hash.Md5

/-!
# The digest of a message under MD5

The 64 statements as rounds on four registers that move on, and the digest that the chunks of a message have,
wherever it was cut.
-/

set_option autoImplicit false

namespace GbfLibrary.Hash

open Memory Stdlbs Streams Md5

namespace Md5

/-- The word of the block that a round takes. -/
def wordOf (i : Nat) : Nat :=
  match i / 16 with
  | 0 => i
  | 1 => (5 * i + 1) % 16
  | 2 => (3 * i + 5) % 16
  | _ => 7 * i % 16

def basicOf (i : Nat) : Basic :=
  match i / 16 with
  | 0 => .F
  | 1 => .G
  | 2 => .H
  | _ => .I

def shiftOf (i : Nat) : Nat :=
  match i / 16, i % 4 with
  | 0, 0 => 7
  | 0, 1 => 12
  | 0, 2 => 17
  | 0, _ => 22
  | 1, 0 => 5
  | 1, 1 => 9
  | 1, 2 => 14
  | 1, _ => 20
  | 2, 0 => 4
  | 2, 1 => 11
  | 2, 2 => 16
  | 2, _ => 23
  | _, 0 => 6
  | _, 1 => 10
  | _, 2 => 15
  | _, _ => 21

/-- The integer parts of `2 ^ 32 * |sin (i + 1)|`. -/
def constants : List Word :=
  [0xd76aa478, 0xe8c7b756, 0x242070db, 0xc1bdceee, 0xf57c0faf, 0x4787c62a, 0xa8304613, 0xfd469501,
   0x698098d8, 0x8b44f7af, 0xffff5bb1, 0x895cd7be, 0x6b901122, 0xfd987193, 0xa679438e, 0x49b40821,
   0xf61e2562, 0xc040b340, 0x265e5a51, 0xe9b6c7aa, 0xd62f105d, 0x02441453, 0xd8a1e681, 0xe7d3fbc8,
   0x21e1cde6, 0xc33707d6, 0xf4d50d87, 0x455a14ed, 0xa9e3e905, 0xfcefa3f8, 0x676f02d9, 0x8d2a4c8a,
   0xfffa3942, 0x8771f681, 0x6d9d6122, 0xfde5380c, 0xa4beea44, 0x4bdecfa9, 0xf6bb4b60, 0xbebfbc70,
   0x289b7ec6, 0xeaa127fa, 0xd4ef3085, 0x04881d05, 0xd9d4d039, 0xe6db99e5, 0x1fa27cf8, 0xc4ac5665,
   0xf4292244, 0x432aff97, 0xab9423a7, 0xfc93a039, 0x655b59c3, 0x8f0ccc92, 0xffeff47d, 0x85845dd1,
   0x6fa87e4f, 0xfe2ce6e0, 0xa3014314, 0x4e0811a1, 0xf7537e82, 0xbd3af235, 0x2ad7d2bb, 0xeb86d391]

/-- A round before its registers move. -/
def round (x : List Word) (i : Nat) (s : Md5State) : Md5State :=
  { s with a :=
      (s.a + ((basicOf i).apply s.b s.c s.d + x.getD (wordOf i) 0 + constants.getD i 0)).rotateLeft (shiftOf i) + s.b }

def move (s : Md5State) : Md5State := ⟨s.d, s.a, s.b, s.c⟩

/-- The block function of MD5. -/
def compress (state : Md5State) (block : Bytes) : Md5State :=
  let x := (List.range 16).map fun i => wordAt block (4 * i)
  let vars := moving move (round x) 64 state
  ⟨state.a + vars.a, state.b + vars.b, state.c + vars.c, state.d + vars.d⟩

def start : Md5State := ⟨0x67452301, 0xefcdab89, 0x98badcfe, 0x10325476⟩

/-- The digest of a message under MD5: its blocks are chained, the last of them with padding and the number of the
bits. -/
def digest (message : Bytes) : Bytes :=
  let last := absorbed 64 compress start (padded message ++ littleEndian 8 (8 * message.length))
  [last.a, last.b, last.c, last.d].flatMap ofWord

/-- The statement of a round, the registers under their names there. -/
def statementOf (i : Nat) : Statement :=
  let line := Statement.mk (basicOf i)
  match i % 4 with
  | 0 => line .a .b .c .d (wordOf i) (shiftOf i) (constants.getD i 0)
  | 1 => line .d .a .b .c (wordOf i) (shiftOf i) (constants.getD i 0)
  | 2 => line .c .d .a .b (wordOf i) (shiftOf i) (constants.getD i 0)
  | _ => line .b .c .d .a (wordOf i) (shiftOf i) (constants.getD i 0)

private theorem hashMd5Statements_eq : hashMd5Statements = (List.range 64).map statementOf := by
  decide +kernel

private theorem rotateLeft_eq (x : Word) {n : Nat} (small : n < 32) : rotateLeft x n = x.rotateLeft n := by
  rw [rotateLeft, BitVec.rotateLeft_def, Nat.mod_eq_of_lt small]

private theorem shiftOf_lt (i : Nat) : shiftOf i < 32 := by
  unfold shiftOf
  split <;> decide

theorem move_back (s : Md5State) : move^[4] s = s := rfl

/-- A statement is its round under other names. -/
theorem statementOf_renames (x : List Word) (i : Nat) :
    Function.Semiconj move^[i] ((statementOf i).run x) (round x i) := by
  intro s
  rw [iterate_mod move_back]
  have small := shiftOf_lt i
  unfold statementOf Statement.run round
  rcases show i % 4 = 0 ∨ i % 4 = 1 ∨ i % 4 = 2 ∨ i % 4 = 3 by omega with turn | turn | turn | turn
  all_goals
    rw [turn, ← rotateLeft_eq _ small]
    rfl

private theorem wordOfBytes_eq (c0 c1 c2 c3 : Byte) :
    c0.setWidth 32 ||| (c1.setWidth 32 <<< 8) ||| (c2.setWidth 32 <<< 16) ||| (c3.setWidth 32 <<< 24) =
      (c3 ++ c2 ++ c1 ++ c0 : Word) := by
  apply BitVec.eq_of_getLsbD_eq
  intro j small
  have beyond (c : Byte) {k : Nat} (large : 8 ≤ k) : c.getLsbD k = false := BitVec.getLsbD_of_ge c k large
  simp only [BitVec.getLsbD_append, BitVec.getLsbD_or, BitVec.getLsbD_shiftLeft, BitVec.getLsbD_setWidth]
  grind

private theorem hashMd5Decode_eq (block : Bytes) (count : Nat) :
    hashMd5Decode block (4 * count) = (List.range count).map fun i => wordAt block (4 * i) := by
  rw [hashMd5Decode, Nat.mul_div_cancel_left _ (by decide)]
  exact List.map_congr_left fun i _ => wordOfBytes_eq _ _ _ _

theorem hashMd5Encode_eq (words : List Word) : hashMd5Encode words (4 * words.length) = words.flatMap ofWord := by
  have all : (List.range words.length).map (fun i => words.getD i 0) = words := by
    refine List.ext_getElem (by rw [List.length_map, List.length_range]) fun i _ inside => ?_
    rw [List.getElem_map, List.getElem_range, List.getD_eq_getElem?_getD, List.getElem?_eq_getElem inside,
      Option.getD_some]
  have bytes (word : Word) : [(word &&& 0xff).setWidth 8, ((word >>> 8) &&& 0xff).setWidth 8,
      ((word >>> 16) &&& 0xff).setWidth 8, ((word >>> 24) &&& 0xff).setWidth 8] = ofWord word := by
    rw [byteOf_eq, byteOf_eq, byteOf_eq, ← BitVec.ushiftRight_zero word, byteOf_eq, BitVec.ushiftRight_zero]
    rfl
  rw [hashMd5Encode, Nat.mul_div_cancel_left _ (by decide)]
  simp only [bytes]
  conv_rhs => rw [← all, List.flatMap_map]

/-- The statements of `hash_md5_transform` are the rounds of the block function. -/
theorem hashMd5Transform_eq (state : Md5State) (block : Bytes) : hashMd5Transform state block = compress state block := by
  have vars (x : List Word) : hashMd5Statements.foldl (fun vars line => line.run x vars) state =
      moving move (round x) 64 state := by
    rw [hashMd5Statements_eq, List.foldl_map]
    exact (moving_eq_of_turns move_back (show 64 = 4 * 16 from rfl) (statementOf_renames x) state).symm
  have words : hashMd5Decode block 64 = (List.range 16).map fun i => wordAt block (4 * i) := hashMd5Decode_eq block 16
  rw [hashMd5Transform, compress, words]
  simp only [vars]

private theorem hashMd5Update_updates : Updates hashMd5Transform start hashMd5Update where
  takes {context message input len} held inside small := by
    have waits := index_eq held.low
    have low := count0_add len held.low
    have high := count1_add len held.low held.high
    refine takeIn_absorbs held waits inside small (decide_eq_decide.mpr ?_) low ?_
    · have part : (64 - ((context.count0 >>> 3) &&& 0x3F) : Word).toNat = 64 - message.length % 64 := by
        show (4294967296 - ((context.count0 >>> 3) &&& 0x3F : Word).toNat + 64) % 4294967296 = _
        omega
      show (64 - ((context.count0 >>> 3) &&& 0x3F) : Word).toNat ≤ len.toNat ↔ _
      omega
    · rw [← high]
      simp only [add_lt_comm]
  wraps {context message input len} held large := by
    have waits := index_eq held.low
    exact takeIn_wraps (by omega) (by omega)

private theorem PADDING_eq {count : Nat} (small : count < 64) :
    PADDING.take (count + 1) = 0x80 :: List.replicate count 0 := by
  rw [PADDING, List.take_succ_cons, List.take_replicate, Nat.min_eq_left (by omega)]

/-- What is left of a context behind `hash_md5_final`. -/
def wiped : Context Md5State := { state := ⟨0, 0, 0, 0⟩, count0 := 0, count1 := 0, buffer := List.replicate 64 0 }

private theorem hashMd5Final_eq {context : Context Md5State} {message : Bytes}
    (held : Absorbs hashMd5Transform start context message) :
    hashMd5Final context = some (digest message, wiped) := by
  have waits := index_eq held.low
  rw [hashMd5Final]
  generalize (context.count0 >>> 3) &&& 0x3f = index at waits ⊢
  generalize padLen : (if index < 56 then 56 - index else 120 - index) = len
  have length : len.toNat = (119 - message.length % 64) % 64 + 1 := by
    rw [← padLen]
    split
    · next below =>
      have below : index.toNat < 56 := below
      show (4294967296 - index.toNat + 56) % 4294967296 = _
      omega
    · next above =>
      have above : ¬ index.toNat < 56 := above
      show (4294967296 - index.toNat + 120) % 4294967296 = _
      omega
  have room : PADDING.length = 64 := rfl
  have source : len.toNat ≤ PADDING.length := by omega
  obtain ⟨between, pads, waiting⟩ := hashMd5Update_updates.takes held source (by omega)
  rw [length, PADDING_eq (Nat.mod_lt _ (by decide))] at waiting
  have bits : hashMd5Encode [context.count0, context.count1] 8 = littleEndian 8 (8 * message.length) := by
    rw [← counts_eq held.low held.high]
    exact hashMd5Encode_eq [context.count0, context.count1]
  have eight : (littleEndian 8 (8 * message.length)).length = 8 := by
    rw [littleEndian, List.length_map, List.length_range]
  obtain ⟨after, counts, absorbs⟩ := hashMd5Update_updates.chunk (littleEndian 8 (8 * message.length))
    waiting (by omega)
  have function : hashMd5Transform = compress := funext fun state => funext fun block => hashMd5Transform_eq state block
  have state : after.state = absorbed 64 compress start (padded message ++ littleEndian 8 (8 * message.length)) := by
    rw [← function]
    exact absorbs.state
  have last := hashMd5Encode_eq [after.state.a, after.state.b, after.state.c, after.state.d]
  rw [eight] at counts
  have counts : hashMd5Update between (littleEndian 8 (8 * message.length)) 8 = some after := counts
  rw [digest, bits]
  dsimp only [Option.bind_eq_bind]
  rw [pads, Option.bind_some, counts, Option.bind_some, ← state, ← last]
  rfl

end Md5

/-- The chunks of a message, one `hash_md5_update` each, and `hash_md5_final`. -/
def hashMd5Stream (context : Context Md5State) (chunks : List Bytes) : Option (Bytes × Context Md5State) := do
  let context ← updateAll hashMd5Update (hashMd5Init context) chunks
  hashMd5Final context

private theorem hashMd5Init_absorbs {context : Context Md5State} (full : context.buffer.length = 64) :
    Absorbs hashMd5Transform Md5.start (hashMd5Init context) [] where
  state := rfl
  low := rfl
  high := rfl
  full := full
  buffer := rfl

theorem hashMd5Stream_of_fits {context : Context Md5State} {chunks : List Bytes}
    (full : context.buffer.length = 64) (fits : Fits 0 chunks) :
    hashMd5Stream context chunks = some (Md5.digest chunks.flatten, Md5.wiped) := by
  obtain ⟨after, returns, absorbs⟩ := hashMd5Update_updates.all (hashMd5Init_absorbs full) fits
  rw [hashMd5Stream, returns]
  exact hashMd5Final_eq absorbs

theorem hashMd5Stream_of_not_fits {context : Context Md5State} {chunks : List Bytes}
    (full : context.buffer.length = 64) (words : ∀ chunk ∈ chunks, chunk.length < 4294967296)
    (overflows : ¬ Fits 0 chunks) : hashMd5Stream context chunks = none := by
  rw [hashMd5Stream, hashMd5Update_updates.all_of_not_fits (hashMd5Init_absorbs full) words overflows]
  rfl

/-- The chunks of a message give its digest, wherever it was cut and whatever was in the context, and leave a context
that is wiped, unless a chunk and the bytes that wait for it are more than a word can count: from such a chunk
`hash_md5_update` does not return. -/
theorem hashMd5Stream_digest {context : Context Md5State} {chunks : List Bytes} (full : context.buffer.length = 64)
    (words : ∀ chunk ∈ chunks, chunk.length < 4294967296) :
    hashMd5Stream context chunks = if Fits 0 chunks then some (Md5.digest chunks.flatten, Md5.wiped) else none := by
  split
  · next fits => exact hashMd5Stream_of_fits full fits
  · next overflows => exact hashMd5Stream_of_not_fits full words overflows

theorem hashMd5Stream_abc :
    hashMd5Stream ⟨⟨1, 2, 3, 4⟩, 5, 6, List.replicate 64 7⟩ [[97], [98, 99]] =
      if Fits 0 [[97], [98, 99]] then some (Md5.digest [97, 98, 99], Md5.wiped) else none :=
  hashMd5Stream_digest (by decide) (by decide)

/-- The digest of a string is that of its bytes, as many as `lbs_strlen` can count. -/
theorem hashMd5String_eq {context : Context Md5State} {text : Bytes} (full : context.buffer.length = 64)
    (plain : 0 ∉ text) (rest : Bytes) :
    hashMd5String context (text ++ 0 :: rest) = some (Md5.digest (text.take (text.length % 4294967296))) := by
  have length : (BitVec.ofNat 32 text.length).toNat = text.length % 4294967296 := BitVec.toNat_ofNat _ _
  have below := Nat.mod_le text.length 4294967296
  have small := Nat.mod_lt text.length (show 0 < 4294967296 by decide)
  have inside : (BitVec.ofNat 32 text.length).toNat ≤ (text ++ 0 :: rest).length := by
    rw [length, List.length_append]
    omega
  obtain ⟨after, returns, absorbs⟩ := hashMd5Update_updates.takes (hashMd5Init_absorbs full) inside
    (by rw [length]; simpa using small)
  rw [length, List.nil_append, List.take_append_of_le_length below] at absorbs
  rw [hashMd5String, lbsStrlen_eq plain]
  dsimp only [Option.bind_eq_bind, Option.bind_some]
  rw [returns, Option.bind_some, hashMd5Final_eq absorbs]
  rfl

/-- The test vector of "abc". -/
example : Md5.digest [97, 98, 99] =
    [0x90, 0x01, 0x50, 0x98, 0x3c, 0xd2, 0x4f, 0xb0, 0xd6, 0x96, 0x3f, 0x7d, 0x28, 0xe1, 0x7f, 0x72] := by
  decide +kernel

end GbfLibrary.Hash
