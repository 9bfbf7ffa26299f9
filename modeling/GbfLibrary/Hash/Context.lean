import GbfLibrary.Stdlbs.Copies
import GbfLibrary.Streams.Blocks

/-!
# Hash contexts

What `MD5_CTX` and `SHA1_CTX` of `hash.h` have in common, and the loop of `hash_md5_update` and `hash_sha1_process`
through the whole blocks of their input. An `unsigned long` has 32 bits, as `CHAR64LONG16` of `sha1.c` needs it.
-/

set_option autoImplicit false

namespace GbfLibrary.Hash

open Memory Stdlbs Streams

abbrev Word := BitVec 32

/-- `MD5_CTX` and `SHA1_CTX`: they differ in the registers of `state`. -/
structure Context (σ : Type) where
  state : σ
  count0 : Word
  count1 : Word
  buffer : Bytes
  deriving DecidableEq

variable {σ : Type}

/-- The loop `for (; i + 63 < len; i += 64)`: the state and `i` after it. Without `fuel` it has not ended. -/
def blocksLoop (transform : σ → Bytes → σ) (input : Bytes) (len : Word) : Nat → σ → Word → Option (σ × Word)
  | 0, _, _ => none
  | fuel + 1, state, i =>
      if i + 63 < len then
        match read input i.toNat 64 with
        | none => none
        | some block => blocksLoop transform input len fuel (transform state block) (i + 64)
      else some (state, i)

/-- What both update functions do with `len` bytes of the input once the bits are counted: `index` bytes wait in the
buffer. -/
def takeIn (transform : σ → Bytes → σ) (fills : Bool) (index : Word) (input : Bytes) (len : Word)
    (context : Context σ) : Option (Context σ) :=
  if fills then do
    let partLen := 64 - index
    let buffer ← lbsMemcpy context.buffer index.toNat input 0 partLen.toInt
    let (state, i) ←
      blocksLoop transform input len (input.length / 64 + 1) (transform context.state buffer) partLen
    let buffer ← lbsMemcpy buffer 0 input i.toNat (len - i).toInt
    return { context with state, buffer }
  else do
    let buffer ← lbsMemcpy context.buffer index.toNat input 0 len.toInt
    return { context with buffer }

/-- What a context stands for: the whole blocks of a message are in the registers, the rest is in the buffer, the
number of its bits in `count`. -/
structure Absorbs (transform : σ → Bytes → σ) (start : σ) (context : Context σ) (message : Bytes) : Prop where
  state : context.state = absorbed 64 transform start message
  low : context.count0.toNat = 8 * message.length % 4294967296
  high : context.count1.toNat = 8 * message.length / 4294967296 % 4294967296
  full : context.buffer.length = 64
  buffer : context.buffer.take (message.length % 64) = left 64 message

/-- An update function takes in what fits, and never returns from more. -/
structure Updates (transform : σ → Bytes → σ) (start : σ)
    (update : Context σ → Bytes → Word → Option (Context σ)) : Prop where
  takes : ∀ {context message input len}, Absorbs transform start context message → len.toNat ≤ input.length →
    message.length % 64 + len.toNat < 4294967296 →
    ∃ after, update context input len = some after ∧ Absorbs transform start after (message ++ input.take len.toNat)
  wraps : ∀ {context message input} {len : Word}, Absorbs transform start context message →
    4294967296 ≤ message.length % 64 + len.toNat → update context input len = none

/-- The chunks of a message, one update each. -/
def updateAll (update : Context σ → Bytes → Word → Option (Context σ)) (context : Context σ) (chunks : List Bytes) :
    Option (Context σ) :=
  chunks.foldlM (fun context chunk => update context chunk (BitVec.ofNat 32 chunk.length)) context

/-- At no chunk do the bytes that wait in the buffer and its length together exceed a word. -/
def Fits : Nat → List Bytes → Prop
  | _, [] => True
  | before, chunk :: chunks => before % 64 + chunk.length < 4294967296 ∧ Fits (before + chunk.length) chunks

instance decidableFits : (before : Nat) → (chunks : List Bytes) → Decidable (Fits before chunks)
  | _, [] => .isTrue trivial
  | before, chunk :: chunks =>
      have : Decidable (Fits (before + chunk.length) chunks) := decidableFits _ chunks
      inferInstanceAs (Decidable (_ ∧ _))

/-- The bytes of a number, the lowest first. -/
def littleEndian (count n : Nat) : Bytes := (List.range count).map fun i => BitVec.ofNat 8 (n / 256 ^ i)

/-- A message with a set bit behind it, up to eight bytes before the end of a block. -/
def padded (message : Bytes) : Bytes := message ++ 0x80 :: List.replicate ((119 - message.length % 64) % 64) 0

section Loop

variable {transform : σ → Bytes → σ} {input : Bytes} {len : Word}

private theorem blocksLoop_returns {count fuel : Nat} {i : Word} (state : σ) (inside : len.toNat ≤ input.length)
    (blocks : i.toNat + 64 * count ≤ len.toNat) (last : len.toNat < i.toNat + 64 * count + 64)
    (small : i.toNat + 64 * count + 63 < 4294967296) (enough : count < fuel) :
    blocksLoop transform input len fuel state i =
      some (chain 64 transform count state (input.drop i.toNat), i + BitVec.ofNat 32 (64 * count)) := by
  induction count generalizing fuel state i with
  | zero =>
      obtain ⟨fuel, rfl⟩ := Nat.exists_eq_succ_of_ne_zero (Nat.ne_of_gt enough)
      have ends : ¬ i + 63 < len := by
        show ¬ (i.toNat + 63) % 4294967296 < len.toNat
        omega
      have stays : i + BitVec.ofNat 32 (64 * 0) = i := BitVec.add_zero i
      rw [Nat.succ_eq_add_one, blocksLoop, if_neg ends, chain_zero, stays]
  | succ count ih =>
      obtain ⟨fuel, rfl⟩ := Nat.exists_eq_succ_of_ne_zero (Nat.ne_of_gt (Nat.zero_lt_of_lt enough))
      have goes : i + 63 < len := by
        show (i.toNat + 63) % 4294967296 < len.toNat
        omega
      have next : (i + 64).toNat = i.toNat + 64 := by
        show (i.toNat + 64) % 4294967296 = i.toNat + 64
        omega
      have sum : i + 64 + BitVec.ofNat 32 (64 * count) = i + BitVec.ofNat 32 (64 * (count + 1)) := by
        rw [Nat.mul_succ, Nat.add_comm (64 * count), BitVec.ofNat_add, ← BitVec.add_assoc]
        rfl
      rw [Nat.succ_eq_add_one, blocksLoop, if_pos goes, read_nat (by omega)]
      dsimp only
      rw [ih _ (by omega) (by omega) (by omega) (by omega), next, sum, chain_succ, List.drop_drop]

/-- An `i` that is no multiple of the block's size never gets past a `len` so large. -/
theorem blocksLoop_wraps (fuel : Nat) {i : Word} (state : σ) (odd : 0 < i.toNat % 64)
    (large : 4294967232 + i.toNat % 64 ≤ len.toNat) : blocksLoop transform input len fuel state i = none := by
  induction fuel generalizing state i with
  | zero => rfl
  | succ fuel ih =>
      have goes : i + 63 < len := by
        show (i.toNat + 63) % 4294967296 < len.toNat
        omega
      have same : (i + 64).toNat % 64 = i.toNat % 64 := by
        show (i.toNat + 64) % 4294967296 % 64 = i.toNat % 64
        omega
      rw [blocksLoop, if_pos goes]
      split
      · rfl
      · exact ih _ (by rwa [same]) (by rwa [same])

end Loop

section Counts

variable {count0 count1 : Word} {n : Nat}

theorem index_eq (low : count0.toNat = 8 * n % 4294967296) : ((count0 >>> 3) &&& 0x3F).toNat = n % 64 := by
  have mask : (8 * n % 4294967296 / 2 ^ 3) &&& 63 = 8 * n % 4294967296 / 2 ^ 3 % 64 :=
    Nat.and_two_pow_sub_one_eq_mod _ 6
  rw [BitVec.toNat_and, BitVec.toNat_ushiftRight, Nat.shiftRight_eq_div_pow, low]
  refine mask.trans ?_
  omega

theorem count0_add (len : Word) (low : count0.toNat = 8 * n % 4294967296) :
    (count0 + (len <<< 3)).toNat = 8 * (n + len.toNat) % 4294967296 := by
  rw [BitVec.toNat_add, BitVec.toNat_shiftLeft, Nat.shiftLeft_eq, low]
  omega

/-- The carry into `count[1]`, tested against the old `count[0]`. -/
theorem count1_add (len : Word) (low : count0.toNat = 8 * n % 4294967296)
    (high : count1.toNat = 8 * n / 4294967296 % 4294967296) :
    ((if count0 + (len <<< 3) < count0 then count1 + 1 else count1) + (len >>> 29)).toNat =
      8 * (n + len.toNat) / 4294967296 % 4294967296 := by
  have new := count0_add len low
  have bound := len.isLt
  rw [BitVec.toNat_add, BitVec.toNat_ushiftRight, Nat.shiftRight_eq_div_pow]
  split
  · next carry =>
    rw [BitVec.lt_def, new, low] at carry
    have one : (count1 + 1).toNat = (count1.toNat + 1) % 4294967296 := rfl
    rw [one, high]
    omega
  · next carry =>
    rw [BitVec.lt_def, new, low] at carry
    rw [high]
    omega

/-- Either summand tells of the carry. -/
theorem add_lt_comm (x y : Word) : x + y < y ↔ x + y < x := by
  have left := x.isLt
  have right := y.isLt
  rw [BitVec.lt_def, BitVec.lt_def, BitVec.toNat_add]
  omega

end Counts

section Absorbs

variable {transform : σ → Bytes → σ} {start : σ} {context : Context σ} {message chunk : Bytes} {count0 count1 : Word}

/-- A chunk that fits into the buffer. -/
theorem Absorbs.short (held : Absorbs transform start context message)
    (fits : message.length % 64 + chunk.length < 64)
    (low : count0.toNat = 8 * (message.length + chunk.length) % 4294967296)
    (high : count1.toNat = 8 * (message.length + chunk.length) / 4294967296 % 4294967296) :
    Absorbs transform start
      { state := context.state, count0, count1, buffer := overwrite context.buffer (message.length % 64) chunk }
      (message ++ chunk) where
  state := by rw [held.state, absorbed_append_short fits]
  low := by rw [low, List.length_append]
  high := by rw [high, List.length_append]
  full := by rw [length_overwrite (by rw [held.full]; omega), held.full]
  buffer := by
    have total : (message ++ chunk).length % 64 = message.length % 64 + chunk.length := by
      rw [List.length_append]
      omega
    rw [total, take_overwrite (by rw [held.full]; omega), held.buffer, left_append_short fits]

/-- A chunk that fills the buffer: what waits in it, the whole blocks, and what is left. -/
theorem Absorbs.long (held : Absorbs transform start context message) {part blocks : Nat} {first rest : Bytes}
    (fills : message.length % 64 + part = 64) (enough : part ≤ chunk.length)
    (count : (chunk.length - part) / 64 = blocks)
    (buffer : overwrite context.buffer (message.length % 64) (chunk.take part) = first)
    (behind : (chunk.drop part).drop (blocks * 64) = rest)
    (low : count0.toNat = 8 * (message.length + chunk.length) % 4294967296)
    (high : count1.toNat = 8 * (message.length + chunk.length) / 4294967296 % 4294967296) :
    Absorbs transform start
      { state := chain 64 transform blocks (transform context.state first) (chunk.drop part), count0, count1,
        buffer := overwrite first 0 rest }
      (message ++ chunk) := by
  have taken : (chunk.take part).length = part := List.length_take_of_le enough
  have whole : message.length % 64 + (chunk.take part).length = context.buffer.length := by
    rw [taken, held.full, fills]
  have block : first = left 64 message ++ chunk.take part := by
    rw [← buffer, overwrite_eq_append whole, held.buffer]
  have length : first.length = 64 := by
    rw [← buffer, length_overwrite (Nat.le_of_eq whole), held.full]
  have waits : left 64 (message ++ chunk) = rest := by
    rw [left_append_long (by decide) fills enough, count, behind]
  have remains : rest.length = (message ++ chunk).length % 64 := by
    rw [← waits, length_left]
  have below := Nat.mod_lt (message ++ chunk).length (show 0 < 64 by decide)
  exact {
    state := by rw [held.state, absorbed_append_long (by decide) fills enough, count, block]
    low := by rw [low, List.length_append]
    high := by rw [high, List.length_append]
    full := by rw [length_overwrite (by omega), length]
    buffer := by
      have inside : (overwrite first 0 rest).take (0 + rest.length) = first.take 0 ++ rest :=
        take_overwrite (Nat.zero_le _)
      rw [Nat.zero_add, List.take_zero, List.nil_append, remains] at inside
      rw [inside, waits] }

private theorem toInt_of_small {x : Word} (small : x.toNat ≤ 64) : x.toInt = (x.toNat : Int) :=
  BitVec.toInt_eq_toNat_of_lt (by omega)

/-- The next `len` bytes are taken in, wherever the buffer stands. -/
theorem takeIn_absorbs (held : Absorbs transform start context message) {fills : Bool} {index len : Word}
    {input : Bytes} (waits : index.toNat = message.length % 64) (inside : len.toNat ≤ input.length)
    (small : message.length % 64 + len.toNat < 4294967296)
    (filled : fills = decide (64 ≤ message.length % 64 + len.toNat))
    (low : count0.toNat = 8 * (message.length + len.toNat) % 4294967296)
    (high : count1.toNat = 8 * (message.length + len.toNat) / 4294967296 % 4294967296) :
    ∃ after, takeIn transform fills index input len { context with count0, count1 } = some after ∧
      Absorbs transform start after (message ++ input.take len.toNat) := by
  have taken : (input.take len.toNat).length = len.toNat := List.length_take_of_le inside
  rw [takeIn, filled, waits]
  by_cases long : 64 ≤ message.length % 64 + len.toNat
  · have part : (64 - index : Word).toNat = 64 - message.length % 64 := by
      show (4294967296 - index.toNat + 64) % 4294967296 = 64 - message.length % 64
      omega
    generalize (64 - index : Word) = i at part ⊢
    have source : 0 + i.toNat ≤ input.length := by omega
    have room : message.length % 64 + i.toNat ≤ context.buffer.length := by
      rw [held.full]
      omega
    have first := lbsMemcpy_eq source room
    obtain ⟨blocks, count⟩ : ∃ blocks, (len.toNat - i.toNat) / 64 = blocks := ⟨_, rfl⟩
    have loop (state : σ) : blocksLoop transform input len (input.length / 64 + 1) state i =
        some (chain 64 transform blocks state (input.drop i.toNat), i + BitVec.ofNat 32 (64 * blocks)) :=
      blocksLoop_returns state inside (by omega) (by omega) (by omega) (by omega)
    have last : (i + BitVec.ofNat 32 (64 * blocks)).toNat = i.toNat + 64 * blocks := by
      rw [BitVec.toNat_add, BitVec.toNat_ofNat]
      omega
    have remains : (len - (i + BitVec.ofNat 32 (64 * blocks))).toNat = len.toNat - (i.toNat + 64 * blocks) := by
      rw [BitVec.toNat_sub, last]
      omega
    have front : input.take i.toNat = (input.take len.toNat).take i.toNat := by
      rw [List.take_take, Nat.min_eq_left (by omega)]
    rw [List.drop_zero, front] at first
    generalize buffer : overwrite context.buffer (message.length % 64) ((input.take len.toNat).take i.toNat) = block
      at first
    have length : block.length = 64 := by
      rw [← buffer, length_overwrite (by rw [held.full, ← front, List.length_take]; omega), held.full]
    have source' : i.toNat + 64 * blocks + (len.toNat - (i.toNat + 64 * blocks)) ≤ input.length := by omega
    have room' : 0 + (len.toNat - (i.toNat + 64 * blocks)) ≤ block.length := by omega
    have behind := lbsMemcpy_eq source' room'
    have whole : ((input.take len.toNat).length - i.toNat) / 64 = blocks := by rw [taken, count]
    refine ⟨_, ?_, held.long (by omega) (by omega) whole buffer rfl (by rw [taken]; exact low)
      (by rw [taken]; exact high)⟩
    have tail : (input.drop (i.toNat + 64 * blocks)).take (len.toNat - (i.toNat + 64 * blocks)) =
        ((input.take len.toNat).drop i.toNat).drop (blocks * 64) := by
      rw [List.drop_drop, List.drop_take, Nat.mul_comm]
    have middle : chain 64 transform blocks (transform context.state block) (input.drop i.toNat) =
        chain 64 transform blocks (transform context.state block) ((input.take len.toNat).drop i.toNat) := by
      rw [List.drop_take, chain_take (by omega)]
    rw [if_pos (decide_eq_true long)]
    dsimp only
    rw [toInt_of_small (by omega), first]
    dsimp only [Option.bind_eq_bind, Option.bind_some]
    rw [loop]
    dsimp only [Option.bind_some]
    rw [last, toInt_of_small (by omega), remains, behind, tail, middle]
    rfl
  · have source : 0 + len.toNat ≤ input.length := by omega
    have room : message.length % 64 + len.toNat ≤ context.buffer.length := by
      rw [held.full]
      omega
    have fits := lbsMemcpy_eq source room
    have short : message.length % 64 + (input.take len.toNat).length < 64 := by omega
    refine ⟨_, ?_, held.short short (by rw [taken]; exact low) (by rw [taken]; exact high)⟩
    rw [if_neg (by simpa using long)]
    dsimp only
    rw [toInt_of_small (by omega), fits, List.drop_zero]
    rfl

/-- So many bytes that the index and their number do not fit into a word are never taken in. -/
theorem takeIn_wraps {fills : Bool} {index len : Word} {input : Bytes}
    (waits : index.toNat < 64) (large : 4294967296 ≤ index.toNat + len.toNat) :
    takeIn transform fills index input len context = none := by
  have bound := len.isLt
  rw [takeIn]
  cases fills with
  | true =>
      have part : (64 - index : Word).toNat = 64 - index.toNat := by
        show (4294967296 - index.toNat + 64) % 4294967296 = 64 - index.toNat
        omega
      rw [if_pos rfl]
      dsimp only [Option.bind_eq_bind]
      generalize (64 - index : Word) = i at part ⊢
      cases lbsMemcpy context.buffer index.toNat input 0 i.toInt with
      | none => rfl
      | some buffer =>
          rw [Option.bind_some, blocksLoop_wraps _ _ (by omega) (by omega)]
          rfl
  | false =>
      have negative : len.toInt < 0 := by
        rw [BitVec.toInt_eq_toNat_cond, if_neg (by omega)]
        omega
      rw [if_neg Bool.false_ne_true, lbsMemcpy_of_neg negative]
      rfl

end Absorbs

section Updates

variable {transform : σ → Bytes → σ} {start : σ} {update : Context σ → Bytes → Word → Option (Context σ)}
  {context : Context σ} {message : Bytes} {chunks : List Bytes}

/-- A chunk that is passed with its own length. -/
theorem Updates.chunk (updates : Updates transform start update) (chunk : Bytes)
    (held : Absorbs transform start context message) (fits : message.length % 64 + chunk.length < 4294967296) :
    ∃ after, update context chunk (BitVec.ofNat 32 chunk.length) = some after ∧
      Absorbs transform start after (message ++ chunk) := by
  have length : (BitVec.ofNat 32 chunk.length).toNat = chunk.length := by
    rw [BitVec.toNat_ofNat]
    omega
  have inside : (BitVec.ofNat 32 chunk.length).toNat ≤ chunk.length := by rw [length]
  obtain ⟨after, returns, absorbs⟩ := updates.takes held inside (by rwa [length])
  rw [length, List.take_length] at absorbs
  exact ⟨after, returns, absorbs⟩

theorem Updates.all (updates : Updates transform start update) (held : Absorbs transform start context message)
    (fits : Fits message.length chunks) :
    ∃ after, updateAll update context chunks = some after ∧
      Absorbs transform start after (message ++ chunks.flatten) := by
  induction chunks generalizing context message with
  | nil => exact ⟨context, rfl, by rwa [List.flatten_nil, List.append_nil]⟩
  | cons chunk chunks ih =>
      obtain ⟨between, returns, absorbs⟩ := updates.chunk chunk held fits.1
      obtain ⟨after, rest, all⟩ := ih absorbs (by rw [List.length_append]; exact fits.2)
      refine ⟨after, ?_, by rwa [List.flatten_cons, ← List.append_assoc]⟩
      rw [updateAll, List.foldlM_cons, returns]
      exact rest

theorem Updates.all_of_not_fits (updates : Updates transform start update)
    (held : Absorbs transform start context message) (words : ∀ chunk ∈ chunks, chunk.length < 4294967296)
    (overflows : ¬ Fits message.length chunks) : updateAll update context chunks = none := by
  induction chunks generalizing context message with
  | nil => exact absurd trivial overflows
  | cons chunk chunks ih =>
      rw [updateAll, List.foldlM_cons]
      by_cases fits : message.length % 64 + chunk.length < 4294967296
      · obtain ⟨between, returns, absorbs⟩ := updates.chunk chunk held fits
        rw [returns]
        refine ih absorbs (fun _ member => words _ (List.mem_cons_of_mem _ member)) fun later => overflows ⟨fits, ?_⟩
        rwa [List.length_append] at later
      · have length : (BitVec.ofNat 32 chunk.length).toNat = chunk.length := by
          rw [BitVec.toNat_ofNat, Nat.mod_eq_of_lt (words chunk List.mem_cons_self)]
        rw [updates.wraps held (by rw [length]; omega)]
        rfl

end Updates

section Bytes

theorem byteOf_eq (word : Word) (shift : Nat) :
    ((word >>> shift) &&& 0xff).setWidth 8 = word.extractLsb' shift 8 := by
  apply BitVec.eq_of_getLsbD_eq
  intro j small
  have mask : (0xff : Word).getLsbD j = true := by
    have all : ∀ j < 8, (0xff : Word).getLsbD j = true := by decide
    exact all j small
  rw [BitVec.getLsbD_setWidth, BitVec.getLsbD_and, BitVec.getLsbD_ushiftRight, BitVec.getLsbD_extractLsb', mask,
    Bool.and_true]

/-- The two words of `count` are the number of the bits. -/
theorem counts_eq {count0 count1 : Word} {n : Nat} (low : count0.toNat = n % 4294967296)
    (high : count1.toNat = n / 4294967296 % 4294967296) : [count0, count1].flatMap ofWord = littleEndian 8 n := by
  have byte {word : Word} {place : Nat} (value : Nat) (same : word.toNat / 2 ^ place % 256 = value % 256) :
      word.extractLsb' place 8 = BitVec.ofNat 8 value := by
    apply BitVec.eq_of_toNat_eq
    rw [BitVec.extractLsb'_toNat, Nat.shiftRight_eq_div_pow, BitVec.toNat_ofNat]
    exact same
  show [count0.extractLsb' 0 8, count0.extractLsb' 8 8, count0.extractLsb' 16 8, count0.extractLsb' 24 8,
    count1.extractLsb' 0 8, count1.extractLsb' 8 8, count1.extractLsb' 16 8, count1.extractLsb' 24 8] =
    [BitVec.ofNat 8 (n / 256 ^ 0), BitVec.ofNat 8 (n / 256 ^ 1), BitVec.ofNat 8 (n / 256 ^ 2),
      BitVec.ofNat 8 (n / 256 ^ 3), BitVec.ofNat 8 (n / 256 ^ 4), BitVec.ofNat 8 (n / 256 ^ 5),
      BitVec.ofNat 8 (n / 256 ^ 6), BitVec.ofNat 8 (n / 256 ^ 7)]
  rw [byte (n / 256 ^ 0) (by omega), byte (n / 256 ^ 1) (by omega), byte (n / 256 ^ 2) (by omega),
    byte (n / 256 ^ 3) (by omega), byte (n / 256 ^ 4) (by omega), byte (n / 256 ^ 5) (by omega),
    byte (n / 256 ^ 6) (by omega), byte (n / 256 ^ 7) (by omega)]

end Bytes

end GbfLibrary.Hash
