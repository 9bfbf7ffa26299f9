import GbfLibrary.Hash.Md5Digest
import GbfLibrary.Hash.Sha1Digest
import GbfLibrary.Streams.Collisions

/-!
# Collisions of the digests

The padding tells messages apart, so two streams with one digest give away a collision of the block function, among
the inputs that it gets for them.
-/

set_option autoImplicit false

namespace GbfLibrary.Hash

open Memory Streams

variable {message message' : Bytes}

private theorem littleEndian_inj {n n' : Nat} (small : n < 18446744073709551616) (small' : n' < 18446744073709551616)
    (same : littleEndian 8 n = littleEndian 8 n') : n = n' := by
  have byte {i : Nat} (inside : i < 8) : n / 256 ^ i % 256 = n' / 256 ^ i % 256 := by
    have bytes := congrArg (fun bytes => (bytes[i]?).map BitVec.toNat) same
    simp only [littleEndian, List.getElem?_map, List.getElem?_range inside, Option.map_some, BitVec.toNat_ofNat,
      Option.some_inj] at bytes
    exact bytes
  have byte0 := byte (i := 0) (by decide)
  have byte1 := byte (i := 1) (by decide)
  have byte2 := byte (i := 2) (by decide)
  have byte3 := byte (i := 3) (by decide)
  have byte4 := byte (i := 4) (by decide)
  have byte5 := byte (i := 5) (by decide)
  have byte6 := byte (i := 6) (by decide)
  have byte7 := byte (i := 7) (by decide)
  omega

private theorem length_padded (message : Bytes) : (padded message).length % 64 = 56 := by
  rw [padded, List.length_append, List.length_cons, List.length_replicate]
  omega

theorem padded_inj (lengths : message.length = message'.length) (same : padded message = padded message') :
    message = message' := by
  rw [padded, padded, lengths] at same
  exact (List.append_inj same lengths).1

section Strengthened

variable {σ : Type} {transform : σ → Bytes → σ} {start : σ} {tail tail' : Bytes}

/-- A message that ends in its length. -/
theorem strengthened_collides_or_eq (eight : tail.length = 8) (eight' : tail'.length = 8)
    (tells : tail = tail' → message.length = message'.length)
    (same : absorbed 64 transform start (padded message ++ tail) =
      absorbed 64 transform start (padded message' ++ tail')) :
    Collide transform (fed 64 transform start (padded message ++ tail))
        (fed 64 transform start (padded message' ++ tail')) ∨
      padded message = padded message' ∧ tail = tail' := by
  have rest := length_padded message
  have rest' := length_padded message'
  have total : (padded message ++ tail).length = (padded message).length + 8 := by rw [List.length_append, eight]
  have total' : (padded message' ++ tail').length = (padded message').length + 8 := by rw [List.length_append, eight']
  have last {front tail : Bytes} (eight : tail.length = 8) (length : front.length % 64 = 56) :
      (front ++ tail).drop ((front ++ tail).length - 64) = front.drop (front.length - 56) ++ tail := by
    have place : (front ++ tail).length - 64 = front.length - 56 := by
      rw [List.length_append, eight]
      omega
    rw [place, List.drop_append_of_le_length (by omega)]
  refine (absorbed_collides_or_eq (by omega) (by omega) ?_ same).imp_right fun equal => ?_
  · intro lengths
    refine ⟨List.ne_nil_of_length_pos (by omega), List.ne_nil_of_length_pos (by omega), fun blocks => lengths ?_⟩
    rw [last eight rest, last eight' rest'] at blocks
    have tails := (List.append_inj_right' blocks (by rw [eight, eight']))
    have fronts : (padded message).length = (padded message').length := by
      have same := tells tails
      rw [padded, padded, List.length_append, List.length_append, List.length_cons, List.length_cons,
        List.length_replicate, List.length_replicate, same]
    omega
  · exact List.append_inj' equal (by rw [eight, eight'])

end Strengthened

theorem littleEndian_tells (small : message.length < 2305843009213693952) (small' : message'.length < 2305843009213693952)
    (same : littleEndian 8 (8 * message.length) = littleEndian 8 (8 * message'.length)) :
    message.length = message'.length := by
  have bits := littleEndian_inj (by omega) (by omega) same
  omega

private theorem length_littleEndian (count n : Nat) : (littleEndian count n).length = count := by
  rw [littleEndian, List.length_map, List.length_range]

private theorem ofWord_inj {word word' : Word} (same : ofWord word = ofWord word') : word = word' := by
  obtain ⟨byte0, rest⟩ := List.cons.inj same
  obtain ⟨byte1, rest⟩ := List.cons.inj rest
  obtain ⟨byte2, rest⟩ := List.cons.inj rest
  obtain ⟨byte3, _⟩ := List.cons.inj rest
  have place (shift : Nat) (bytes : word.extractLsb' shift 8 = word'.extractLsb' shift 8) :
      word.toNat / 2 ^ shift % 256 = word'.toNat / 2 ^ shift % 256 := by
    have numbers := congrArg BitVec.toNat bytes
    rwa [BitVec.extractLsb'_toNat, BitVec.extractLsb'_toNat, Nat.shiftRight_eq_div_pow, Nat.shiftRight_eq_div_pow]
      at numbers
  have low := place 0 byte0
  have second := place 8 byte1
  have third := place 16 byte2
  have high := place 24 byte3
  have bound := word.isLt
  have bound' := word'.isLt
  apply BitVec.eq_of_toNat_eq
  omega

/-- Words are read back from the bytes of a digest. -/
theorem flatMap_inj (bytesOf : Word → Bytes) (words words' : List Word) (four : ∀ word, (bytesOf word).length = 4)
    (inj : ∀ word word', bytesOf word = bytesOf word' → word = word')
    (same : words.flatMap bytesOf = words'.flatMap bytesOf) (lengths : words.length = words'.length) :
    words = words' := by
  induction words generalizing words' with
  | nil => rw [List.eq_nil_of_length_eq_zero lengths.symm]
  | cons word words ih =>
      cases words' with
      | nil => cases lengths
      | cons word' words' =>
          rw [List.flatMap_cons, List.flatMap_cons] at same
          obtain ⟨first, rest⟩ := List.append_inj same (by rw [four, four])
          rw [inj _ _ first, ih words' rest (Nat.succ.inj lengths)]

/-- A digest of the last registers, over a message that ends in the number of its bits. -/
theorem digest_collides_or_eq {σ : Type} {transform : σ → Bytes → σ} (start : σ) (tail : Nat → Bytes)
    (eight : ∀ n, (tail n).length = 8)
    (tells : ∀ {n n'}, tail n = tail n' → littleEndian 8 n = littleEndian 8 n')
    (small : message.length < 2305843009213693952) (small' : message'.length < 2305843009213693952)
    (same : absorbed 64 transform start (padded message ++ tail (8 * message.length)) =
      absorbed 64 transform start (padded message' ++ tail (8 * message'.length))) :
    Collide transform (fed 64 transform start (padded message ++ tail (8 * message.length)))
        (fed 64 transform start (padded message' ++ tail (8 * message'.length))) ∨
      message = message' := by
  have lengths (same : tail (8 * message.length) = tail (8 * message'.length)) : message.length = message'.length :=
    littleEndian_tells small small' (tells same)
  refine (strengthened_collides_or_eq (eight _) (eight _) lengths same).imp_right fun equal => ?_
  exact padded_inj (lengths equal.2) equal.1

/-- The inputs that `hash_md5_transform` gets for a message, its padding and its length. -/
def Md5.inputs (message : Bytes) : List (Md5State × Bytes) :=
  fed 64 hashMd5Transform Md5.start (padded message ++ littleEndian 8 (8 * message.length))

/-- The inputs that `hash_sha1_hash` gets for a message, its padding and its length. -/
def Sha1.inputs (message : Bytes) : List (Sha1State × Bytes) :=
  fed 64 hashSha1Hash Sha1.start (padded message ++ (littleEndian 8 (8 * message.length)).reverse)

private theorem md5_digest_collides_or_eq (small : message.length < 2305843009213693952)
    (small' : message'.length < 2305843009213693952) (same : Md5.digest message = Md5.digest message') :
    Collide hashMd5Transform (Md5.inputs message) (Md5.inputs message') ∨ message = message' := by
  have function : hashMd5Transform = Md5.compress := funext fun s => funext fun block => Md5.hashMd5Transform_eq s block
  rw [Md5.inputs, Md5.inputs, function]
  have words := flatMap_inj ofWord [_, _, _, _] [_, _, _, _] (fun _ => rfl)
    (fun _ _ same => ofWord_inj same) same rfl
  refine digest_collides_or_eq Md5.start (littleEndian 8) (length_littleEndian 8) id small small' ?_
  obtain ⟨a, rest⟩ := List.cons.inj words
  obtain ⟨b, rest⟩ := List.cons.inj rest
  obtain ⟨c, rest⟩ := List.cons.inj rest
  obtain ⟨d, _⟩ := List.cons.inj rest
  exact Md5State.ext a b c d

private theorem sha1_digest_collides_or_eq (small : message.length < 2305843009213693952)
    (small' : message'.length < 2305843009213693952) (same : Sha1.digest message = Sha1.digest message') :
    Collide hashSha1Hash (Sha1.inputs message) (Sha1.inputs message') ∨ message = message' := by
  have function : hashSha1Hash = Sha1.compress := funext fun s => funext fun block => Sha1.hashSha1Hash_eq s block
  rw [Sha1.inputs, Sha1.inputs, function]
  have words := flatMap_inj Sha1.ofBigEndian [_, _, _, _, _] [_, _, _, _, _] (fun _ => rfl) (fun _ _ same => ofWord_inj (List.reverse_injective same)) same rfl
  refine digest_collides_or_eq Sha1.start (fun n => (littleEndian 8 n).reverse)
    (fun n => by rw [List.length_reverse, length_littleEndian]) (fun same => List.reverse_injective same) small small'
    ?_
  obtain ⟨a, rest⟩ := List.cons.inj words
  obtain ⟨b, rest⟩ := List.cons.inj rest
  obtain ⟨c, rest⟩ := List.cons.inj rest
  obtain ⟨d, rest⟩ := List.cons.inj rest
  obtain ⟨e, _⟩ := List.cons.inj rest
  exact Sha1State.ext a b c d e

/-- Two streams of less than `2 ^ 61` bytes that `hash_sha1_final` gives one digest are the same bytes, or
`hash_sha1_hash` gets an input for the one and another for the other and does not tell them apart; and so for MD5. -/
theorem streams_collide_or_agree {chunks chunks' : List Bytes} (words : ∀ chunk ∈ chunks, chunk.length < 4294967296)
    (words' : ∀ chunk ∈ chunks', chunk.length < 4294967296) (small : chunks.flatten.length < 2305843009213693952)
    (small' : chunks'.flatten.length < 2305843009213693952) :
    (∀ context context' : Context Sha1State, context.buffer.length = 64 → context'.buffer.length = 64 →
      ∀ digest, (hashSha1Stream context chunks).map Prod.fst = some digest →
        (hashSha1Stream context' chunks').map Prod.fst = some digest →
        Collide hashSha1Hash (Sha1.inputs chunks.flatten) (Sha1.inputs chunks'.flatten) ∨
          chunks.flatten = chunks'.flatten) ∧
      ∀ context context' : Context Md5State, context.buffer.length = 64 → context'.buffer.length = 64 →
        ∀ digest, (hashMd5Stream context chunks).map Prod.fst = some digest →
          (hashMd5Stream context' chunks').map Prod.fst = some digest →
          Collide hashMd5Transform (Md5.inputs chunks.flatten) (Md5.inputs chunks'.flatten) ∨
            chunks.flatten = chunks'.flatten := by
  have sha1_digest {context : Context Sha1State} (full : context.buffer.length = 64) {chunks : List Bytes}
      (words : ∀ chunk ∈ chunks, chunk.length < 4294967296) {digest : Bytes}
      (returns : (hashSha1Stream context chunks).map Prod.fst = some digest) :
      Sha1.digest chunks.flatten = digest := by
    by_cases fits : Fits 0 chunks
    · rw [hashSha1Stream_of_fits full fits] at returns
      exact Option.some.inj returns
    · rw [hashSha1Stream_of_not_fits full words fits] at returns
      cases returns
  have md5_digest {context : Context Md5State} (full : context.buffer.length = 64) {chunks : List Bytes}
      (words : ∀ chunk ∈ chunks, chunk.length < 4294967296) {digest : Bytes}
      (returns : (hashMd5Stream context chunks).map Prod.fst = some digest) :
      Md5.digest chunks.flatten = digest := by
    by_cases fits : Fits 0 chunks
    · rw [hashMd5Stream_of_fits full fits] at returns
      exact Option.some.inj returns
    · rw [hashMd5Stream_of_not_fits full words fits] at returns
      cases returns
  constructor
  · intro context context' full full' digest returns returns'
    exact sha1_digest_collides_or_eq small small'
      ((sha1_digest full words returns).trans (sha1_digest full' words' returns').symm)
  · intro context context' full full' digest returns returns'
    exact md5_digest_collides_or_eq small small'
      ((md5_digest full words returns).trans (md5_digest full' words' returns').symm)

theorem streams_sample :
    (∀ context context' : Context Sha1State, context.buffer.length = 64 → context'.buffer.length = 64 →
      ∀ digest, (hashSha1Stream context [[97], [98]]).map Prod.fst = some digest →
        (hashSha1Stream context' [[97, 98, 99]]).map Prod.fst = some digest →
        Collide hashSha1Hash (Sha1.inputs [97, 98]) (Sha1.inputs [97, 98, 99]) ∨
          ([97, 98] : Bytes) = [97, 98, 99]) ∧
      ∀ context context' : Context Md5State, context.buffer.length = 64 → context'.buffer.length = 64 →
        ∀ digest, (hashMd5Stream context [[97], [98]]).map Prod.fst = some digest →
          (hashMd5Stream context' [[97, 98, 99]]).map Prod.fst = some digest →
          Collide hashMd5Transform (Md5.inputs [97, 98]) (Md5.inputs [97, 98, 99]) ∨
            ([97, 98] : Bytes) = [97, 98, 99] :=
  streams_collide_or_agree (by decide) (by decide) (by decide) (by decide)

end GbfLibrary.Hash
