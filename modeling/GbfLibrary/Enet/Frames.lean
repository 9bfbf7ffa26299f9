import GbfLibrary.Enet.Unpack

/-!
# The frame of a packet

The head and the tail that `enet_pack_data` puts around the data, and what
`enet_unpack_data` asks of them.
-/

set_option autoImplicit false

namespace GbfLibrary.Memory

variable {bytes : Bytes} {offset : Nat}

private theorem ofWord_append (a b c d : Byte) : ofWord (d ++ c ++ b ++ a) = [a, b, c, d] := by
  simp only [ofWord, List.cons.injEq, and_true]
  refine ⟨?_, ?_, ?_, ?_⟩ <;> ext i <;> simp <;> grind

private theorem ofWord_wordAt (inside : offset + 4 ≤ bytes.length) :
    ofWord (wordAt bytes offset) = (bytes.drop offset).take 4 := by
  have split : bytes.drop offset = bytes.getD offset 0 :: bytes.getD (offset + 1) 0 ::
      bytes.getD (offset + 2) 0 :: bytes.getD (offset + 3) 0 :: bytes.drop (offset + 4) := by
    rw [List.drop_eq_getElem_cons (by omega), List.drop_eq_getElem_cons (by omega),
      List.drop_eq_getElem_cons (by omega), List.drop_eq_getElem_cons (by omega)]
    simp only [List.getD_eq_getElem?_getD, List.getElem?_eq_getElem (show offset < bytes.length by omega),
      List.getElem?_eq_getElem (show offset + 1 < bytes.length by omega),
      List.getElem?_eq_getElem (show offset + 2 < bytes.length by omega),
      List.getElem?_eq_getElem (show offset + 3 < bytes.length by omega), Option.getD_some]
  rw [wordAt, ofWord_append, split]
  rfl

end GbfLibrary.Memory

namespace GbfLibrary.Enet

open Memory

/-- The head that announces so many bytes. -/
def headFor (length : BitVec 32) : Head :=
  ⟨0x3244, 0x3244 ^^^ 0xffffffff, length, length ^^^ 0xffffffff⟩

/-- The tail of a packet with this head. -/
def tailFor (head : Head) : Tail :=
  let magic := head.magic >>> 16 ||| head.magic <<< 16
  ⟨magic, getPacketTailCheck head ⟨magic, 0⟩⟩

theorem packData_eq (input : Bytes) (outSize : Nat) :
    packData input outSize = if outSize < HEAD_SIZE + input.length + TAIL_SIZE then none
      else some ((headFor (.ofNat 32 input.length)).toBytes ++ input ++
        (tailFor (headFor (.ofNat 32 input.length))).toBytes) :=
  rfl

theorem length_headBytes (head : Head) : head.toBytes.length = HEAD_SIZE := rfl

theorem length_tailBytes (tail : Tail) : tail.toBytes.length = TAIL_SIZE := rfl

private theorem Head.toBytes_ofBytes {bytes : Bytes} (whole : bytes.length = HEAD_SIZE) :
    (Head.ofBytes bytes).toBytes = bytes := by
  have size : bytes.length = 16 := whole
  have pieces : bytes = bytes.take 4 ++ (bytes.drop 4).take 4 ++ (bytes.drop 8).take 4 ++
      (bytes.drop 12).take 4 := by
    rw [← List.take_add, ← List.take_add, ← List.take_add, List.take_of_length_le]
    exact Nat.le_of_eq size
  simp only [Head.toBytes, Head.ofBytes]
  rw [ofWord_wordAt (by omega), ofWord_wordAt (by omega), ofWord_wordAt (by omega),
    ofWord_wordAt (by omega), List.drop_zero, ← pieces]

/-- The valid heads are the ones that `enet_pack_data` writes. -/
theorem isHeadValid_iff (head : Head) : isHeadValid head = true ↔ head = headFor head.length := by
  obtain ⟨magic, magicReverse, length, lengthReverse⟩ := head
  simp only [isHeadValid, headFor, Bool.and_eq_true, beq_iff_eq, Head.mk.injEq, true_and]
  constructor
  · rintro ⟨⟨rfl, rfl⟩, rfl⟩
    exact ⟨rfl, rfl, rfl⟩
  · rintro ⟨rfl, rfl, rfl⟩
    exact ⟨⟨rfl, rfl⟩, rfl⟩

/-- The length in the head that the bytes start with. -/
def announced (bytes : Bytes) : Nat := (Head.ofBytes (bytes.take HEAD_SIZE)).length.toNat

/-- An input that is accepted at once: a valid head, and the data it announces. -/
structure Accepted (input junk : Bytes) (outSize : Nat) (r : Unpacked) : Prop where
  whole : HEAD_SIZE ≤ input.length
  valid : isHeadValid (Head.ofBytes (input.take HEAD_SIZE)) = true
  complete : unsigned (announced input + HEAD_SIZE + TAIL_SIZE) ≤ input.length
  room : announced input ≤ outSize
  data : read (input ++ junk) HEAD_SIZE (announced input) = some r.out
  rest : if announced input < unsigned (input.length - HEAD_SIZE - TAIL_SIZE) then
      read (input ++ junk) (HEAD_SIZE + announced input)
        (unsigned (input.length - HEAD_SIZE - announced input)) = some r.buffer
    else r.buffer = []

section Accepted

variable {input junk : Bytes} {outSize : Nat} {r : Unpacked}

theorem accepted_of_unpackData (returns : unpackData (input ++ junk) input.length [] outSize = some r)
    (ok : r.status = .ok) : Accepted input junk outSize r := by
  rw [unpackData] at returns
  split at returns
  · cases returns
    cases ok
  rw [if_pos List.length_nil] at returns
  by_cases whole : HEAD_SIZE ≤ input.length
  · have first : read (input ++ junk) 0 HEAD_SIZE = some (input.take HEAD_SIZE) :=
      read_given junk (show 0 + HEAD_SIZE ≤ input.length by omega)
    have length : (Head.ofBytes (input.take HEAD_SIZE)).length.toNat = announced input := rfl
    rw [if_pos whole, first] at returns
    simp only [Option.bind_eq_bind, Option.bind_some, length] at returns
    by_cases valid : isHeadValid (Head.ofBytes (input.take HEAD_SIZE)) = false
    · rw [if_pos valid] at returns
      cases returns
      cases ok
    rw [if_neg valid] at returns
    split at returns
    · next complete =>
      split at returns
      · cases returns
      next room =>
      obtain ⟨out, data, returns⟩ := Option.bind_eq_some_iff.mp returns
      split at returns
      · next more =>
        obtain ⟨left, rest, returns⟩ := Option.bind_eq_some_iff.mp returns
        obtain ⟨all, fits, returns⟩ := Option.bind_eq_some_iff.mp returns
        cases returns
        rw [← (le_of_fit fits).2] at rest
        exact ⟨whole, by simpa using valid, complete, Nat.not_lt.mp room, data, by rwa [if_pos more]⟩
      · next more =>
        cases returns
        exact ⟨whole, by simpa using valid, complete, Nat.not_lt.mp room, data, by rw [if_neg more]⟩
    · obtain ⟨_, _, returns⟩ := Option.bind_eq_some_iff.mp returns
      obtain ⟨_, _, returns⟩ := Option.bind_eq_some_iff.mp returns
      cases returns
      cases ok
  · rw [if_neg whole] at returns
    obtain ⟨_, _, returns⟩ := Option.bind_eq_some_iff.mp returns
    obtain ⟨_, _, returns⟩ := Option.bind_eq_some_iff.mp returns
    cases returns
    cases ok

/-- What is accepted at once is the packet of its data if and only if the bytes behind the
data are the tail of that packet. -/
theorem unpackData_packed_iff (returns : unpackData (input ++ junk) input.length [] outSize = some r)
    (ok : r.status = .ok) :
    packData r.out (HEAD_SIZE + r.out.length + TAIL_SIZE) =
        some (input.take (HEAD_SIZE + r.out.length + TAIL_SIZE)) ↔
      (input.drop (HEAD_SIZE + announced input)).take TAIL_SIZE =
        (tailFor (Head.ofBytes (input.take HEAD_SIZE))).toBytes := by
  obtain ⟨whole, valid, _, _, data, _⟩ := accepted_of_unpackData returns ok
  have length := length_of_read data
  have head : Head.ofBytes (input.take HEAD_SIZE) = headFor (.ofNat 32 r.out.length) := by
    rw [length, announced, BitVec.ofNat_toNat, BitVec.setWidth_eq]
    exact (isHeadValid_iff _).mp valid
  have headBytes : (headFor (.ofNat 32 r.out.length)).toBytes = input.take HEAD_SIZE := by
    rw [← head]
    apply Head.toBytes_ofBytes
    rw [List.length_take, Nat.min_eq_left whole]
  rw [packData_eq, if_neg (Nat.lt_irrefl _), Option.some.injEq, ← length, head, headBytes]
  have front : (input.take HEAD_SIZE ++ r.out).length = HEAD_SIZE + r.out.length := by
    rw [List.length_append, List.length_take, Nat.min_eq_left whole]
  constructor
  · intro packed
    have behind := congrArg (List.drop (HEAD_SIZE + r.out.length)) packed
    rw [← front, List.drop_left, front, List.drop_take, Nat.add_sub_cancel_left] at behind
    exact behind.symm
  · intro tail
    have enough := congrArg List.length tail
    rw [length_tailBytes, List.length_take, List.length_drop] at enough
    have inside : r.out = (input.drop HEAD_SIZE).take r.out.length := by
      conv_lhs => rw [eq_of_read data, ← length, Int.toNat_natCast, List.drop_append_of_le_length whole]
      apply List.take_append_of_le_length
      rw [List.length_drop]
      have tailSize : TAIL_SIZE = 8 := rfl
      omega
    rw [← tail, List.take_add, List.take_add, ← inside]

/-- The packet without data. -/
theorem unpackData_packed_iff_empty :
    let frame : Bytes := (packData [] 24).getD []
    packData [] (HEAD_SIZE + 0 + TAIL_SIZE) = some (frame.take (HEAD_SIZE + 0 + TAIL_SIZE)) ↔
      (frame.drop (HEAD_SIZE + announced frame)).take TAIL_SIZE =
        (tailFor (Head.ofBytes (frame.take HEAD_SIZE))).toBytes :=
  @unpackData_packed_iff _ [] 65536 ⟨.ok, [], 0, []⟩ (by decide) rfl

/-- A packet whose check word is wrong is accepted. -/
theorem unpackData_forged :
    let forged : Bytes := ((packData [] 24).getD []).take 20 ++ [0, 0, 0, 0]
    unpackData forged forged.length [] 65536 = some ⟨.ok, [], 0, []⟩ ∧
      packData [] (HEAD_SIZE + 0 + TAIL_SIZE) ≠ some (forged.take (HEAD_SIZE + 0 + TAIL_SIZE)) := by
  decide

end Accepted

end GbfLibrary.Enet
