import GbfLibrary.Enet.Packet

/-!
# Where a chunk ends

`enet_unpack_data` on a byte string that starts with a head, cut somewhere into the bytes in
the buffer and the input.
-/

set_option autoImplicit false

namespace GbfLibrary.Enet

open Memory

section Resumed

variable {b i junk : Bytes} {base outSize body : Nat}

private theorem take_append_take_drop {α : Type} (all : List α) (skip first more : Nat) :
    ((all.take (skip + first)).drop skip).take first ++ (all.drop (skip + first)).take more =
      (all.drop skip).take (first + more) := by
  rw [List.drop_take, Nat.add_sub_cancel_left, List.take_take, Nat.min_self, List.take_add,
    List.drop_drop]

theorem sizes : HEAD_SIZE = 16 ∧ TAIL_SIZE = 8 ∧ ENET_DEFAULT_SOCKET_BUFFER = 65536 :=
  ⟨rfl, rfl, rfl⟩

private theorem read_input (b junk : Bytes) {offset : Int} {count : Nat} (low : 0 ≤ offset)
    (inside : offset + count ≤ i.length) :
    read (i ++ junk) offset count = some (((b ++ i).drop (b.length + offset.toNat)).take count) := by
  obtain ⟨n, rfl⟩ := Int.eq_ofNat_of_zero_le low
  rw [read_nat (by rw [List.length_append]; omega), Int.toNat_natCast, List.drop_length_add_append,
    List.drop_append_of_le_length (by omega), List.take_append_of_le_length]
  rw [List.length_drop]
  omega

/-- The bytes `b` and `i` start with a head that announces `body` bytes; `base` bytes of the
input have moved to the buffer. -/
structure Cut (b i junk : Bytes) (base body : Nat) : Prop where
  head : HEAD_SIZE ≤ b.length + base
  moved : base ≤ HEAD_SIZE
  room : base ≤ (i ++ junk).length
  whole : HEAD_SIZE ≤ (b ++ i).length
  buffered : b.length ≤ ENET_DEFAULT_SOCKET_BUFFER
  given : i.length ≤ ENET_DEFAULT_SOCKET_BUFFER
  announced : (Head.ofBytes ((b ++ i).take HEAD_SIZE)).length.toNat = body
  short : body ≤ 65512

private theorem Cut.length_buffer (cut : Cut b i junk base body) :
    ((b ++ i ++ junk).take (b.length + base)).length = b.length + base := by
  have room := cut.room
  simp only [List.length_append, List.length_take] at room ⊢
  omega

private theorem Cut.read_head (cut : Cut b i junk base body) :
    read ((b ++ i ++ junk).take (b.length + base)) 0 HEAD_SIZE = some ((b ++ i).take HEAD_SIZE) := by
  have inside : 0 + HEAD_SIZE ≤ ((b ++ i ++ junk).take (b.length + base)).length := by
    rw [cut.length_buffer, Nat.zero_add]
    exact cut.head
  rw [show (0 : Int) = ((0 : Nat) : Int) from rfl, read_nat inside, List.drop_zero, List.take_take,
    Nat.min_eq_left cut.head, List.take_append_of_le_length cut.whole]

theorem Cut.total (cut : Cut b i junk base body) :
    unsigned (unsigned (i.length - base) + (b.length + base : Nat)) = b.length + i.length := by
  obtain ⟨head, moved, room, whole, buffered, given, _, short⟩ := cut
  simp only [HEAD_SIZE, ENET_DEFAULT_SOCKET_BUFFER, unsigned] at *
  omega

theorem Cut.frame (cut : Cut b i junk base body) :
    unsigned (body + HEAD_SIZE + TAIL_SIZE) = body + HEAD_SIZE + TAIL_SIZE := by
  have short := cut.short
  simp only [HEAD_SIZE, TAIL_SIZE, unsigned]
  omega

private theorem unpackResumed_incomplete (cut : Cut b i junk base body)
    (less : b.length + i.length < body + HEAD_SIZE + TAIL_SIZE) :
    unpackResumed (i ++ junk) base (unsigned (i.length - base)) ((b ++ i ++ junk).take (b.length + base))
      outSize = if base ≤ i.length then some ⟨.uncompletePacket, [], 0, b ++ i⟩ else none := by
  rw [unpackResumed, cut.read_head, cut.length_buffer]
  simp only [Option.bind_eq_bind, Option.bind_some, cut.announced, cut.total, cut.frame, if_pos less]
  obtain ⟨_, moved, _, _, buffered, given, _, short⟩ := cut
  simp only [HEAD_SIZE, TAIL_SIZE, ENET_DEFAULT_SOCKET_BUFFER] at less moved buffered given
  split
  case isTrue inside =>
    have left : unsigned (i.length - base) = i.length - base := unsigned_eq (by omega) (by omega)
    have all : ((b ++ i).drop (b.length + base)).take (i.length - base) =
        (b ++ i).drop (b.length + base) := by
      apply List.take_of_length_le
      rw [List.length_drop, List.length_append]
      omega
    have reads : read (i ++ junk) base (i.length - base) = some ((b ++ i).drop (b.length + base)) := by
      rw [← all]
      exact read_input b junk (Int.natCast_nonneg base) (by omega)
    have fits : fit BUFFER_CAPACITY (b.length + base) ((b ++ i).drop (b.length + base)) =
        some ((b ++ i).drop (b.length + base)) := by
      apply fit_of_le
      simp only [List.length_drop, List.length_append, BUFFER_CAPACITY, HEAD_SIZE, TAIL_SIZE,
        ENET_DEFAULT_SOCKET_BUFFER]
      omega
    have joined : (b ++ i ++ junk).take (b.length + base) ++ (b ++ i).drop (b.length + base) = b ++ i := by
      rw [List.take_append_of_le_length (by rw [List.length_append]; omega), List.take_append_drop]
    rw [left, reads, Option.bind_some, fits, Option.bind_some, joined]
    rfl
  case isFalse outside =>
    cases reads : read (i ++ junk) base (unsigned (i.length - base)) with
    | none => rfl
    | some all =>
        have huge := length_of_read reads
        rw [Option.bind_some, fit_of_lt]
        · rfl
        · simp only [huge, BUFFER_CAPACITY, HEAD_SIZE, TAIL_SIZE, ENET_DEFAULT_SOCKET_BUFFER, unsigned]
          omega

/-- The data of a complete packet, out of the buffer and the input. -/
theorem Cut.data (cut : Cut b i junk base body)
    (enough : body + HEAD_SIZE + TAIL_SIZE ≤ b.length + i.length) (out : body ≤ outSize) :
    (if 0 < (body + HEAD_SIZE : Int) - b.length - base then do
        let first ← read ((b ++ i ++ junk).take (b.length + base)) HEAD_SIZE
          (unsigned (b.length + base - HEAD_SIZE))
        let first ← fit outSize 0 first
        let second ← read (i ++ junk) base (unsigned ((body + HEAD_SIZE : Int) - b.length - base))
        let second ← fit outSize (unsigned (b.length + base - HEAD_SIZE)) second
        return first ++ second
      else do
        let all ← read ((b ++ i ++ junk).take (b.length + base)) HEAD_SIZE body
        fit outSize 0 all : Option Bytes) = some (((b ++ i).drop HEAD_SIZE).take body) := by
  have buffer := cut.length_buffer
  obtain ⟨head, moved, _, whole, buffered, given, _, short⟩ := cut
  obtain ⟨headSize, tailSize, bufferSize⟩ := sizes
  have total : (b ++ i).length = b.length + i.length := List.length_append
  by_cases more : 0 < (body + HEAD_SIZE : Int) - b.length - base
  · have kept : unsigned (b.length + base - HEAD_SIZE) = b.length + base - HEAD_SIZE :=
      unsigned_eq (by omega) (by omega)
    have missing : unsigned ((body + HEAD_SIZE : Int) - b.length - base) =
        body + HEAD_SIZE - (b.length + base) := unsigned_eq (by omega) (by omega)
    have inside : (b ++ i ++ junk).take (b.length + base) =
        (b ++ i).take (HEAD_SIZE + (b.length + base - HEAD_SIZE)) := by
      rw [Nat.add_sub_cancel' head, List.take_append_of_le_length (by omega)]
    have second : read (i ++ junk) base (body + HEAD_SIZE - (b.length + base)) =
        some (((b ++ i).drop (HEAD_SIZE + (b.length + base - HEAD_SIZE))).take
          (body + HEAD_SIZE - (b.length + base))) := by
      rw [Nat.add_sub_cancel' head]
      exact read_input b junk (Int.natCast_nonneg base) (by omega)
    rw [if_pos more, kept, missing, read_nat (by omega), second, inside]
    simp only [Option.bind_eq_bind, Option.bind_some]
    rw [fit_of_le, Option.bind_some, fit_of_le, Option.bind_some, take_append_take_drop]
    · congr
      omega
    · simp only [List.length_take, List.length_drop]
      omega
    · simp only [List.length_take, List.length_drop]
      omega
  · rw [if_neg more, read_nat (by omega), List.drop_take, List.take_take, Nat.min_eq_left (by omega),
      List.drop_append_of_le_length whole,
      List.take_append_of_le_length (by rw [List.length_drop]; omega)]
    simp only [Option.bind_eq_bind, Option.bind_some]
    rw [fit_of_le]
    simp only [List.length_take, List.length_drop]
    omega

theorem unpackResumed_complete (cut : Cut b i junk base body)
    (enough : body + HEAD_SIZE + TAIL_SIZE ≤ b.length + i.length) (out : body ≤ outSize) :
    unpackResumed (i ++ junk) base (unsigned (i.length - base)) ((b ++ i ++ junk).take (b.length + base))
      outSize = if b.length ≤ body + HEAD_SIZE + TAIL_SIZE then
        some ⟨.ok, ((b ++ i).drop HEAD_SIZE).take body, body, (b ++ i).drop (body + HEAD_SIZE + TAIL_SIZE)⟩
      else none := by
  have data := cut.data enough out
  obtain ⟨headSize, tailSize, bufferSize⟩ := sizes
  have reads := cut.read_head
  have buffer := cut.length_buffer
  have total := cut.total
  have frame := cut.frame
  obtain ⟨head, moved, _, whole, buffered, given, announced, short⟩ := cut
  have first : signed ((b.length + base : Nat) - HEAD_SIZE) = b.length + base - HEAD_SIZE :=
    signed_eq (by omega) (by omega) (by omega)
  have second : signed (body - (b.length + base - HEAD_SIZE)) =
      (body + HEAD_SIZE : Int) - b.length - base := signed_eq (by omega) (by omega) (by omega)
  have third : signed (unsigned (i.length - base) - ((body + HEAD_SIZE : Int) - b.length - base) - TAIL_SIZE) =
      b.length + i.length - (body + HEAD_SIZE + TAIL_SIZE) := by
    simp only [signed, unsigned]
    omega
  have left : unsigned (b.length + i.length - (body + HEAD_SIZE + TAIL_SIZE)) =
      b.length + i.length - (body + HEAD_SIZE + TAIL_SIZE) := unsigned_eq (by omega) (by omega)
  have length : (b ++ i).length = b.length + i.length := List.length_append
  rw [unpackResumed, reads, buffer]
  simp only [Option.bind_eq_bind] at data
  simp only [Option.bind_eq_bind, Option.bind_some, announced, total, frame,
    if_neg (Nat.not_lt.mpr enough), first, second, third, data, left]
  by_cases overfull : b.length ≤ body + HEAD_SIZE + TAIL_SIZE
  · rw [if_pos overfull]
    by_cases more : 0 < (b.length + i.length - (body + HEAD_SIZE + TAIL_SIZE) : Int)
    · have reads : read (i ++ junk)
          (base + ((body + HEAD_SIZE : Int) - b.length - base) + TAIL_SIZE)
          (b.length + i.length - (body + HEAD_SIZE + TAIL_SIZE)) =
            some ((b ++ i).drop (body + HEAD_SIZE + TAIL_SIZE)) := by
        have offset : (base + ((body + HEAD_SIZE : Int) - b.length - base) + TAIL_SIZE) =
            (body + HEAD_SIZE + TAIL_SIZE - b.length : Nat) := by omega
        rw [offset, read_input b junk (Int.natCast_nonneg _) (by omega), Int.toNat_natCast,
          Nat.add_sub_cancel' overfull, List.take_of_length_le]
        exact Nat.le_of_eq (by rw [List.length_drop, length])
      have fits : fit BUFFER_CAPACITY 0 ((b ++ i).drop (body + HEAD_SIZE + TAIL_SIZE)) =
          some ((b ++ i).drop (body + HEAD_SIZE + TAIL_SIZE)) := by
        apply fit_of_le
        rw [List.length_drop, length, BUFFER_CAPACITY]
        omega
      rw [if_pos more, reads, Option.bind_some, fits]
      rfl
    · have nothing : (b ++ i).drop (body + HEAD_SIZE + TAIL_SIZE) = [] := List.drop_of_length_le (by omega)
      rw [if_neg more, nothing]
      rfl
  · rw [if_neg overfull, if_pos (by omega), read_negative (by omega)]
    rfl

end Resumed

section Calls

variable {b i junk : Bytes} {body outSize : Nat}

/-- The bytes `b` and `i` start with a valid head that announces `body` bytes. -/
structure Headed (b i : Bytes) (body : Nat) : Prop where
  whole : HEAD_SIZE ≤ (b ++ i).length
  valid : isHeadValid (Head.ofBytes ((b ++ i).take HEAD_SIZE)) = true
  announced : (Head.ofBytes ((b ++ i).take HEAD_SIZE)).length.toNat = body
  short : body ≤ 65512
  buffered : b.length ≤ ENET_DEFAULT_SOCKET_BUFFER
  given : i.length ≤ ENET_DEFAULT_SOCKET_BUFFER

/-- The cuts that the code can cope with. A buffer that lacks a part of the head takes
`HEAD_SIZE` bytes of the input, and what is left over is read from the input alone. -/
structure Sound (b i junk : Bytes) (body : Nat) : Prop where
  head : b = [] ∨ HEAD_SIZE ≤ b.length ∨ b.length + i.length ≤ HEAD_SIZE ∨ HEAD_SIZE ≤ i.length ∨
    body + HEAD_SIZE + TAIL_SIZE ≤ b.length + i.length ∧ HEAD_SIZE ≤ (i ++ junk).length
  rest : b.length ≤ body + HEAD_SIZE + TAIL_SIZE

/-- The buffer after a complete packet. With an empty buffer the tail is not skipped. -/
def leftover (b i : Bytes) (body : Nat) : Bytes :=
  if b = [] ∧ body + HEAD_SIZE + TAIL_SIZE < i.length then i.drop (HEAD_SIZE + body)
  else (b ++ i).drop (body + HEAD_SIZE + TAIL_SIZE)

/-- What a call yields, up to the size of the output of an incomplete packet. -/
def Yields (b i junk : Bytes) (body outSize : Nat) : Prop :=
  ∃ r, unpackData (i ++ junk) i.length b outSize = some r ∧
    if b.length + i.length < body + HEAD_SIZE + TAIL_SIZE then
      r.status = .uncompletePacket ∧ r.buffer = b ++ i
    else r.status = .ok ∧ r.out = ((b ++ i).drop HEAD_SIZE).take body ∧ r.outSize = body ∧
      r.buffer = leftover b i body

theorem read_given (junk : Bytes) {offset count : Nat} (inside : offset + count ≤ i.length) :
    read (i ++ junk) offset count = some ((i.drop offset).take count) := by
  have reads := read_input [] junk (Int.natCast_nonneg offset)
    (show (offset : Int) + count ≤ i.length by omega)
  rwa [List.nil_append, List.length_nil, Nat.zero_add, Int.toNat_natCast] at reads

theorem unpackData_empty (headed : Headed [] i body) (out : body ≤ outSize) :
    Yields [] i junk body outSize := by
  obtain ⟨whole, valid, announced, short, _, given⟩ := headed
  obtain ⟨headSize, tailSize, bufferSize⟩ := sizes
  rw [List.nil_append] at whole valid announced
  have first : read (i ++ junk) 0 HEAD_SIZE = some (i.take HEAD_SIZE) :=
    read_given junk (show 0 + HEAD_SIZE ≤ i.length by omega)
  have frame : unsigned (body + HEAD_SIZE + TAIL_SIZE) = body + HEAD_SIZE + TAIL_SIZE :=
    unsigned_eq (by omega) (by omega)
  have nonempty : i.length ≠ 0 := by omega
  rw [Yields, unpackData, if_neg (by simp [nonempty]), if_pos List.length_nil, if_pos whole, first]
  simp only [Option.bind_eq_bind, Option.bind_some, announced, valid, Bool.true_eq_false, if_false,
    frame, List.length_nil, Nat.zero_add, List.nil_append]
  by_cases enough : body + HEAD_SIZE + TAIL_SIZE ≤ i.length
  · have after : unsigned (i.length - HEAD_SIZE - TAIL_SIZE) = i.length - HEAD_SIZE - TAIL_SIZE := by
      simp only [unsigned]
      omega
    rw [if_pos enough, if_neg (by omega), read_given junk (by omega), Option.bind_some, after]
    by_cases more : body + HEAD_SIZE + TAIL_SIZE < i.length
    · have left : unsigned (i.length - HEAD_SIZE - body) = i.length - (HEAD_SIZE + body) := by
        simp only [unsigned]
        omega
      have rest : read (i ++ junk) (HEAD_SIZE + body) (i.length - (HEAD_SIZE + body)) =
          some (i.drop (HEAD_SIZE + body)) := by
        have reads := read_given (i := i) junk
          (show HEAD_SIZE + body + (i.length - (HEAD_SIZE + body)) ≤ i.length by omega)
        rwa [List.take_of_length_le (Nat.le_of_eq List.length_drop), Int.natCast_add] at reads
      have fits : fit BUFFER_CAPACITY 0 (i.drop (HEAD_SIZE + body)) = some (i.drop (HEAD_SIZE + body)) := by
        apply fit_of_le
        rw [List.length_drop, BUFFER_CAPACITY]
        omega
      rw [if_pos (by omega), left, rest, Option.bind_some, fits]
      exact ⟨_, rfl, by rw [if_neg (by omega)]; exact ⟨rfl, rfl, rfl, by rw [leftover, if_pos ⟨rfl, more⟩]⟩⟩
    · rw [if_neg (by omega)]
      refine ⟨_, rfl, ?_⟩
      rw [if_neg (by omega)]
      refine ⟨rfl, rfl, rfl, ?_⟩
      have nothing : i.drop (body + HEAD_SIZE + TAIL_SIZE) = [] := List.drop_of_length_le (by omega)
      rw [leftover, if_neg fun both => more both.2, List.nil_append, nothing]
  · have all : read (i ++ junk) 0 i.length = some i := by
      have reads := read_given (i := i) junk (show 0 + i.length ≤ i.length by omega)
      rwa [List.drop_zero, List.take_length] at reads
    have fits : fit BUFFER_CAPACITY 0 i = some i := by
      apply fit_of_le
      rw [BUFFER_CAPACITY]
      omega
    rw [if_neg enough, all, Option.bind_some, fits]
    exact ⟨_, rfl, by rw [if_pos (by omega)]; exact ⟨rfl, rfl⟩⟩

/-- A call yields what it should under this condition, and is a fault otherwise. -/
def YieldsIff (condition : Prop) (b i junk : Bytes) (body outSize : Nat) : Prop :=
  (condition → Yields b i junk body outSize) ∧
    (¬ condition → unpackData (i ++ junk) i.length b outSize = none)

private theorem unpackResumed_yields {base : Nat} (cut : Cut b i junk base body) (nonempty : b ≠ [])
    (out : body ≤ outSize)
    (resumes : unpackData (i ++ junk) i.length b outSize = unpackResumed (i ++ junk) base
      (unsigned (i.length - base)) ((b ++ i ++ junk).take (b.length + base)) outSize) :
    YieldsIff ((base ≤ i.length ∨ body + HEAD_SIZE + TAIL_SIZE ≤ b.length + i.length) ∧
      b.length ≤ body + HEAD_SIZE + TAIL_SIZE) b i junk body outSize := by
  have left : leftover b i body = (b ++ i).drop (body + HEAD_SIZE + TAIL_SIZE) :=
    if_neg fun both => nonempty both.1
  rw [YieldsIff, Yields, resumes]
  by_cases less : b.length + i.length < body + HEAD_SIZE + TAIL_SIZE
  · simp only [unpackResumed_incomplete cut less, if_pos less]
    by_cases inside : base ≤ i.length
    · simp [inside]
      omega
    · simp [inside]
      omega
  · simp only [unpackResumed_complete cut (Nat.not_lt.mp less) out, if_neg less, left]
    by_cases overfull : b.length ≤ body + HEAD_SIZE + TAIL_SIZE
    · simp [overfull]
      omega
    · simp [overfull]

theorem unpackData_yields (headed : Headed b i body) (out : body ≤ outSize) :
    YieldsIff (Sound b i junk body) b i junk body outSize := by
  obtain ⟨headSize, tailSize, bufferSize⟩ := sizes
  by_cases empty : b = []
  · subst empty
    exact ⟨fun _ => unpackData_empty headed out, fun unsound => absurd ⟨.inl rfl, by simp⟩ unsound⟩
  obtain ⟨whole, _, announced, short, buffered, given⟩ := headed
  have notNil : b.length ≠ 0 := by simpa using empty
  have total : (b ++ i).length = b.length + i.length := List.length_append
  by_cases head : HEAD_SIZE ≤ b.length
  · have cut : Cut b i junk 0 body :=
      ⟨head, Nat.zero_le _, Nat.zero_le _, whole, buffered, given, announced, short⟩
    have size : unsigned (i.length - (0 : Nat)) = i.length := unsigned_eq (by omega) (by omega)
    have buffer : (b ++ i ++ junk).take (b.length + 0) = b := by
      rw [Nat.add_zero, List.append_assoc, List.take_left]
    have same : Sound b i junk body ↔ (0 ≤ i.length ∨ body + HEAD_SIZE + TAIL_SIZE ≤ b.length + i.length) ∧
        b.length ≤ body + HEAD_SIZE + TAIL_SIZE :=
      ⟨fun sound => ⟨.inl (Nat.zero_le _), sound.rest⟩, fun both => ⟨.inr (.inl head), both.2⟩⟩
    rw [same]
    apply unpackResumed_yields cut empty out
    · rw [size, buffer, unpackData, if_neg (by omega), if_neg notNil, if_neg (by omega)]
  by_cases missing : b.length + i.length ≤ HEAD_SIZE
  · have all : read (i ++ junk) 0 i.length = some i := by
      have reads := read_given (i := i) junk (show 0 + i.length ≤ i.length by omega)
      rwa [List.drop_zero, List.take_length] at reads
    have fits : fit BUFFER_CAPACITY b.length i = some i := by
      apply fit_of_le
      rw [BUFFER_CAPACITY]
      omega
    have sum : unsigned (i.length + b.length) ≤ HEAD_SIZE := by
      simp only [unsigned]
      omega
    refine ⟨fun _ => ⟨⟨.uncompletePacket, [], outSize, b ++ i⟩, ?_, ?_⟩,
      fun unsound => absurd ⟨.inr (.inr (.inl missing)), by omega⟩ unsound⟩
    · rw [unpackData, if_neg (by omega), if_neg notNil, if_pos (by omega), if_pos sum, all]
      simp only [Option.bind_eq_bind, Option.bind_some, fits]
      rfl
    · rw [if_pos (by omega)]
      exact ⟨rfl, rfl⟩
  have sum : ¬ unsigned (i.length + b.length) ≤ HEAD_SIZE := by
    simp only [unsigned]
    omega
  by_cases room : HEAD_SIZE ≤ (i ++ junk).length
  · have cut : Cut b i junk HEAD_SIZE body :=
      ⟨Nat.le_add_left .., Nat.le_refl _, room, whole, buffered, given, announced, short⟩
    have same : Sound b i junk body ↔
        (HEAD_SIZE ≤ i.length ∨ body + HEAD_SIZE + TAIL_SIZE ≤ b.length + i.length) ∧
          b.length ≤ body + HEAD_SIZE + TAIL_SIZE := by
      constructor
      · rintro ⟨nothing | head' | few | given' | ⟨enough, _⟩, rest⟩
        · exact absurd nothing empty
        · exact absurd head' head
        · exact absurd few missing
        · exact ⟨.inl given', rest⟩
        · exact ⟨.inr enough, rest⟩
      · intro both
        exact ⟨.inr (.inr (.inr (both.1.imp id fun enough => ⟨enough, room⟩))), both.2⟩
    rw [same]
    apply unpackResumed_yields cut empty out
    · have first : read (i ++ junk) 0 HEAD_SIZE = some ((i ++ junk).take HEAD_SIZE) :=
        read_nat (show 0 + HEAD_SIZE ≤ (i ++ junk).length by omega)
      have fits : fit BUFFER_CAPACITY b.length ((i ++ junk).take HEAD_SIZE) =
          some ((i ++ junk).take HEAD_SIZE) := by
        apply fit_of_le
        rw [List.length_take, BUFFER_CAPACITY]
        omega
      have buffer : b ++ (i ++ junk).take HEAD_SIZE = (b ++ i ++ junk).take (b.length + HEAD_SIZE) := by
        rw [List.append_assoc, List.take_length_add_append]
      rw [unpackData, if_neg (by omega), if_neg notNil, if_pos (by omega), if_neg sum, first]
      simp only [Option.bind_eq_bind, Option.bind_some, fits, buffer]
  · refine ⟨?_, fun _ => ?_⟩
    · have short : i.length ≤ (i ++ junk).length := by simp
      rintro ⟨nothing | head' | few | given' | ⟨_, room'⟩, _⟩
      · exact absurd nothing empty
      · exact absurd head' head
      · exact absurd few missing
      · omega
      · exact absurd room' room
    · have first : read (i ++ junk) 0 HEAD_SIZE = none := if_neg (by omega)
      rw [unpackData, if_neg (by omega), if_neg notNil, if_pos (by omega), if_neg sum, first]
      rfl

end Calls

/-- What is left over is the same, unless more than one packet is there and just one of the
two cuts has an empty buffer. -/
theorem leftover_eq_iff {b i b' i' : Bytes} (same : b ++ i = b' ++ i') (body : Nat) :
    leftover b i body = leftover b' i' body ↔
      (b ++ i).length ≤ body + HEAD_SIZE + TAIL_SIZE ∨ (b = [] ↔ b' = []) := by
  have tailSize : TAIL_SIZE = 8 := rfl
  have differ : body + HEAD_SIZE + TAIL_SIZE < (b ++ i).length →
      (b ++ i).drop (HEAD_SIZE + body) ≠ (b ++ i).drop (body + HEAD_SIZE + TAIL_SIZE) := by
    intro more equal
    have lengths := congrArg List.length equal
    rw [List.length_drop, List.length_drop] at lengths
    omega
  by_cases more : body + HEAD_SIZE + TAIL_SIZE < (b ++ i).length
  · have more' := more
    rw [same] at more'
    by_cases empty : b = [] <;> by_cases empty' : b' = []
    · subst empty empty'
      cases same
      simp
    · subst empty
      apply iff_of_false
      · rw [leftover, leftover, if_pos ⟨rfl, more⟩, if_neg fun both => empty' both.1, ← same]
        exact differ more
      · simpa [empty'] using more
    · subst empty'
      apply iff_of_false
      · rw [leftover, leftover, if_neg fun both => empty both.1, if_pos ⟨rfl, more'⟩]
        rw [List.nil_append] at same
        rw [← same]
        exact (differ more).symm
      · simpa [empty] using more
    · simp [leftover, empty, empty', same]
  · have all : ∀ c j : Bytes, c ++ j = b ++ i → leftover c j body = [] := by
      intro c j equal
      have few : (c ++ j).length ≤ body + HEAD_SIZE + TAIL_SIZE := by
        rw [equal]
        exact Nat.not_lt.mp more
      rw [leftover, if_neg]
      · exact List.drop_of_length_le few
      · rintro ⟨rfl, less⟩
        exact absurd less (Nat.not_lt.mpr few)
    rw [all b i rfl, all b' i' same.symm]
    exact iff_of_true rfl (.inl (Nat.not_lt.mp more))

/-- Two calls return the same status and the same output, and leave the same buffer. -/
def Agree (b i junk b' i' junk' : Bytes) (outSize : Nat) : Prop :=
  ∃ r r', unpackData (i ++ junk) i.length b outSize = some r ∧
    unpackData (i' ++ junk') i'.length b' outSize = some r' ∧ r.status = r'.status ∧
    (r.status = .ok → r.out = r'.out ∧ r.outSize = r'.outSize) ∧ r.buffer = r'.buffer

/-- Two sound cuts of the same bytes differ in what is left over at most. -/
theorem Yields.agree_iff {b i junk b' i' junk' : Bytes} {body outSize : Nat}
    (same : b ++ i = b' ++ i') (yields : Yields b i junk body outSize)
    (yields' : Yields b' i' junk' body outSize) :
    Agree b i junk b' i' junk' outSize ↔
      (b ++ i).length ≤ body + HEAD_SIZE + TAIL_SIZE ∨ (b = [] ↔ b' = []) := by
  obtain ⟨r, returns, what⟩ := yields
  obtain ⟨r', returns', what'⟩ := yields'
  have agrees : Agree b i junk b' i' junk' outSize ↔ r.status = r'.status ∧
      (r.status = .ok → r.out = r'.out ∧ r.outSize = r'.outSize) ∧ r.buffer = r'.buffer := by
    constructor
    · rintro ⟨_, _, first, second, same⟩
      cases returns.symm.trans first
      cases returns'.symm.trans second
      exact same
    · exact fun same => ⟨r, r', returns, returns', same⟩
  rw [agrees, ← leftover_eq_iff same body]
  rw [← List.length_append] at what what'
  rw [← same] at what'
  by_cases less : (b ++ i).length < body + HEAD_SIZE + TAIL_SIZE
  · rw [if_pos less] at what what'
    have few := (leftover_eq_iff same body).mpr (.inl (Nat.le_of_lt less))
    simp [what, what', few]
  · rw [if_neg less] at what what'
    obtain ⟨status, out, size, buffer⟩ := what
    obtain ⟨status', out', size', buffer'⟩ := what'
    rw [status, status', out, out', size, size', buffer, buffer']
    simp

/-- Two cuts of the same bytes agree if both are sound, and with more than one packet both
or neither has an empty buffer. -/
theorem unpackData_agree_iff (b i junk b' i' junk' : Bytes) (body outSize : Nat)
    (same : b ++ i = b' ++ i') (headed : Headed b i body) (headed' : Headed b' i' body)
    (out : body ≤ outSize) :
    Agree b i junk b' i' junk' outSize ↔
      Sound b i junk body ∧ Sound b' i' junk' body ∧
        ((b ++ i).length ≤ body + HEAD_SIZE + TAIL_SIZE ∨ (b = [] ↔ b' = [])) := by
  have yields : YieldsIff (Sound b i junk body) b i junk body outSize := unpackData_yields headed out
  have yields' : YieldsIff (Sound b' i' junk' body) b' i' junk' body outSize := unpackData_yields headed' out
  by_cases sound : Sound b i junk body
  · by_cases sound' : Sound b' i' junk' body
    · simp only [sound, sound', true_and]
      exact (yields.1 sound).agree_iff same (yields'.1 sound')
    · simp [Agree, yields'.2 sound', sound']
  · simp [Agree, yields.2 sound, sound]

/-- A packet without data, once with its head in the buffer. -/
theorem unpackData_agree_iff_empty :
    let frame : Bytes := (packData [] 24).getD []
    Agree [] frame [] (frame.take 16) (frame.drop 16) [] 0 ↔
      Sound [] frame [] 0 ∧ Sound (frame.take 16) (frame.drop 16) [] 0 ∧
        (frame.length ≤ 0 + HEAD_SIZE + TAIL_SIZE ∨ (([] : Bytes) = [] ↔ frame.take 16 = [])) :=
  unpackData_agree_iff [] _ [] _ _ [] 0 0 (by decide) ⟨by decide, by decide, by decide, by decide, by decide, by decide⟩
    ⟨by decide, by decide, by decide, by decide, by decide, by decide⟩ (Nat.le_refl 0)

/-- A packet without data and one more byte. With an empty buffer the tail is left over too. -/
theorem unpackData_disagree :
    let bytes : Bytes := (packData [] 24).getD [] ++ [7]
    Headed [] bytes 0 ∧ Headed (bytes.take 16) (bytes.drop 16) 0 ∧
      unpackData bytes bytes.length [] 65536 = some ⟨.ok, [], 0, bytes.drop 16⟩ ∧
      unpackData (bytes.drop 16) 9 (bytes.take 16) 65536 = some ⟨.ok, [], 0, [7]⟩ ∧
      ¬ Agree [] bytes [] (bytes.take 16) (bytes.drop 16) [] 65536 := by
  intro bytes
  have first : unpackData bytes bytes.length [] 65536 = some ⟨.ok, [], 0, bytes.drop 16⟩ := by decide
  have second : unpackData (bytes.drop 16) 9 (bytes.take 16) 65536 = some ⟨.ok, [], 0, [7]⟩ := by decide
  refine ⟨?_, ?_, first, second, ?_⟩
  · exact ⟨by decide, by decide, by decide, by decide, by decide, by decide⟩
  · exact ⟨by decide, by decide, by decide, by decide, by decide, by decide⟩
  · rintro ⟨_, _, returns, returns', _, _, buffer⟩
    rw [List.append_nil] at returns returns'
    cases first.symm.trans returns
    cases second.symm.trans returns'
    exact absurd buffer (by decide)

end GbfLibrary.Enet
