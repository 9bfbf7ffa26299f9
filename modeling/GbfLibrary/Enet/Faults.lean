import GbfLibrary.Enet.Ends

/-!
# What a peer can do to the receiver

`enet_tcp_server_process_recv` on arbitrary chunks, each in a block of its own size: when
`enet_unpack_data` stays inside the chunk, the buffer and the output, and when it does not.
-/

set_option autoImplicit false

namespace GbfLibrary.Enet

open Memory Systems

/-- A chunk in a block of its own size, so that reading behind it is a fault. -/
def receiveChunk (fuel : Nat) (chunk : Bytes) (s : Inbound) : Option Inbound := unpackAll fuel chunk chunk.length s

/-- The head of a packet is accepted, and all the bytes that it announces are there, by a sum of 32 bits.
A head of which the last byte has just come is not looked at yet. -/
structure Complete (b i : Bytes) : Prop where
  valid : b = [] → isHeadValid (Head.ofBytes (i.take HEAD_SIZE)) = true
  seen : b ≠ [] → b.length < HEAD_SIZE → HEAD_SIZE < b.length + i.length
  holds : HoldsPacket (b ++ i)

/-- Where a call of `enet_unpack_data` stays inside its blocks. A chunk that goes on behind a head that
starts in the buffer has at least `HEAD_SIZE` bytes; a complete packet fits into the output, and no byte
behind it is in the buffer already; an incomplete packet fits into the buffer. -/
structure SafeCall (b i : Bytes) : Prop where
  head : b ≠ [] → b.length < HEAD_SIZE → HEAD_SIZE < b.length + i.length → HEAD_SIZE ≤ i.length
  complete : Complete b i → announced (b ++ i) ≤ ENET_DEFAULT_SOCKET_BUFFER ∧
    b.length ≤ announced (b ++ i) + HEAD_SIZE + TAIL_SIZE
  incomplete : ¬ HoldsPacket (b ++ i) → b.length + i.length ≤ BUFFER_CAPACITY

/-- The first call is safe, and so is the second one, on what a packet leaves in the buffer. -/
def SafeChunk (b i : Bytes) : Prop :=
  SafeCall b i ∧ (Complete b i → SafeCall (leftover b i (announced (b ++ i))) [])

/-- A call returns if and only if it is safe, and then it accepts a packet if and only if one is complete. -/
def Returns (result : Option Unpacked) (complete safe : Prop) : Prop :=
  (safe → ∃ r, result = some r ∧ (r.status = .ok ↔ complete)) ∧ (¬ safe → result = none)

theorem Returns.congr {result : Option Unpacked} {complete complete' safe safe' : Prop}
    (returns : Returns result complete safe) (same : complete' ↔ complete) (same' : safe' ↔ safe) :
    Returns result complete' safe' := by
  rwa [Returns, same, same']

section Resumed

variable {b i : Bytes} {base : Nat}

/-- The data of a complete packet is copied if and only if it fits. -/
theorem copies_isSome_iff (head : HEAD_SIZE ≤ b.length + base) (room : base ≤ i.length)
    (buffered : b.length ≤ BUFFER_CAPACITY) {body : Nat}
    (given : i.length ≤ ENET_DEFAULT_SOCKET_BUFFER)
    (enough : body + HEAD_SIZE + TAIL_SIZE ≤ b.length + i.length) :
    (if 0 < (body + HEAD_SIZE : Int) - b.length - base then do
        let first ← read ((b ++ i).take (b.length + base)) HEAD_SIZE (unsigned (b.length + base - HEAD_SIZE))
        let first ← fit ENET_DEFAULT_SOCKET_BUFFER 0 first
        let second ← read i base (unsigned ((body + HEAD_SIZE : Int) - b.length - base))
        let second ← fit ENET_DEFAULT_SOCKET_BUFFER (unsigned (b.length + base - HEAD_SIZE)) second
        return first ++ second
      else do
        let all ← read ((b ++ i).take (b.length + base)) HEAD_SIZE body
        fit ENET_DEFAULT_SOCKET_BUFFER 0 all : Option Bytes).isSome = true ↔ body ≤ ENET_DEFAULT_SOCKET_BUFFER := by
  obtain ⟨headSize, tailSize, bufferSize⟩ := sizes
  have capacity : BUFFER_CAPACITY = 65560 := rfl
  have buffer : ((b ++ i).take (b.length + base)).length = b.length + base := by
    rw [List.length_take, List.length_append]
    omega
  by_cases more : 0 < (body + HEAD_SIZE : Int) - b.length - base
  · have kept : unsigned (b.length + base - HEAD_SIZE) = b.length + base - HEAD_SIZE :=
      unsigned_eq (by omega) (by omega)
    have missing : unsigned ((body + HEAD_SIZE : Int) - b.length - base) =
        body + HEAD_SIZE - (b.length + base) := unsigned_eq (by omega) (by omega)
    rw [if_pos more, kept, missing, read_nat (by omega), read_nat (by omega)]
    simp only [Option.bind_eq_bind, Option.bind_some]
    have first : (((b ++ i).take (b.length + base)).drop HEAD_SIZE |>.take (b.length + base - HEAD_SIZE)).length =
        b.length + base - HEAD_SIZE := by
      simp only [List.length_take, List.length_drop, buffer]
      omega
    have second : ((i.drop base).take (body + HEAD_SIZE - (b.length + base))).length =
        body + HEAD_SIZE - (b.length + base) := by
      simp only [List.length_take, List.length_drop]
      omega
    by_cases fits : body ≤ ENET_DEFAULT_SOCKET_BUFFER
    · rw [fit_of_le (by omega), Option.bind_some, fit_of_le (by omega)]
      simp [fits]
    · refine iff_of_false ?_ fits
      by_cases front : b.length + base - HEAD_SIZE ≤ ENET_DEFAULT_SOCKET_BUFFER
      · rw [fit_of_le (by omega), Option.bind_some, fit_of_lt (by omega)]
        simp
      · rw [fit_of_lt (by omega)]
        simp
  · rw [if_neg more, read_nat (by omega)]
    simp only [Option.bind_eq_bind, Option.bind_some]
    have all : (((b ++ i).take (b.length + base)).drop HEAD_SIZE |>.take body).length = body := by
      simp only [List.length_take, List.length_drop, buffer]
      omega
    by_cases fits : body ≤ ENET_DEFAULT_SOCKET_BUFFER
    · rw [fit_of_le (by omega)]
      simp [fits]
    · rw [fit_of_lt (by omega)]
      simp [fits]

private theorem unpackResumed_returns (base : Nat) (head : HEAD_SIZE ≤ b.length + base) (moved : base ≤ HEAD_SIZE)
    (room : base ≤ i.length) (whole : HEAD_SIZE ≤ (b ++ i).length) (buffered : b.length ≤ BUFFER_CAPACITY)
    (given : i.length ≤ ENET_DEFAULT_SOCKET_BUFFER) :
    Returns (unpackResumed i base (unsigned (i.length - base)) ((b ++ i).take (b.length + base))
        ENET_DEFAULT_SOCKET_BUFFER) (HoldsPacket (b ++ i))
      ((HoldsPacket (b ++ i) → announced (b ++ i) ≤ ENET_DEFAULT_SOCKET_BUFFER ∧
          b.length ≤ announced (b ++ i) + HEAD_SIZE + TAIL_SIZE) ∧
        (¬ HoldsPacket (b ++ i) → b.length + i.length ≤ BUFFER_CAPACITY)) := by
  obtain ⟨headSize, tailSize, bufferSize⟩ := sizes
  have capacity : BUFFER_CAPACITY = 65560 := rfl
  have buffer : ((b ++ i).take (b.length + base)).length = b.length + base := by
    rw [List.length_take, List.length_append]
    omega
  have total : (b ++ i).length = b.length + i.length := List.length_append
  have sum : unsigned (unsigned (i.length - base) + (b.length + base : Nat)) = b.length + i.length := by
    simp only [unsigned]
    omega
  have reads : read ((b ++ i).take (b.length + base)) 0 HEAD_SIZE = some ((b ++ i).take HEAD_SIZE) := by
    rw [show (0 : Int) = ((0 : Nat) : Int) from rfl, read_nat (by omega), List.drop_zero, List.take_take,
      Nat.min_eq_left head]
  have wide : announced (b ++ i) < 4294967296 := (Head.ofBytes _).length.isLt
  have length : (Head.ofBytes ((b ++ i).take HEAD_SIZE)).length.toNat = announced (b ++ i) := rfl
  rw [unpackResumed, reads, buffer]
  simp only [Option.bind_eq_bind, Option.bind_some, length, sum]
  by_cases holds : HoldsPacket (b ++ i)
  · have complete := holds.2
    rw [total] at complete
    rw [if_neg (Nat.not_lt.mpr complete)]
    simp only [holds, not_true_eq_false, false_imp_iff, and_true, true_imp_iff]
    have first : signed ((b.length + base : Nat) - HEAD_SIZE) = b.length + base - HEAD_SIZE :=
      signed_eq (by omega) (by omega) (by omega)
    generalize announced (b ++ i) = body at *
    rw [first]
    by_cases narrow : body + HEAD_SIZE + TAIL_SIZE < 4294967296
    · have enough : body + HEAD_SIZE + TAIL_SIZE ≤ b.length + i.length := by
        simp only [unsigned] at complete
        omega
      have second : signed (body - (b.length + base - HEAD_SIZE)) = (body + HEAD_SIZE : Int) - b.length - base :=
        signed_eq (by omega) (by omega) (by omega)
      have third : signed (unsigned (i.length - base) - ((body + HEAD_SIZE : Int) - b.length - base) - TAIL_SIZE) =
          b.length + i.length - (body + HEAD_SIZE + TAIL_SIZE) := by
        simp only [signed, unsigned]
        omega
      have copies := copies_isSome_iff head room buffered given enough
      simp only [Option.bind_eq_bind] at copies
      rw [second, third]
      by_cases fits : body ≤ ENET_DEFAULT_SOCKET_BUFFER
      · obtain ⟨out, copied⟩ := Option.isSome_iff_exists.mp (copies.mpr fits)
        rw [copied, Option.bind_some]
        by_cases inside : b.length ≤ body + HEAD_SIZE + TAIL_SIZE
        · refine ⟨fun _ => ?_, fun unsafe' => absurd ⟨fits, inside⟩ unsafe'⟩
          split
          · have offset : (base + ((body + HEAD_SIZE : Int) - b.length - base) + TAIL_SIZE) =
                (body + HEAD_SIZE + TAIL_SIZE - b.length : Nat) := by omega
            have count : unsigned ((b.length + i.length : Int) - (body + HEAD_SIZE + TAIL_SIZE)) =
                b.length + i.length - (body + HEAD_SIZE + TAIL_SIZE) := unsigned_eq (by omega) (by omega)
            rw [offset, count, read_nat (by omega), Option.bind_some, fit_of_le]
            · exact ⟨_, rfl, by simp⟩
            · rw [List.length_take, List.length_drop]
              omega
          · exact ⟨_, rfl, by simp⟩
        · refine ⟨fun both => absurd both.2 inside, fun _ => ?_⟩
          rw [if_pos (by omega), read_negative (by omega)]
          rfl
      · rw [Option.not_isSome_iff_eq_none.mp fun copied => fits (copies.mp copied)]
        exact ⟨fun both => absurd both.1 fits, fun _ => rfl⟩
    · have second : ¬ 0 < signed (body - (b.length + base - HEAD_SIZE)) := by
        simp only [signed]
        omega
      have fails : read ((b ++ i).take (b.length + base)) HEAD_SIZE body = none := by
        apply if_neg
        rw [buffer]
        omega
      rw [if_neg second, fails]
      constructor
      · intro both
        omega
      · intro _
        rfl
  · have incomplete : b.length + i.length < unsigned (announced (b ++ i) + HEAD_SIZE + TAIL_SIZE) := by
      rw [← total]
      exact Nat.not_le.mp fun enough => holds ⟨whole, enough⟩
    rw [if_pos incomplete]
    simp only [holds, not_false_eq_true, false_imp_iff, true_and, true_imp_iff]
    have left : unsigned (i.length - base) = i.length - base := unsigned_eq (by omega) (by omega)
    have rest : (i.drop base).take (i.length - base) = i.drop base :=
      List.take_of_length_le (Nat.le_of_eq List.length_drop)
    rw [left, read_nat (by omega), rest, Option.bind_some]
    constructor
    · intro most
      rw [fit_of_le (by rw [List.length_drop]; omega)]
      exact ⟨_, rfl, by simp⟩
    · intro most
      rw [fit_of_lt (by rw [List.length_drop]; omega)]
      rfl

end Resumed

section Calls

variable {b i : Bytes}

/-- A call that accepts nothing and fits is safe. -/
theorem returns_of_incomplete {result : Option Unpacked} (incomplete : ¬ Complete b i)
    (head : b ≠ [] → b.length < HEAD_SIZE → HEAD_SIZE < b.length + i.length → HEAD_SIZE ≤ i.length)
    (fits : b.length + i.length ≤ BUFFER_CAPACITY) (returns : ∃ r, result = some r ∧ r.status ≠ .ok) :
    Returns result (Complete b i) (SafeCall b i) := by
  obtain ⟨r, returns, refused⟩ := returns
  constructor
  · intro _
    exact ⟨r, returns, iff_of_false refused incomplete⟩
  · intro unsound
    exact absurd ⟨head, fun complete => absurd complete incomplete, fun _ => fits⟩ unsound

private theorem returns_of_resumed {result : Option Unpacked} (nonempty : b ≠ [])
    (seen : b.length < HEAD_SIZE → HEAD_SIZE < b.length + i.length ∧ HEAD_SIZE ≤ i.length)
    (returns : Returns result (HoldsPacket (b ++ i))
      ((HoldsPacket (b ++ i) → announced (b ++ i) ≤ ENET_DEFAULT_SOCKET_BUFFER ∧
          b.length ≤ announced (b ++ i) + HEAD_SIZE + TAIL_SIZE) ∧
        (¬ HoldsPacket (b ++ i) → b.length + i.length ≤ BUFFER_CAPACITY))) :
    Returns result (Complete b i) (SafeCall b i) := by
  have same : Complete b i ↔ HoldsPacket (b ++ i) :=
    ⟨Complete.holds, fun holds => ⟨fun nil => absurd nil nonempty, fun _ short => (seen short).1, holds⟩⟩
  apply returns.congr same
  constructor
  · intro safe
    exact ⟨fun holds => safe.complete (same.mpr holds), safe.incomplete⟩
  · rintro ⟨complete, incomplete⟩
    exact ⟨fun _ short _ => (seen short).2, fun both => complete both.holds, incomplete⟩

private theorem unpackData_returns_empty (given : i.length ≤ ENET_DEFAULT_SOCKET_BUFFER) :
    Returns (unpackData i i.length [] ENET_DEFAULT_SOCKET_BUFFER) (Complete [] i) (SafeCall [] i) := by
  obtain ⟨headSize, tailSize, bufferSize⟩ := sizes
  have capacity : BUFFER_CAPACITY = 65560 := rfl
  have fits : ([] : Bytes).length + i.length ≤ BUFFER_CAPACITY := by
    rw [List.length_nil]
    omega
  have head : ([] : Bytes) ≠ [] → ([] : Bytes).length < HEAD_SIZE →
      HEAD_SIZE < ([] : Bytes).length + i.length → HEAD_SIZE ≤ i.length := fun nonempty => absurd rfl nonempty
  by_cases whole : i.length < HEAD_SIZE
  · obtain ⟨r, returns, status, _⟩ := unpackData_few (b := []) (i := i) [] ENET_DEFAULT_SOCKET_BUFFER (by simpa using whole)
    rw [List.append_nil] at returns
    refine returns_of_incomplete (fun complete => ?_) head fits ⟨r, returns, by simp [status]⟩
    exact absurd complete.holds.1 (Nat.not_le.mpr whole)
  have whole : HEAD_SIZE ≤ i.length := Nat.not_lt.mp whole
  by_cases valid : isHeadValid (Head.ofBytes (i.take HEAD_SIZE)) = true
  · have reads : read i 0 HEAD_SIZE = some (i.take HEAD_SIZE) := read_nat (show 0 + HEAD_SIZE ≤ i.length by omega)
    have length : (Head.ofBytes (i.take HEAD_SIZE)).length.toNat = announced i := rfl
    by_cases holds : HoldsPacket i
    · have complete : Complete [] i := ⟨fun _ => valid, fun nonempty => absurd rfl nonempty, holds⟩
      by_cases room : announced i ≤ ENET_DEFAULT_SOCKET_BUFFER
      · have safe : SafeCall [] i := ⟨head, fun _ => ⟨room, Nat.zero_le _⟩, fun _ => fits⟩
        refine ⟨fun _ => ?_, fun unsound => absurd safe unsound⟩
        have enough : announced i + HEAD_SIZE + TAIL_SIZE ≤ i.length := by
          have sum := holds.2
          simp only [unsigned] at sum
          omega
        have headed : Headed [] i (announced i) := ⟨whole, valid, rfl, by omega, Nat.zero_le _, given⟩
        have yields : Yields [] i [] (announced i) ENET_DEFAULT_SOCKET_BUFFER := unpackData_empty headed room
        obtain ⟨r, returns, accepts⟩ := yields
        rw [List.append_nil] at returns
        rw [if_neg (by simpa using enough)] at accepts
        exact ⟨r, returns, iff_of_true accepts.1 complete⟩
      · refine ⟨fun safe => absurd (safe.complete complete).1 room, fun _ => ?_⟩
        rw [unpackData, if_neg (by omega), if_pos List.length_nil, if_pos whole, reads]
        simp only [Option.bind_eq_bind, Option.bind_some, length, valid, Bool.true_eq_false, if_false]
        rw [if_pos holds.2, if_pos (Nat.not_le.mp room)]
    · refine returns_of_incomplete (fun complete => holds complete.holds) head fits ?_
      have all : read i 0 i.length = some i := by
        rw [show (0 : Int) = ((0 : Nat) : Int) from rfl, read_nat (by omega), List.drop_zero, List.take_length]
      rw [unpackData, if_neg (by omega), if_pos List.length_nil, if_pos whole, reads]
      simp only [Option.bind_eq_bind, Option.bind_some, length, valid, Bool.true_eq_false, if_false]
      rw [if_neg fun enough => holds ⟨whole, enough⟩, all, Option.bind_some, fit_of_le (by simpa using fits)]
      exact ⟨_, rfl, by simp⟩
  · refine returns_of_incomplete (fun complete => valid (complete.valid rfl)) head fits ?_
    have returns := unpackData_corrupt [] ENET_DEFAULT_SOCKET_BUFFER whole (Bool.eq_false_iff.mpr valid)
    rw [List.append_nil] at returns
    exact ⟨_, returns, by simp⟩

private theorem unpackData_returns (buffered : b.length ≤ BUFFER_CAPACITY)
    (given : i.length ≤ ENET_DEFAULT_SOCKET_BUFFER) :
    Returns (unpackData i i.length b ENET_DEFAULT_SOCKET_BUFFER) (Complete b i) (SafeCall b i) := by
  obtain ⟨headSize, tailSize, bufferSize⟩ := sizes
  have capacity : BUFFER_CAPACITY = 65560 := rfl
  by_cases empty : b = []
  · rw [empty]
    exact unpackData_returns_empty given
  have notNil : b.length ≠ 0 := by simpa using empty
  have total : (b ++ i).length = b.length + i.length := List.length_append
  by_cases long : HEAD_SIZE ≤ b.length
  · have size : unsigned (i.length - (0 : Nat)) = i.length := by
      simp only [unsigned]
      omega
    have returns := unpackResumed_returns (b := b) (i := i) 0 long (Nat.zero_le _) (Nat.zero_le _)
      (by omega) buffered given
    rw [size, Nat.add_zero, List.take_left] at returns
    rw [unpackData, if_neg fun both => notNil both.1, if_neg notNil, if_neg (Nat.not_lt.mpr long)]
    exact returns_of_resumed empty (fun short => absurd long (Nat.not_le.mpr short)) returns
  by_cases missing : b.length + i.length ≤ HEAD_SIZE
  · refine returns_of_incomplete (fun complete => ?_) (fun _ _ more => by omega) (by omega) ?_
    · exact absurd missing (Nat.not_le.mpr (complete.seen empty (Nat.not_le.mp long)))
    · have sum : unsigned (i.length + b.length) ≤ HEAD_SIZE := by
        simp only [unsigned]
        omega
      have all : read i 0 i.length = some i := by
        rw [show (0 : Int) = ((0 : Nat) : Int) from rfl, read_nat (by omega), List.drop_zero, List.take_length]
      rw [unpackData, if_neg fun both => notNil both.1, if_neg notNil, if_pos (Nat.not_le.mp long), if_pos sum, all]
      simp only [Option.bind_eq_bind, Option.bind_some, fit_of_le (show b.length + i.length ≤ BUFFER_CAPACITY by omega)]
      exact ⟨_, rfl, by simp⟩
  have sum : ¬ unsigned (i.length + b.length) ≤ HEAD_SIZE := by
    simp only [unsigned]
    omega
  by_cases few : i.length < HEAD_SIZE
  · refine ⟨fun safe => absurd few (Nat.not_lt.mpr ?_), fun _ => ?_⟩
    · exact safe.head empty (Nat.not_le.mp long) (Nat.not_le.mp missing)
    · have fails : read i 0 HEAD_SIZE = none := if_neg (by omega)
      rw [unpackData, if_neg fun both => notNil both.1, if_neg notNil, if_pos (Nat.not_le.mp long), if_neg sum, fails]
      rfl
  · have room : HEAD_SIZE ≤ i.length := Nat.not_lt.mp few
    have returns := unpackResumed_returns (b := b) (i := i) HEAD_SIZE (Nat.le_add_left ..) (Nat.le_refl _)
      room (by omega) buffered given
    have first : read i 0 HEAD_SIZE = some (i.take HEAD_SIZE) := read_nat (show 0 + HEAD_SIZE ≤ i.length by omega)
    have fits : fit BUFFER_CAPACITY b.length (i.take HEAD_SIZE) = some (i.take HEAD_SIZE) := by
      apply fit_of_le
      rw [List.length_take]
      omega
    rw [List.take_length_add_append] at returns
    rw [unpackData, if_neg fun both => notNil both.1, if_neg notNil, if_pos (Nat.not_le.mp long), if_neg sum, first]
    simp only [Option.bind_eq_bind, Option.bind_some, fits]
    exact returns_of_resumed empty (fun _ => ⟨Nat.not_le.mp missing, room⟩) returns

end Calls

section Chunks

variable {fuel : Nat} {chunk : Bytes} {s s' : Inbound}

private theorem unpackAll_nothing (fuel : Nat) (delivered : List Bytes) :
    unpackAll (fuel + 1) [] 0 ⟨[], delivered⟩ = some ⟨[], delivered⟩ := by
  rw [unpackAll, unpackData, if_pos ⟨rfl, rfl⟩]
  rfl

/-- The calls without input return if the first one is safe: what it leaves is nothing. -/
theorem unpackAll_rest (buffered : s.buffer.length ≤ BUFFER_CAPACITY) :
    (unpackAll (fuel + 2) [] 0 s).isSome = true ↔ SafeCall s.buffer [] := by
  have calls : Returns (unpackData [] 0 s.buffer ENET_DEFAULT_SOCKET_BUFFER) _ _ :=
    unpackData_returns (i := []) buffered (Nat.zero_le _)
  rw [unpackAll]
  by_cases safe : SafeCall s.buffer []
  · obtain ⟨r, returns, ok⟩ := calls.1 safe
    rw [returns]
    simp only [Option.bind_eq_bind, Option.bind_some, safe, iff_true]
    by_cases complete : Complete s.buffer []
    · have accepts := ok.mpr complete
      have calls : unpackData ([] ++ []) ([] : Bytes).length s.buffer ENET_DEFAULT_SOCKET_BUFFER = some r := returns
      have rest := (unpackData_completes (Nat.zero_le _) buffered calls accepts).2
      have inside := (safe.complete complete).2
      have nonempty : s.buffer ≠ [] := by
        intro nil
        have whole := complete.holds.1
        rw [nil] at whole
        exact absurd whole (by decide)
      have nothing : r.buffer = [] := by
        rw [rest, leftover, if_neg fun both => nonempty both.1]
        apply List.drop_of_length_le
        simpa using inside
      rw [if_neg (not_not_intro accepts), nothing, unpackAll_nothing]
      rfl
    · rw [if_pos fun accepts => complete (ok.mp accepts)]
      rfl
  · rw [calls.2 safe]
    simp [safe]

/-- The receiver gets through a chunk if and only if the chunk is safe. -/
theorem receiveChunk_isSome_iff (enough : 3 ≤ fuel) (buffered : s.buffer.length ≤ BUFFER_CAPACITY)
    (given : chunk.length ≤ ENET_DEFAULT_SOCKET_BUFFER) :
    (receiveChunk fuel chunk s).isSome = true ↔ SafeChunk s.buffer chunk := by
  obtain ⟨fuel, rfl⟩ := Nat.exists_eq_add_of_le' enough
  have calls := unpackData_returns buffered given
  rw [receiveChunk, unpackAll]
  by_cases safe : SafeCall s.buffer chunk
  · obtain ⟨r, returns, ok⟩ := calls.1 safe
    rw [returns]
    simp only [Option.bind_eq_bind, Option.bind_some]
    by_cases complete : Complete s.buffer chunk
    · have accepts := ok.mpr complete
      have rest : r.buffer = leftover s.buffer chunk (announced (s.buffer ++ chunk)) := by
        have calls : unpackData (chunk ++ []) chunk.length s.buffer ENET_DEFAULT_SOCKET_BUFFER = some r := by
          rwa [List.append_nil]
        exact (unpackData_completes given buffered calls accepts).2
      rw [if_neg (not_not_intro accepts), unpackAll_rest (unpackData_buffer buffered returns), rest]
      exact ⟨fun second => ⟨safe, fun _ => second⟩, fun both => both.2 complete⟩
    · rw [if_pos fun accepts => complete (ok.mp accepts)]
      exact iff_of_true rfl ⟨safe, fun accepts => absurd accepts complete⟩
  · rw [calls.2 safe]
    exact iff_of_false (by simp) fun both => safe both.1

private theorem unpackAll_buffer {input : Bytes} {size : Nat} (buffered : s.buffer.length ≤ BUFFER_CAPACITY)
    (runs : unpackAll fuel input size s = some s') : s'.buffer.length ≤ BUFFER_CAPACITY := by
  induction fuel generalizing input size s with
  | zero => cases runs
  | succ fuel ih =>
      obtain ⟨r, returns, runs⟩ := Option.bind_eq_some_iff.mp runs
      have inside := unpackData_buffer buffered returns
      split at runs
      · cases runs
        exact inside
      · exact ih (s := ⟨r.buffer, _⟩) inside runs

/-- The receiver stays inside its blocks if and only if every chunk is safe when it comes. -/
theorem received_iff_safe (enough : 3 ≤ fuel) (chunks : List Bytes)
    (given : ∀ chunk ∈ chunks, 1 ≤ chunk.length ∧ chunk.length ≤ ENET_DEFAULT_SOCKET_BUFFER) :
    (run (receiveChunk fuel) chunks Inbound.start).isSome = true ↔
      Meets (receiveChunk fuel) (fun chunk s => SafeChunk s.buffer chunk) chunks Inbound.start := by
  have buffered : Inbound.start.buffer.length ≤ BUFFER_CAPACITY := Nat.zero_le _
  generalize Inbound.start = s at *
  induction chunks generalizing s with
  | nil => simp [Meets]
  | cons chunk chunks ih =>
      have first := receiveChunk_isSome_iff enough buffered (given chunk List.mem_cons_self).2
      rw [run, Meets, ← first]
      cases steps : receiveChunk fuel chunk s with
      | none => simp
      | some s' =>
          have later := ih (fun other member => given other (List.mem_cons_of_mem _ member)) s'
            (unpackAll_buffer buffered steps)
          rw [Option.bind_some]
          constructor
          · intro returns
            refine ⟨rfl, fun other same => ?_⟩
            cases same
            exact later.mp returns
          · intro both
            exact later.mpr (both.2 s' rfl)

theorem received_iff_safe_empty :
    (run (receiveChunk 3) [emptyFrame] Inbound.start).isSome = true ↔
      Meets (receiveChunk 3) (fun chunk s => SafeChunk s.buffer chunk) [emptyFrame] Inbound.start :=
  received_iff_safe (Nat.le_refl 3) [emptyFrame] (by decide)

/-- A chunk that completes a head is copied as if it were as long as the head. -/
theorem receive_faults :
    let eight : Bytes := List.replicate 8 0
    let nine : Bytes := List.replicate 9 0
    run (receiveChunk 3) [eight] Inbound.start = some ⟨eight, []⟩ ∧
      run (receiveChunk 3) [eight, nine] Inbound.start = none := by
  decide

end Chunks

end GbfLibrary.Enet
