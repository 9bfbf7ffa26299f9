import GbfLibrary.Enet.Frames
import GbfLibrary.Enet.Receive

/-!
# The client and the server on the same chunks

What a call of `enet_unpack_data` accepts, and when the two ends deliver the same packets.
-/

set_option autoImplicit false

namespace GbfLibrary.Enet

open Memory Systems

/-- A packet in the buffer and the chunk, as `enet_unpack_data` sees it. -/
structure Completes (b i : Bytes) : Prop where
  valid : b = [] → isHeadValid (Head.ofBytes (i.take HEAD_SIZE)) = true
  enough : announced (b ++ i) + HEAD_SIZE + TAIL_SIZE ≤ b.length + i.length
  room : announced (b ++ i) ≤ ENET_DEFAULT_SOCKET_BUFFER
  buffered : b.length ≤ announced (b ++ i) + HEAD_SIZE + TAIL_SIZE

section Accepted

variable {b i junk : Bytes} {r : Unpacked} {base : Nat}

/-- The data of a packet that was accepted fits into the output. -/
theorem announced_le_of_copies {buffer input out : Bytes} {kept length : Nat}
    (wide : length < 4294967296)
    (copies : (if 0 < signed (length - signed (kept - HEAD_SIZE)) then do
        let first ← read buffer HEAD_SIZE (unsigned (signed (kept - HEAD_SIZE)))
        let first ← fit ENET_DEFAULT_SOCKET_BUFFER 0 first
        let second ← read input base (unsigned (signed (length - signed (kept - HEAD_SIZE))))
        let second ← fit ENET_DEFAULT_SOCKET_BUFFER (unsigned (signed (kept - HEAD_SIZE))) second
        return first ++ second
      else do
        let all ← read buffer HEAD_SIZE length
        fit ENET_DEFAULT_SOCKET_BUFFER 0 all : Option Bytes) = some out) :
    length ≤ ENET_DEFAULT_SOCKET_BUFFER := by
  obtain ⟨headSize, tailSize, bufferSize⟩ := sizes
  have capacity : BUFFER_CAPACITY = 65560 := rfl
  split at copies
  · next more =>
    obtain ⟨_, _, copies⟩ := Option.bind_eq_some_iff.mp copies
    obtain ⟨_, _, copies⟩ := Option.bind_eq_some_iff.mp copies
    obtain ⟨second, reads, copies⟩ := Option.bind_eq_some_iff.mp copies
    obtain ⟨_, fits, _⟩ := Option.bind_eq_some_iff.mp copies
    have count := length_of_read reads
    have inside := (le_of_fit fits).1
    rw [count] at inside
    simp only [signed, unsigned] at more inside
    omega
  · obtain ⟨all, reads, fits⟩ := Option.bind_eq_some_iff.mp copies
    have count := length_of_read reads
    have inside := (le_of_fit fits).1
    omega

private theorem unpackResumed_completes (head : HEAD_SIZE ≤ b.length + base) (moved : base ≤ HEAD_SIZE)
    (room : base ≤ (i ++ junk).length) (whole : HEAD_SIZE ≤ (b ++ i).length)
    (buffered : b.length ≤ BUFFER_CAPACITY) (given : i.length ≤ ENET_DEFAULT_SOCKET_BUFFER)
    (returns : unpackResumed (i ++ junk) base (unsigned (i.length - base))
      ((b ++ i ++ junk).take (b.length + base)) ENET_DEFAULT_SOCKET_BUFFER = some r)
    (ok : r.status = .ok) :
    announced (b ++ i) + HEAD_SIZE + TAIL_SIZE ≤ b.length + i.length ∧
      announced (b ++ i) ≤ ENET_DEFAULT_SOCKET_BUFFER ∧
      b.length ≤ announced (b ++ i) + HEAD_SIZE + TAIL_SIZE ∧
      r.buffer = (b ++ i).drop (announced (b ++ i) + HEAD_SIZE + TAIL_SIZE) := by
  obtain ⟨headSize, tailSize, bufferSize⟩ := sizes
  have capacity : BUFFER_CAPACITY = 65560 := rfl
  have size : ((b ++ i ++ junk).take (b.length + base)).length = b.length + base := by
    simp only [List.length_append, List.length_take] at room ⊢
    omega
  have wide : announced (b ++ i) < 4294967296 := (Head.ofBytes _).length.isLt
  obtain ⟨bytes, reads, returns⟩ := Option.bind_eq_some_iff.mp returns
  have length : (Head.ofBytes bytes).length.toNat = announced (b ++ i) := by
    rw [eq_of_read reads]
    simp only [Int.toNat_zero, List.drop_zero, List.take_take, Nat.min_eq_left head]
    rw [List.take_append_of_le_length whole, announced]
  simp only [length, size] at returns
  generalize announced (b ++ i) = body at *
  split at returns
  · obtain ⟨_, _, returns⟩ := Option.bind_eq_some_iff.mp returns
    obtain ⟨_, _, returns⟩ := Option.bind_eq_some_iff.mp returns
    cases returns
    cases ok
  next complete =>
  obtain ⟨out, copies, returns⟩ := Option.bind_eq_some_iff.mp returns
  have short : body ≤ ENET_DEFAULT_SOCKET_BUFFER := announced_le_of_copies wide copies
  have enough : body + HEAD_SIZE + TAIL_SIZE ≤ b.length + i.length := by
    simp only [unsigned] at complete
    omega
  have missing : signed (body - signed ((b.length + base : Nat) - HEAD_SIZE)) =
      body + HEAD_SIZE - b.length - base := by
    simp only [signed]
    omega
  have rest : signed (unsigned (i.length - base) - (body + HEAD_SIZE - b.length - base) - TAIL_SIZE) =
      b.length + i.length - (body + HEAD_SIZE + TAIL_SIZE) := by
    simp only [signed, unsigned]
    omega
  refine ⟨enough, short, ?_⟩
  simp only [missing, rest] at returns
  split at returns
  · next more =>
    obtain ⟨left, reads, returns⟩ := Option.bind_eq_some_iff.mp returns
    obtain ⟨all, fits, returns⟩ := Option.bind_eq_some_iff.mp returns
    cases returns
    obtain ⟨low, _⟩ := le_of_read reads
    have inside : b.length ≤ body + HEAD_SIZE + TAIL_SIZE := by omega
    refine ⟨inside, ?_⟩
    have offset : (base + (body + HEAD_SIZE - b.length - base) + TAIL_SIZE : Int).toNat =
        body + HEAD_SIZE + TAIL_SIZE - b.length := by omega
    have count : unsigned (b.length + i.length - (body + HEAD_SIZE + TAIL_SIZE)) =
        (i.drop (body + HEAD_SIZE + TAIL_SIZE - b.length)).length := by
      rw [List.length_drop]
      simp only [unsigned]
      omega
    rw [(le_of_fit fits).2, eq_of_read reads, offset, count, List.drop_append_of_le_length (by omega),
      List.take_left, List.drop_append, List.drop_of_length_le inside, List.nil_append]
  · cases returns
    refine ⟨by omega, (List.drop_of_length_le ?_).symm⟩
    rw [List.length_append]
    omega

/-- A packet that is accepted with an empty buffer. -/
theorem unpackData_completes_empty (given : i.length ≤ ENET_DEFAULT_SOCKET_BUFFER)
    (returns : unpackData (i ++ junk) i.length [] ENET_DEFAULT_SOCKET_BUFFER = some r)
    (ok : r.status = .ok) : Completes [] i ∧ r.buffer = leftover [] i (announced i) := by
  obtain ⟨headSize, tailSize, bufferSize⟩ := sizes
  obtain ⟨whole, valid, complete, room, _, rest⟩ := accepted_of_unpackData returns ok
  have enough : announced i + HEAD_SIZE + TAIL_SIZE ≤ i.length := by
    simp only [unsigned] at complete
    omega
  refine ⟨⟨fun _ => valid, by simpa using enough, room, by simp⟩, ?_⟩
  have after : unsigned (i.length - HEAD_SIZE - TAIL_SIZE) = i.length - HEAD_SIZE - TAIL_SIZE :=
    unsigned_eq (by omega) (by omega)
  rw [after] at rest
  split at rest
  · next more =>
    have count : unsigned (i.length - HEAD_SIZE - announced i) =
        (i.drop (HEAD_SIZE + announced i)).length := by
      rw [List.length_drop]
      simp only [unsigned]
      omega
    rw [leftover, if_pos ⟨rfl, by omega⟩, eq_of_read rest, ← Int.natCast_add, Int.toNat_natCast, count,
      List.drop_append_of_le_length (by omega), List.take_left]
  · next more =>
    rw [rest, leftover, if_neg fun both => more (by omega), List.nil_append]
    exact (List.drop_of_length_le (by omega)).symm

/-- What is accepted is a packet in the buffer and the chunk, and the rest stays in the buffer. -/
theorem unpackData_completes (given : i.length ≤ ENET_DEFAULT_SOCKET_BUFFER)
    (buffered : b.length ≤ BUFFER_CAPACITY)
    (returns : unpackData (i ++ junk) i.length b ENET_DEFAULT_SOCKET_BUFFER = some r)
    (ok : r.status = .ok) : Completes b i ∧ r.buffer = leftover b i (announced (b ++ i)) := by
  obtain ⟨headSize, tailSize, bufferSize⟩ := sizes
  by_cases empty : b = []
  · subst empty
    exact unpackData_completes_empty given returns ok
  have notNil : b.length ≠ 0 := by simpa using empty
  have length : (b ++ i).length = b.length + i.length := List.length_append
  suffices resumes : ∃ base, HEAD_SIZE ≤ b.length + base ∧ base ≤ HEAD_SIZE ∧ base ≤ (i ++ junk).length ∧
      HEAD_SIZE ≤ (b ++ i).length ∧ unpackResumed (i ++ junk) base (unsigned (i.length - base))
        ((b ++ i ++ junk).take (b.length + base)) ENET_DEFAULT_SOCKET_BUFFER = some r by
    obtain ⟨base, head, moved, room, whole, returns⟩ := resumes
    obtain ⟨enough, fits, inside, rest⟩ := unpackResumed_completes head moved room whole buffered given returns ok
    refine ⟨⟨fun nil => absurd nil empty, enough, fits, inside⟩, ?_⟩
    rw [rest, leftover, if_neg fun both => empty both.1]
  rw [unpackData, if_neg fun both => notNil both.1, if_neg notNil] at returns
  split at returns
  · next short =>
    split at returns
    · obtain ⟨_, _, returns⟩ := Option.bind_eq_some_iff.mp returns
      obtain ⟨_, _, returns⟩ := Option.bind_eq_some_iff.mp returns
      cases returns
      cases ok
    · next more =>
      obtain ⟨first, reads, returns⟩ := Option.bind_eq_some_iff.mp returns
      obtain ⟨all, fits, returns⟩ := Option.bind_eq_some_iff.mp returns
      have room := (le_of_read reads).2
      have buffer : b ++ all = (b ++ i ++ junk).take (b.length + HEAD_SIZE) := by
        rw [(le_of_fit fits).2, eq_of_read reads, List.append_assoc, List.take_length_add_append]
        rfl
      rw [buffer] at returns
      refine ⟨HEAD_SIZE, by omega, by omega, by omega, ?_, returns⟩
      simp only [unsigned] at more
      omega
  · next long =>
    have size : unsigned (i.length - (0 : Nat)) = i.length := unsigned_eq (by omega) (by omega)
    have buffer : (b ++ i ++ junk).take (b.length + 0) = b := by
      rw [Nat.add_zero, List.append_assoc, List.take_left]
    refine ⟨0, by omega, by omega, by omega, by omega, ?_⟩
    rw [size, buffer]
    exact returns

private theorem length_buffer_of_fit {status : Status} {out all bytes : Bytes} {outSize offset : Nat}
    (before : b.length = offset) (fits : fit BUFFER_CAPACITY offset bytes = some all) :
    (Unpacked.mk status out outSize (b ++ all)).buffer.length ≤ BUFFER_CAPACITY := by
  obtain ⟨room, rfl⟩ := le_of_fit fits
  rwa [List.length_append, before]

private theorem unpackResumed_buffer {size outSize : Nat}
    (returns : unpackResumed i base size b outSize = some r) : r.buffer.length ≤ BUFFER_CAPACITY := by
  obtain ⟨bytes, _, returns⟩ := Option.bind_eq_some_iff.mp returns
  simp only at returns
  split at returns
  · obtain ⟨_, _, returns⟩ := Option.bind_eq_some_iff.mp returns
    obtain ⟨_, fits, returns⟩ := Option.bind_eq_some_iff.mp returns
    cases returns
    exact length_buffer_of_fit rfl fits
  · obtain ⟨_, _, returns⟩ := Option.bind_eq_some_iff.mp returns
    split at returns
    · obtain ⟨_, _, returns⟩ := Option.bind_eq_some_iff.mp returns
      obtain ⟨_, fits, returns⟩ := Option.bind_eq_some_iff.mp returns
      cases returns
      exact length_buffer_of_fit (b := []) rfl fits
    · cases returns
      exact Nat.zero_le _

theorem unpackData_buffer {size outSize : Nat} (buffered : b.length ≤ BUFFER_CAPACITY)
    (returns : unpackData i size b outSize = some r) : r.buffer.length ≤ BUFFER_CAPACITY := by
  rw [unpackData] at returns
  split at returns
  · cases returns
    exact buffered
  split at returns
  · split at returns
    · obtain ⟨_, _, returns⟩ := Option.bind_eq_some_iff.mp returns
      simp only at returns
      split at returns
      · cases returns
        exact buffered
      split at returns
      · split at returns
        · cases returns
        obtain ⟨_, _, returns⟩ := Option.bind_eq_some_iff.mp returns
        split at returns
        · obtain ⟨_, _, returns⟩ := Option.bind_eq_some_iff.mp returns
          obtain ⟨_, fits, returns⟩ := Option.bind_eq_some_iff.mp returns
          cases returns
          exact length_buffer_of_fit (b := []) rfl fits
        · cases returns
          exact buffered
      · obtain ⟨_, _, returns⟩ := Option.bind_eq_some_iff.mp returns
        obtain ⟨_, fits, returns⟩ := Option.bind_eq_some_iff.mp returns
        cases returns
        exact length_buffer_of_fit (b := []) rfl fits
    · obtain ⟨_, _, returns⟩ := Option.bind_eq_some_iff.mp returns
      obtain ⟨_, fits, returns⟩ := Option.bind_eq_some_iff.mp returns
      cases returns
      exact length_buffer_of_fit (b := []) rfl fits
  split at returns
  · split at returns
    · obtain ⟨_, _, returns⟩ := Option.bind_eq_some_iff.mp returns
      obtain ⟨_, fits, returns⟩ := Option.bind_eq_some_iff.mp returns
      cases returns
      exact length_buffer_of_fit rfl fits
    · obtain ⟨_, _, returns⟩ := Option.bind_eq_some_iff.mp returns
      obtain ⟨_, _, returns⟩ := Option.bind_eq_some_iff.mp returns
      exact unpackResumed_buffer returns
  · exact unpackResumed_buffer returns

end Accepted

/-- The buffer holds a whole packet by the length in its head. -/
def HoldsPacket (buffer : Bytes) : Prop :=
  HEAD_SIZE ≤ buffer.length ∧ unsigned (announced buffer + HEAD_SIZE + TAIL_SIZE) ≤ buffer.length

/-- The chunk completes a packet, and what is left over is a whole packet again. -/
def LeavesPacket (b i : Bytes) : Prop :=
  Completes b i ∧ HoldsPacket (leftover b i (announced (b ++ i)))

section Agree

variable {unit : PacketUnit} {s : Inbound} {fuel : Nat}

theorem unpackData_idle {buffer : Bytes} (outSize : Nat) (small : buffer.length ≤ BUFFER_CAPACITY)
    (nothing : ¬ HoldsPacket buffer) :
    ∃ r, unpackData [] 0 buffer outSize = some r ∧ r.status ≠ .ok ∧ r.buffer = buffer := by
  have fits : fit BUFFER_CAPACITY buffer.length [] = some [] := fit_of_le (by simpa using small)
  have capacity : BUFFER_CAPACITY = 65560 := rfl
  have size : unsigned ((0 : Nat) + buffer.length) = buffer.length := unsigned_eq (by omega) (by omega)
  have readsNothing : read [] 0 0 = some [] := rfl
  by_cases empty : buffer.length = 0
  · exact ⟨_, by rw [unpackData, if_pos ⟨empty, rfl⟩], by simp, rfl⟩
  rw [unpackData, if_neg fun both => empty both.1, if_neg empty]
  by_cases short : buffer.length < HEAD_SIZE
  · rw [if_pos short, size, if_pos (Nat.le_of_lt short), readsNothing]
    simp only [Option.bind_eq_bind, Option.bind_some, fits]
    exact ⟨_, rfl, by simp, List.append_nil _⟩
  · have head : read buffer 0 HEAD_SIZE = some (buffer.take HEAD_SIZE) :=
      read_nat (show 0 + HEAD_SIZE ≤ buffer.length by omega)
    have incomplete : buffer.length < unsigned (announced buffer + HEAD_SIZE + TAIL_SIZE) :=
      Nat.not_le.mp fun whole => nothing ⟨Nat.not_lt.mp short, whole⟩
    have length : (Head.ofBytes (buffer.take HEAD_SIZE)).length.toNat = announced buffer := rfl
    rw [if_neg short, unpackResumed, head]
    simp only [Option.bind_eq_bind, Option.bind_some, size, length]
    rw [if_pos incomplete]
    simp only [Int.natCast_zero, readsNothing, Option.bind_some, fits]
    exact ⟨_, rfl, by simp, List.append_nil _⟩

/-- The two ends do the same with a chunk that does not leave a packet. -/
theorem process_agree (enough : 2 ≤ fuel) (buffered : s.buffer.length ≤ BUFFER_CAPACITY)
    (single : ¬ LeavesPacket s.buffer unit.received) :
    tcpServerProcessRecv fuel unit s = processClientReceive unit s := by
  obtain ⟨fuel, rfl⟩ := Nat.exists_eq_add_of_le' enough
  have given : unit.received.length ≤ ENET_DEFAULT_SOCKET_BUFFER := by
    rw [← unit.room, List.length_append]
    exact Nat.le_add_right ..
  rw [tcpServerProcessRecv, unpackAll, processClientReceive]
  cases returns : unpackData unit.data unit.size s.buffer ENET_DEFAULT_SOCKET_BUFFER with
  | none => rfl
  | some r =>
      simp only [Option.bind_eq_bind, Option.bind_some]
      by_cases ok : r.status = .ok
      · obtain ⟨completes, rest⟩ := unpackData_completes given buffered returns ok
        obtain ⟨r', idle, refused, same⟩ := unpackData_idle ENET_DEFAULT_SOCKET_BUFFER
          (unpackData_buffer buffered returns) fun holds => single ⟨completes, rest ▸ holds⟩
        rw [if_neg (not_not_intro ok), if_neg (not_not_intro ok), unpackAll, idle]
        simp only [Option.bind_eq_bind, Option.bind_some, if_pos refused, same]
      · rw [if_pos ok, if_pos ok]

private theorem process_buffer (buffered : s.buffer.length ≤ BUFFER_CAPACITY) {s' : Inbound}
    (steps : processClientReceive unit s = some s') : s'.buffer.length ≤ BUFFER_CAPACITY := by
  obtain ⟨r, returns, steps⟩ := Option.bind_eq_some_iff.mp steps
  have inside := unpackData_buffer buffered returns
  split at steps <;> cases steps <;> exact inside

/-- What the client does with a chunk that the code can cope with. -/
theorem processClientReceive_yields {body : Nat} (headed : Headed s.buffer unit.received body)
    (sound : Sound s.buffer unit.received unit.stale body) :
    processClientReceive unit s = some
      (if s.buffer.length + unit.received.length < body + HEAD_SIZE + TAIL_SIZE then
        { s with buffer := s.buffer ++ unit.received }
      else ⟨leftover s.buffer unit.received body,
        s.delivered ++ [((s.buffer ++ unit.received).drop HEAD_SIZE).take body]⟩) := by
  have out : body ≤ ENET_DEFAULT_SOCKET_BUFFER := Nat.le_trans headed.short (by decide)
  obtain ⟨r, returns, yields⟩ := (unpackData_yields headed out).1 sound
  have returns : unpackData unit.data unit.size s.buffer ENET_DEFAULT_SOCKET_BUFFER = some r := returns
  rw [processClientReceive, returns]
  split at yields
  · next few =>
    obtain ⟨status, buffer⟩ := yields
    simp [few, status, buffer]
  · next whole =>
    obtain ⟨status, data, -, buffer⟩ := yields
    simp [whole, status, data, buffer]

/-- As long as no chunk leaves a packet, both ends are in the same state after each chunk. -/
theorem receive_agree (enough : 2 ≤ fuel) {units : List PacketUnit}
    (buffered : s.buffer.length ≤ BUFFER_CAPACITY)
    (single : Meets processClientReceive (fun unit s => ¬ LeavesPacket s.buffer unit.received) units s)
    (count : Nat) :
    run (tcpServerProcessRecv fuel) (units.take count) s = run processClientReceive (units.take count) s := by
  induction units generalizing s count with
  | nil => simp
  | cons unit units ih =>
      cases count with
      | zero => rfl
      | succ count =>
          obtain ⟨first, later⟩ := single
          rw [List.take_succ_cons, run, run, process_agree enough buffered first]
          cases steps : processClientReceive unit s with
          | none => rfl
          | some s' => exact ih (process_buffer buffered steps) (later s' steps) count

/-- What `enet_pack_data` makes of these bytes. -/
def packet (payload : Bytes) : Bytes := (packData payload (HEAD_SIZE + payload.length + TAIL_SIZE)).getD []

/-- The packet without data. -/
def emptyFrame : Bytes := packet []

/-- The bytes in a fresh packet unit. -/
def PacketUnit.fresh (received : Bytes) (few : received.length ≤ ENET_DEFAULT_SOCKET_BUFFER) : PacketUnit where
  received
  stale := List.replicate (ENET_DEFAULT_SOCKET_BUFFER - received.length) 0
  room := by
    rw [List.length_append, List.length_replicate]
    exact Nat.add_sub_cancel' few

/-- A part of a packet, its rest with the head of a second packet, and the rest of that. -/
def splitPackets : List PacketUnit :=
  [.fresh ((packet [7]).take 20) (by decide), .fresh ((packet [7]).drop 20 ++ (packet [8, 9]).take 18) (by decide),
    .fresh ((packet [8, 9]).drop 18) (by decide)]

/-- Both ends deliver the two packets. -/
theorem receive_agree_split :
    run (tcpServerProcessRecv 2) (splitPackets.take 3) Inbound.start =
        run processClientReceive (splitPackets.take 3) Inbound.start ∧
      run processClientReceive (splitPackets.take 3) Inbound.start = some ⟨[], [[7], [8, 9]]⟩ := by
  let part : PacketUnit := .fresh ((packet [7]).take 20) (by decide)
  let middle : PacketUnit := .fresh ((packet [7]).drop 20 ++ (packet [8, 9]).take 18) (by decide)
  let last : PacketUnit := .fresh ((packet [8, 9]).drop 18) (by decide)
  have collects : processClientReceive part Inbound.start = some ⟨(packet [7]).take 20, []⟩ :=
    (@processClientReceive_yields _ _ 1 ⟨by decide, by decide, by decide, by decide, by decide, by decide⟩
      ⟨.inl rfl, by decide⟩).trans (by decide)
  have delivers : processClientReceive middle ⟨(packet [7]).take 20, []⟩ = some ⟨(packet [8, 9]).take 18, [[7]]⟩ :=
    (@processClientReceive_yields _ _ 1 ⟨by decide, by decide, by decide, by decide, by decide, by decide⟩
      ⟨.inr (.inl (by decide)), by decide⟩).trans (by decide)
  have deliversLast : processClientReceive last ⟨(packet [8, 9]).take 18, [[7]]⟩ = some ⟨[], [[7], [8, 9]]⟩ :=
    (@processClientReceive_yields _ _ 2 ⟨by decide, by decide, by decide, by decide, by decide, by decide⟩
      ⟨.inr (.inl (by decide)), by decide⟩).trans (by decide)
  have single : Meets processClientReceive (fun unit s => ¬ LeavesPacket s.buffer unit.received) splitPackets
      Inbound.start := by
    refine ⟨fun leaves => absurd leaves.1.enough (by decide), fun s steps => ?_⟩
    obtain rfl : _ = s := Option.some.inj (collects.symm.trans steps)
    refine ⟨fun leaves => absurd leaves.2.2 (by decide), fun s steps => ?_⟩
    obtain rfl : _ = s := Option.some.inj (delivers.symm.trans steps)
    exact ⟨fun leaves => absurd leaves.2.1 (by decide), fun _ _ => trivial⟩
  refine ⟨@receive_agree Inbound.start 2 (Nat.le_refl 2) splitPackets (Nat.zero_le _) single 3, ?_⟩
  exact run_cons.mpr ⟨_, collects, run_cons.mpr ⟨_, delivers, run_cons.mpr ⟨_, deliversLast, rfl⟩⟩⟩

/-- The head of a packet, and its tail with a second packet. -/
def headChunk : PacketUnit := .fresh (emptyFrame.take 16) (by decide)

def restChunk : PacketUnit := .fresh (emptyFrame.drop 16 ++ emptyFrame) (by decide)

/-- The client leaves the second packet in its buffer. -/
theorem receive_disagree :
    run processClientReceive [headChunk, restChunk] Inbound.start = some ⟨emptyFrame, [[]]⟩ ∧
      run (tcpServerProcessRecv 3) [headChunk, restChunk] Inbound.start = some ⟨[], [[], []]⟩ := by
  have head : Headed [] (emptyFrame.take 16) 0 :=
    ⟨by decide, by decide, by decide, by decide, by decide, by decide⟩
  have both : Headed (emptyFrame.take 16) (emptyFrame.drop 16 ++ emptyFrame) 0 :=
    ⟨by decide, by decide, by decide, by decide, by decide, by decide⟩
  have collects : Yields [] (emptyFrame.take 16) headChunk.stale 0 ENET_DEFAULT_SOCKET_BUFFER :=
    (unpackData_yields head (Nat.zero_le _)).1 ⟨.inl rfl, by decide⟩
  have accepts : Yields (emptyFrame.take 16) (emptyFrame.drop 16 ++ emptyFrame) restChunk.stale 0
      ENET_DEFAULT_SOCKET_BUFFER :=
    (unpackData_yields both (Nat.zero_le _)).1 ⟨.inr (.inl (by decide)), by decide⟩
  obtain ⟨r, first, incomplete⟩ := collects
  obtain ⟨r', second, complete⟩ := accepts
  rw [if_pos (by decide)] at incomplete
  rw [if_neg (by decide)] at complete
  obtain ⟨status, buffer⟩ := incomplete
  obtain ⟨status', out', -, buffer'⟩ := complete
  have left : r'.buffer = emptyFrame := buffer'.trans (by decide)
  have noOutput : r'.out = [] := out'.trans (by decide)
  have last : unpackData [] 0 emptyFrame ENET_DEFAULT_SOCKET_BUFFER = some ⟨.ok, [], 0, []⟩ := by decide
  have idle : unpackData [] 0 [] ENET_DEFAULT_SOCKET_BUFFER =
      some ⟨.uncompletePacket, [], ENET_DEFAULT_SOCKET_BUFFER, []⟩ := by decide
  have first : unpackData headChunk.data headChunk.size [] ENET_DEFAULT_SOCKET_BUFFER = some r := first
  have second : unpackData restChunk.data restChunk.size r.buffer ENET_DEFAULT_SOCKET_BUFFER = some r' := by
    rw [buffer]
    exact second
  constructor
  · simp [run, processClientReceive, first, second, status, status', left, noOutput, Inbound.start]
  · simp [run, tcpServerProcessRecv, unpackAll, first, second, status, status', left, noOutput, last, idle,
      Inbound.start]

end Agree

end GbfLibrary.Enet
