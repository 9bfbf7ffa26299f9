import GbfLibrary.Enet.Ends

/-!
# A stream of packets in chunks

The packets of `enet_pack_data`, one after the other, cut into chunks that
`enet_tcp_server_process_recv` is given in order.
-/

set_option autoImplicit false

namespace GbfLibrary.Enet

open Memory Systems

def packetSize (payload : Bytes) : Nat := HEAD_SIZE + payload.length + TAIL_SIZE

def stream (payloads : List Bytes) : Bytes := payloads.flatMap packet

/-- A payload that fits into a packet unit together with its head and tail. -/
def Sized (payload : Bytes) : Prop := 1 ≤ payload.length ∧ payload.length ≤ 65512

instance (payload : Bytes) : Decidable (Sized payload) :=
  inferInstanceAs (Decidable (1 ≤ payload.length ∧ payload.length ≤ 65512))

section Packets

variable {payload rest b i : Bytes}

theorem packet_eq (payload : Bytes) : packet payload = (headFor (.ofNat 32 payload.length)).toBytes ++ payload ++
    (tailFor (headFor (.ofNat 32 payload.length))).toBytes := by
  rw [packet, packData_eq, if_neg (Nat.lt_irrefl _)]
  rfl

private theorem length_packet (payload : Bytes) : (packet payload).length = packetSize payload := by
  rw [packet_eq, List.length_append, List.length_append, length_headBytes, length_tailBytes]
  rfl

@[simp] theorem stream_nil : stream [] = [] := rfl

@[simp] theorem stream_cons (payloads : List Bytes) :
    stream (payload :: payloads) = packet payload ++ stream payloads := rfl

@[simp] theorem stream_append (first second : List Bytes) :
    stream (first ++ second) = stream first ++ stream second :=
  List.flatMap_append

private theorem append_bytes (word : BitVec 32) : word.extractLsb' 24 8 ++ word.extractLsb' 16 8 ++
    word.extractLsb' 8 8 ++ word.extractLsb' 0 8 = word := by
  ext k
  simp
  grind

private theorem Head.ofBytes_toBytes (head : Head) : Head.ofBytes head.toBytes = head := by
  simp only [Head.ofBytes, Head.toBytes, wordAt, ofWord, List.cons_append, List.nil_append, List.getD_cons_succ,
    List.getD_cons_zero, append_bytes]

/-- Bytes that go on with more bytes as a packet does. -/
theorem take_of_joined {after : Bytes} {count : Nat} (joined : b ++ i ++ rest = packet payload ++ after)
    (few : count ≤ packetSize payload) (there : count ≤ (b ++ i).length) :
    (b ++ i).take count = (packet payload).take count := by
  have long : count ≤ (packet payload).length := by rwa [length_packet]
  have front := congrArg (List.take count) joined
  rw [List.take_append_of_le_length there] at front
  rw [front, List.take_append_of_le_length long]

private theorem headed_of_joined {after : Bytes} (joined : b ++ i ++ rest = packet payload ++ after)
    (sized : Sized payload) (whole : HEAD_SIZE ≤ (b ++ i).length) (buffered : b.length ≤ ENET_DEFAULT_SOCKET_BUFFER)
    (given : i.length ≤ ENET_DEFAULT_SOCKET_BUFFER) : Headed b i payload.length := by
  have few : HEAD_SIZE ≤ packetSize payload := by
    rw [packetSize]
    omega
  have head : (b ++ i).take HEAD_SIZE = (headFor (.ofNat 32 payload.length)).toBytes := by
    rw [take_of_joined joined few whole, packet_eq, List.append_assoc, ← length_headBytes, List.take_left]
  have wide : payload.length < 4294967296 := Nat.lt_of_le_of_lt sized.2 (by decide)
  refine ⟨whole, ?_, ?_, sized.2, buffered, given⟩
  · rw [head, Head.ofBytes_toBytes, isHeadValid_iff]
    rfl
  · rw [head, Head.ofBytes_toBytes]
    exact Nat.mod_eq_of_lt wide

private theorem data_of_joined {after : Bytes} (joined : b ++ i ++ rest = packet payload ++ after)
    (complete : packetSize payload ≤ (b ++ i).length) :
    ((b ++ i).drop HEAD_SIZE).take payload.length = payload := by
  have few : HEAD_SIZE + payload.length ≤ packetSize payload := Nat.le_add_right _ _
  have front := congrArg (List.drop HEAD_SIZE) (take_of_joined joined few (Nat.le_trans few complete))
  rw [List.drop_take, List.drop_take, Nat.add_sub_cancel_left] at front
  rw [front, packet_eq, List.append_assoc, ← length_headBytes, List.drop_left, List.take_left]

private theorem rest_of_joined {after : Bytes} (joined : b ++ i ++ rest = packet payload ++ after)
    (complete : packetSize payload ≤ (b ++ i).length) :
    (b ++ i).drop (packetSize payload) ++ rest = after := by
  have back := congrArg (List.drop (packetSize payload)) joined
  rwa [List.drop_append_of_le_length complete, ← length_packet, List.drop_left, length_packet] at back

end Packets

/-- The buffer holds the beginning of what is to come, and no whole packet. -/
structure Expects (todo : List Bytes) (rest buffer : Bytes) : Prop where
  joined : buffer ++ rest = stream todo
  short : ∀ payload ∈ todo.head?, buffer.length < packetSize payload

/-- The first payloads were delivered, each once, and what was received of the others is in the buffer;
`rest` was not received yet. -/
def InStep (payloads : List Bytes) (rest : Bytes) (s : Inbound) : Prop :=
  ∃ todo, payloads = s.delivered ++ todo ∧ Expects todo rest s.buffer

/-- How a chunk of `given` bytes may lie in the packets to come, of whose first `buffered` bytes are in
the buffer. A chunk that starts within a head and ends behind it, but in the same packet, has at least
`HEAD_SIZE` bytes. A chunk that starts with a packet ends with it at the latest. Any other chunk ends at
the latest where the next packet ends. -/
def CleanChunk (buffered given : Nat) : List Bytes → Prop
  | [] => True
  | first :: more =>
      if buffered + given < packetSize first then
        buffered = 0 ∨ HEAD_SIZE ≤ buffered ∨ buffered + given ≤ HEAD_SIZE ∨ HEAD_SIZE ≤ given
      else if buffered = 0 then given = packetSize first
      else buffered + given ≤ packetSize first + (more.map packetSize).headD 0

/-- How many bytes stay in the buffer, and the payloads they belong to, with `left` bytes behind a packet. -/
def afterPacket (left : Nat) : List Bytes → Nat × List Bytes
  | [] => (left, [])
  | second :: others =>
      if left < packetSize second then (left, second :: others) else (left - packetSize second, others)

/-- The same after a chunk. -/
def afterChunk (buffered given : Nat) : List Bytes → Nat × List Bytes
  | [] => (buffered + given, [])
  | first :: more =>
      if buffered + given < packetSize first then (buffered + given, first :: more)
      else afterPacket (buffered + given - packetSize first) more

/-- All chunks of these sizes lie in the packets as they may. -/
def Clean : Nat → List Nat → List Bytes → Prop
  | _, [], _ => True
  | buffered, given :: sizes, todo =>
      CleanChunk buffered given todo ∧
        Clean (afterChunk buffered given todo).1 sizes (afterChunk buffered given todo).2

instance (buffered given : Nat) : (todo : List Bytes) → Decidable (CleanChunk buffered given todo)
  | [] => .isTrue trivial
  | first :: more => inferInstanceAs (Decidable (if buffered + given < packetSize first then
      buffered = 0 ∨ HEAD_SIZE ≤ buffered ∨ buffered + given ≤ HEAD_SIZE ∨ HEAD_SIZE ≤ given
      else if buffered = 0 then given = packetSize first
      else buffered + given ≤ packetSize first + (more.map packetSize).headD 0))

/-- What the server makes of a chunk that lies in the packets as it may. -/
structure Follows (s s' : Inbound) (rest : Bytes) (todo : List Bytes) (after : Nat × List Bytes) : Prop where
  delivered : s'.delivered ++ after.2 = s.delivered ++ todo
  expects : Expects after.2 rest s'.buffer
  length : s'.buffer.length = after.1

section Idle

variable {buffer : Bytes} {r : Unpacked} {s s' : Inbound} {fuel : Nat}

/-- A call without input and with a head in the buffer. -/
theorem unpackData_idle_resumes (head : HEAD_SIZE ≤ buffer.length) (outSize : Nat) :
    unpackData ([] ++ []) 0 buffer outSize = unpackResumed ([] ++ []) (0 : Nat) (unsigned ((0 : Nat) - (0 : Nat)))
      ((buffer ++ [] ++ []).take (buffer.length + 0)) outSize := by
  have filled : buffer.length ≠ 0 := Nat.ne_of_gt (Nat.lt_of_lt_of_le (by decide) head)
  simp only [List.append_nil, Nat.add_zero, List.take_length]
  rw [unpackData, if_neg fun both => filled both.1, if_neg filled, if_neg (Nat.not_lt.mpr head)]
  rfl

private theorem unpackData_idle_refused {outSize : Nat} (small : buffer.length ≤ BUFFER_CAPACITY)
    (returns : unpackData [] 0 buffer outSize = some r) (refused : r.status ≠ .ok) : r.buffer = buffer := by
  by_cases holds : HoldsPacket buffer
  · obtain ⟨head, complete⟩ := holds
    have capacity : BUFFER_CAPACITY = 65560 := rfl
    have size : unsigned (unsigned ((0 : Nat) - (0 : Nat)) + buffer.length) = buffer.length := by
      simp only [unsigned]
      omega
    rw [← List.append_nil [], unpackData_idle_resumes head] at returns
    obtain ⟨bytes, reads, returns⟩ := Option.bind_eq_some_iff.mp returns
    have length : (Head.ofBytes bytes).length.toNat = announced buffer := by
      rw [eq_of_read reads]
      simp [announced]
    simp only [length, List.append_nil, Nat.add_zero, List.take_length, size] at returns
    rw [if_neg (Nat.not_lt.mpr complete)] at returns
    obtain ⟨_, _, returns⟩ := Option.bind_eq_some_iff.mp returns
    split at returns
    · obtain ⟨_, _, returns⟩ := Option.bind_eq_some_iff.mp returns
      obtain ⟨_, _, returns⟩ := Option.bind_eq_some_iff.mp returns
      cases returns
      exact absurd rfl refused
    · cases returns
      exact absurd rfl refused
  · obtain ⟨r', idle, _, same⟩ := unpackData_idle outSize small holds
    rw [returns] at idle
    cases idle
    exact same

/-- A call without input that delivers a packet. -/
theorem unpackData_idle_ok (small : buffer.length ≤ ENET_DEFAULT_SOCKET_BUFFER)
    (returns : unpackData [] 0 buffer ENET_DEFAULT_SOCKET_BUFFER = some r) (ok : r.status = .ok) :
    packetSize r.out + r.buffer.length = buffer.length := by
  obtain ⟨headSize, tailSize, bufferSize⟩ := sizes
  have capacity : BUFFER_CAPACITY = 65560 := rfl
  have room : buffer.length ≤ BUFFER_CAPACITY := by omega
  rw [← List.append_nil []] at returns
  obtain ⟨⟨_, enough, _, buffered⟩, _⟩ := unpackData_completes (Nat.zero_le _) room returns ok
  simp only [List.append_nil, List.length_nil, Nat.add_zero] at enough buffered
  have head : HEAD_SIZE ≤ buffer.length := by omega
  have cut : Cut buffer [] [] 0 (announced buffer) :=
    ⟨head, Nat.zero_le _, Nat.zero_le _, by simpa using head, small, Nat.zero_le _, by simp [announced], by omega⟩
  have yields := unpackResumed_complete cut (by simpa using enough)
    (show announced buffer ≤ ENET_DEFAULT_SOCKET_BUFFER by omega)
  rw [if_pos buffered] at yields
  rw [unpackData_idle_resumes head] at returns
  cases returns.symm.trans yields
  simp only [packetSize, List.append_nil, List.length_take, List.length_drop]
  omega

/-- The bytes that the packets of the delivered payloads and the buffer take up. -/
def weight (s : Inbound) : Nat := (stream s.delivered).length + s.buffer.length

/-- Without input no byte is lost or counted twice. -/
theorem unpackAll_weight (small : s.buffer.length ≤ ENET_DEFAULT_SOCKET_BUFFER)
    (steps : unpackAll fuel [] 0 s = some s') : weight s' = weight s := by
  induction fuel generalizing s with
  | zero => cases steps
  | succ fuel ih =>
      have capacity : BUFFER_CAPACITY = 65560 := rfl
      have bufferSize : ENET_DEFAULT_SOCKET_BUFFER = 65536 := rfl
      obtain ⟨r, returns, steps⟩ := Option.bind_eq_some_iff.mp steps
      split at steps
      · next refused =>
        cases steps
        rw [weight, weight, unpackData_idle_refused (by omega) returns refused]
      · next accepted =>
        have consumed := unpackData_idle_ok small returns (not_not.mp accepted)
        rw [ih (by simp only; omega) steps]
        simp only [weight, stream_append, stream_cons, stream_nil, List.append_nil, List.length_append,
          length_packet]
        omega

/-- The loop ends with a call that finds no packet. -/
theorem unpackAll_idle (enough : 0 < fuel) (small : s.buffer.length ≤ BUFFER_CAPACITY)
    (nothing : ¬ HoldsPacket s.buffer) : unpackAll fuel [] 0 s = some s := by
  obtain ⟨fuel, rfl⟩ := Nat.exists_eq_succ_of_ne_zero (Nat.ne_of_gt enough)
  obtain ⟨r, idle, refused, same⟩ := unpackData_idle ENET_DEFAULT_SOCKET_BUFFER small nothing
  rw [unpackAll, idle]
  simp only [Option.bind_eq_bind, Option.bind_some, if_pos refused, same]
  rfl

end Idle

section Chunks

variable {s s' : Inbound} {rest : Bytes} {todo : List Bytes} {unit : PacketUnit} {fuel : Nat}

/-- No packet is whole in the beginning of one. -/
theorem Expects.nothing (expects : Expects todo rest s.buffer) (sized : ∀ payload ∈ todo, Sized payload) :
    s.buffer.length ≤ ENET_DEFAULT_SOCKET_BUFFER ∧ ¬ HoldsPacket s.buffer := by
  obtain ⟨headSize, tailSize, bufferSize⟩ := sizes
  obtain ⟨joined, short⟩ := expects
  cases todo with
  | nil =>
      have empty : s.buffer = [] := (List.append_eq_nil_iff.mp joined).1
      rw [empty]
      exact ⟨Nat.zero_le _, fun holds => absurd holds.1 (by decide)⟩
  | cons first more =>
      have less := short first rfl
      have fits := (sized first List.mem_cons_self).2
      have small : s.buffer.length ≤ ENET_DEFAULT_SOCKET_BUFFER := by
        rw [packetSize] at less
        omega
      refine ⟨small, ?_⟩
      rintro ⟨head, complete⟩
      have headed : Headed s.buffer [] first.length :=
        headed_of_joined (by simpa using joined) (sized first List.mem_cons_self) (by simpa using head) small
          (Nat.zero_le _)
      have length : announced s.buffer = first.length := by simpa [announced] using headed.announced
      rw [length] at complete
      simp only [packetSize, unsigned] at less complete
      omega

/-- What the loop makes of the bytes behind a packet. -/
theorem unpackAll_after (joined : s.buffer ++ rest = stream todo) (sized : ∀ payload ∈ todo, Sized payload)
    (small : s.buffer.length ≤ ENET_DEFAULT_SOCKET_BUFFER) (enough : 2 ≤ fuel) :
    (s.buffer.length ≤ (todo.map packetSize).headD 0 →
        ∃ s', unpackAll fuel [] 0 s = some s' ∧ Follows s s' rest todo (afterPacket s.buffer.length todo)) ∧
      ((todo.map packetSize).headD 0 < s.buffer.length → unpackAll fuel [] 0 s = none) := by
  obtain ⟨headSize, tailSize, bufferSize⟩ := sizes
  have capacity : BUFFER_CAPACITY = 65560 := rfl
  cases todo with
  | nil =>
      have empty : s.buffer = [] := (List.append_eq_nil_iff.mp joined).1
      have expects : Expects [] rest s.buffer := ⟨joined, nofun⟩
      constructor
      · intro _
        obtain ⟨_, nothing⟩ := expects.nothing sized
        exact ⟨s, unpackAll_idle (by omega) (by omega) nothing, rfl, expects, by simp [afterPacket]⟩
      · intro less
        rw [empty] at less
        exact absurd less (Nat.lt_irrefl 0)
  | cons second others =>
      have fits := sized second List.mem_cons_self
      simp only [List.map_cons, List.headD_cons, afterPacket]
      by_cases less : s.buffer.length < packetSize second
      · have expects : Expects (second :: others) rest s.buffer :=
          ⟨joined, fun payload head => by cases head; exact less⟩
        obtain ⟨_, nothing⟩ := expects.nothing sized
        refine ⟨fun _ => ⟨s, unpackAll_idle (by omega) (by omega) nothing, ?_⟩, fun more => by omega⟩
        rw [if_pos less]
        exact ⟨rfl, expects, rfl⟩
      · have complete : packetSize second ≤ s.buffer.length := Nat.not_lt.mp less
        have joined' : s.buffer ++ [] ++ rest = packet second ++ stream others := by simpa using joined
        have complete' : packetSize second ≤ (s.buffer ++ []).length := by simpa using complete
        have headed : Headed s.buffer [] second.length :=
          headed_of_joined joined' fits (Nat.le_trans (by rw [packetSize]; omega) complete') small (Nat.zero_le _)
        obtain ⟨yields, faults⟩ : YieldsIff (Sound s.buffer [] [] second.length) s.buffer [] [] second.length
            ENET_DEFAULT_SOCKET_BUFFER := unpackData_yields headed (Nat.le_trans fits.2 (by decide))
        rw [packetSize] at complete
        obtain ⟨fuel, rfl⟩ := Nat.exists_eq_add_of_le' enough
        constructor
        · intro most
          have size : s.buffer.length = packetSize second := Nat.le_antisymm most (Nat.not_lt.mp less)
          rw [packetSize] at most
          obtain ⟨r, returns, what⟩ := yields ⟨.inr (.inl (by omega)), by omega⟩
          rw [if_neg (by simp only [List.length_nil]; omega), data_of_joined joined' complete'] at what
          obtain ⟨ok, out, _, left⟩ := what
          have drained : r.buffer = [] := by
            rw [left, leftover, if_neg (by simp), List.append_nil]
            exact List.drop_of_length_le (by omega)
          have behind := rest_of_joined joined' complete'
          rw [List.append_nil, List.drop_of_length_le (Nat.le_of_eq size), List.nil_append] at behind
          have idle : unpackAll (fuel + 1) [] 0 ⟨[], s.delivered ++ [second]⟩ =
              some ⟨[], s.delivered ++ [second]⟩ :=
            unpackAll_idle (Nat.succ_pos fuel) (Nat.zero_le _) fun holds => absurd holds.1 (show ¬ HEAD_SIZE ≤ 0 by decide)
          rw [if_neg less, size, Nat.sub_self]
          refine ⟨⟨[], s.delivered ++ [second]⟩, ?_, ?_, ⟨behind, ?_⟩, rfl⟩
          · rw [unpackAll]
            rw [List.append_nil, List.length_nil] at returns
            rw [returns]
            simp only [Option.bind_eq_bind, Option.bind_some, ok, drained, out, ne_eq, not_true_eq_false, if_false, idle]
          · simp
          · intro payload _
            rw [packetSize]
            simp only [List.length_nil]
            omega
        · intro more
          rw [packetSize] at more
          have faulted := faults fun sound => by
            have inside := sound.rest
            omega
          rw [List.append_nil, List.length_nil] at faulted
          rw [unpackAll, faulted]
          rfl

private theorem PacketUnit.size_le (unit : PacketUnit) : unit.received.length ≤ ENET_DEFAULT_SOCKET_BUFFER := by
  rw [← unit.room, List.length_append]
  exact Nat.le_add_right ..

/-- A chunk that ends in the first packet is added to the buffer, or the call is a fault. -/
theorem process_incomplete {first : Bytes} {more : List Bytes}
    (expects : Expects (first :: more) (unit.received ++ rest) s.buffer) (sized : Sized first)
    (less : s.buffer.length + unit.size < packetSize first) :
    (CleanChunk s.buffer.length unit.size (first :: more) →
        tcpServerProcessRecv (fuel + 1) unit s = some ⟨s.buffer ++ unit.received, s.delivered⟩) ∧
      (¬ CleanChunk s.buffer.length unit.size (first :: more) → tcpServerProcessRecv (fuel + 1) unit s = none) := by
  obtain ⟨headSize, tailSize, bufferSize⟩ := sizes
  have short := expects.short first rfl
  have fits := sized.2
  have given := unit.size_le
  rw [CleanChunk, if_pos less]
  rw [packetSize] at short less
  simp only [PacketUnit.size] at less ⊢
  have collects : ∀ r, unpackData unit.data unit.size s.buffer ENET_DEFAULT_SOCKET_BUFFER = some r →
      r.status = .uncompletePacket → r.buffer = s.buffer ++ unit.received →
      tcpServerProcessRecv (fuel + 1) unit s = some ⟨s.buffer ++ unit.received, s.delivered⟩ := by
    intro r returns status buffer
    rw [tcpServerProcessRecv, unpackAll, returns]
    simp [status, buffer]
  by_cases few : s.buffer.length + unit.received.length < HEAD_SIZE
  · constructor
    · intro _
      obtain ⟨r, returns, status, buffer⟩ := unpackData_few unit.stale ENET_DEFAULT_SOCKET_BUFFER few
      exact collects r returns status buffer
    · intro unclean
      exact absurd (.inr (.inr (.inl (Nat.le_of_lt few)))) unclean
  · have joined : s.buffer ++ unit.received ++ rest = packet first ++ stream more := by
      rw [List.append_assoc]
      exact expects.joined
    have headed : Headed s.buffer unit.received first.length :=
      headed_of_joined joined sized (by rw [List.length_append]; omega) (by omega) given
    obtain ⟨yields, faults⟩ : YieldsIff (Sound s.buffer unit.received unit.stale first.length) s.buffer unit.received
        unit.stale first.length ENET_DEFAULT_SOCKET_BUFFER := unpackData_yields headed (by omega)
    constructor
    · intro clean
      obtain ⟨r, returns, what⟩ := yields ⟨by rw [← List.length_eq_zero_iff]; omega, by omega⟩
      rw [if_pos (by omega)] at what
      exact collects r returns what.1 what.2
    · intro unclean
      have faulted : unpackData unit.data unit.size s.buffer ENET_DEFAULT_SOCKET_BUFFER = none := by
        apply faults
        rintro ⟨head, _⟩
        apply unclean
        rw [← List.length_eq_zero_iff] at head
        omega
      rw [tcpServerProcessRecv, unpackAll, faulted]
      rfl

private theorem process_complete {first : Bytes} {more : List Bytes}
    (expects : Expects (first :: more) (unit.received ++ rest) s.buffer) (sized : Sized first)
    (complete : packetSize first ≤ s.buffer.length + unit.size) :
    tcpServerProcessRecv (fuel + 1) unit s =
      unpackAll fuel [] 0 ⟨leftover s.buffer unit.received first.length, s.delivered ++ [first]⟩ := by
  obtain ⟨headSize, tailSize, bufferSize⟩ := sizes
  have short := expects.short first rfl
  have fits := sized.2
  have given := unit.size_le
  have room := unit.room
  have complete' : packetSize first ≤ (s.buffer ++ unit.received).length := by
    rwa [List.length_append]
  have joined : s.buffer ++ unit.received ++ rest = packet first ++ stream more := by
    rw [List.append_assoc]
    exact expects.joined
  rw [packetSize] at short
  have headed : Headed s.buffer unit.received first.length :=
    headed_of_joined joined sized (Nat.le_trans (by rw [packetSize]; omega) complete') (by omega) given
  have data := data_of_joined joined complete'
  rw [packetSize, PacketUnit.size] at complete
  obtain ⟨r, returns, what⟩ : Yields s.buffer unit.received unit.stale first.length ENET_DEFAULT_SOCKET_BUFFER :=
    (unpackData_yields headed (by omega)).1 ⟨.inr (.inr (.inr (.inr ⟨by omega, by omega⟩))), by omega⟩
  rw [if_neg (by omega), data] at what
  obtain ⟨ok, out, _, left⟩ := what
  rw [tcpServerProcessRecv, unpackAll, show unpackData unit.data unit.size s.buffer _ = some r from returns]
  simp only [Option.bind_eq_bind, Option.bind_some, ok, ne_eq, not_true_eq_false, if_false, left, out]

/-- The bytes of the packets that are still to come. -/
theorem InStep.weight {payloads : List Bytes} (inStep : InStep payloads rest s) :
    Enet.weight s + rest.length = (stream payloads).length := by
  obtain ⟨todo, rfl, expects⟩ := inStep
  have lengths := congrArg List.length expects.joined
  rw [List.length_append] at lengths
  rw [stream_append, List.length_append, Enet.weight, ← lengths]
  omega

/-- A packet is to come as long as there are bytes to come. -/
theorem Expects.exists_cons (expects : Expects todo (unit.received ++ rest) s.buffer)
    (nonempty : unit.received ≠ []) : ∃ first more, todo = first :: more := by
  cases todo with
  | nil =>
      have nothing := (List.append_eq_nil_iff.mp expects.joined).2
      exact absurd (List.append_eq_nil_iff.mp nothing).1 nonempty
  | cons first more => exact ⟨first, more, rfl⟩

private theorem leftover_eq {b i : Bytes} {payload : Bytes} (short : b = [] → i.length ≤ packetSize payload) :
    leftover b i payload.length = (b ++ i).drop (packetSize payload) := by
  have size : payload.length + HEAD_SIZE + TAIL_SIZE = packetSize payload := by
    rw [packetSize]
    omega
  rw [leftover, size]
  apply if_neg
  rintro ⟨empty, more⟩
  exact absurd more (Nat.not_lt.mpr (short empty))

/-- The server keeps in step with a chunk that lies in the packets as it may. -/
theorem process_clean (expects : Expects todo (unit.received ++ rest) s.buffer)
    (sized : ∀ payload ∈ todo, Sized payload) (nonempty : unit.received ≠ []) (enough : 3 ≤ fuel)
    (clean : CleanChunk s.buffer.length unit.size todo) :
    ∃ s', tcpServerProcessRecv fuel unit s = some s' ∧
      Follows s s' rest todo (afterChunk s.buffer.length unit.size todo) := by
  obtain ⟨fuel, rfl⟩ := Nat.exists_eq_add_of_le' enough
  obtain ⟨first, more, rfl⟩ := expects.exists_cons nonempty
  have fits := sized first List.mem_cons_self
  rw [afterChunk]
  by_cases less : s.buffer.length + unit.size < packetSize first
  · refine ⟨_, (process_incomplete expects fits less).1 clean, ?_⟩
    rw [if_pos less]
    refine ⟨rfl, ⟨?_, ?_⟩, List.length_append⟩
    · rw [List.append_assoc]
      exact expects.joined
    · intro payload head
      cases head
      rwa [List.length_append]
  · have complete := Nat.not_lt.mp less
    have given := unit.size_le
    have short := expects.short first rfl
    have joined : s.buffer ++ unit.received ++ rest = packet first ++ stream more := by
      rw [List.append_assoc]
      exact expects.joined
    rw [CleanChunk, if_neg less] at clean
    have left : leftover s.buffer unit.received first.length =
        (s.buffer ++ unit.received).drop (packetSize first) := by
      apply leftover_eq
      intro empty
      rw [empty, List.length_nil, if_pos rfl] at clean
      exact Nat.le_of_eq clean
    have size : ((s.buffer ++ unit.received).drop (packetSize first)).length =
        s.buffer.length + unit.size - packetSize first := by
      rw [List.length_drop, List.length_append]
      rfl
    have most : s.buffer.length + unit.size - packetSize first ≤ (more.map packetSize).headD 0 := by
      split at clean <;> omega
    rw [← size] at most
    have small : ((s.buffer ++ unit.received).drop (packetSize first)).length ≤ ENET_DEFAULT_SOCKET_BUFFER := by
      rw [size, PacketUnit.size]
      omega
    obtain ⟨s', goes, follows⟩ := (unpackAll_after (s := ⟨(s.buffer ++ unit.received).drop (packetSize first),
      s.delivered ++ [first]⟩) (rest_of_joined joined (by rwa [List.length_append]))
      (fun payload member => sized payload (List.mem_cons_of_mem first member)) small
      (show 2 ≤ fuel + 2 by omega)).1 most
    refine ⟨s', ?_, ?_⟩
    · rw [process_complete expects fits complete, left, goes]
    · rw [if_neg less, ← size]
      refine ⟨?_, follows.expects, follows.length⟩
      have delivered := follows.delivered
      simpa using delivered

/-- The server does not keep in step with any other chunk. -/
theorem process_unclean (expects : Expects todo (unit.received ++ rest) s.buffer)
    (sized : ∀ payload ∈ todo, Sized payload) (nonempty : unit.received ≠ []) (enough : 3 ≤ fuel)
    (unclean : ¬ CleanChunk s.buffer.length unit.size todo)
    (goes : tcpServerProcessRecv fuel unit s = some s') : ¬ InStep (s.delivered ++ todo) rest s' := by
  obtain ⟨fuel, rfl⟩ := Nat.exists_eq_add_of_le' enough
  obtain ⟨first, more, rfl⟩ := expects.exists_cons nonempty
  have fits := sized first List.mem_cons_self
  by_cases less : s.buffer.length + unit.size < packetSize first
  · rw [(process_incomplete expects fits less).2 unclean] at goes
    cases goes
  · have complete := Nat.not_lt.mp less
    have given := unit.size_le
    have short := expects.short first rfl
    rw [CleanChunk, if_neg less] at unclean
    rw [process_complete expects fits complete] at goes
    by_cases empty : s.buffer = []
    · intro inStep
      have lengths := congrArg List.length expects.joined
      rw [empty, List.length_nil, if_pos rfl] at unclean
      rw [empty, List.length_nil, Nat.zero_add] at complete
      have size : (leftover s.buffer unit.received first.length).length =
          unit.size - (HEAD_SIZE + first.length) := by
        rw [leftover, if_pos, List.length_drop]
        · rfl
        · refine ⟨empty, ?_⟩
          rw [packetSize] at complete unclean
          rw [PacketUnit.size] at complete unclean
          omega
      have small : (leftover s.buffer unit.received first.length).length ≤ ENET_DEFAULT_SOCKET_BUFFER := by
        rw [size, PacketUnit.size]
        omega
      have same := unpackAll_weight small goes
      have total := inStep.weight
      rw [same, weight] at total
      dsimp only at total
      rw [size] at total
      simp only [empty, stream_append, stream_cons, stream_nil, List.append_nil, List.nil_append,
        List.length_append, length_packet, packetSize, PacketUnit.size] at total lengths complete
      have tailSize : TAIL_SIZE = 8 := rfl
      omega
    · have filled : s.buffer.length ≠ 0 := by simpa using empty
      rw [if_neg filled] at unclean
      have joined : s.buffer ++ unit.received ++ rest = packet first ++ stream more := by
        rw [List.append_assoc]
        exact expects.joined
      have size : ((s.buffer ++ unit.received).drop (packetSize first)).length =
          s.buffer.length + unit.size - packetSize first := by
        rw [List.length_drop, List.length_append]
        rfl
      have most : (more.map packetSize).headD 0 <
          ((s.buffer ++ unit.received).drop (packetSize first)).length := by
        rw [size]
        omega
      have small : ((s.buffer ++ unit.received).drop (packetSize first)).length ≤ ENET_DEFAULT_SOCKET_BUFFER := by
        rw [size, PacketUnit.size]
        omega
      have faulted := (unpackAll_after (s := ⟨(s.buffer ++ unit.received).drop (packetSize first),
        s.delivered ++ [first]⟩) (rest_of_joined joined (by rwa [List.length_append]))
        (fun payload member => sized payload (List.mem_cons_of_mem first member)) small
        (show 2 ≤ fuel + 2 by omega)).2 most
      rw [leftover_eq fun nil => absurd nil empty, faulted] at goes
      cases goes

private theorem mem_of_mem_afterChunk {buffered given : Nat} {payload : Bytes}
    (member : payload ∈ (afterChunk buffered given todo).2) : payload ∈ todo := by
  cases todo with
  | nil => exact member
  | cons first more =>
      rw [afterChunk] at member
      split at member
      · exact member
      · cases more with
        | nil => cases member
        | cons second others =>
            rw [afterPacket] at member
            split at member
            · exact List.mem_cons_of_mem first member
            · exact List.mem_cons_of_mem first (List.mem_cons_of_mem second member)

/-- The server is in step after each chunk if and only if all chunks lie in the packets as they may. -/
theorem inStep_iff {units : List PacketUnit}
    (expects : Expects todo (units.flatMap PacketUnit.received) s.buffer)
    (sized : ∀ payload ∈ todo, Sized payload) (nonempty : ∀ unit ∈ units, unit.received ≠ []) (enough : 3 ≤ fuel) :
    Clean s.buffer.length (units.map PacketUnit.size) todo ↔
      ∀ count, ∃ s', run (tcpServerProcessRecv fuel) (units.take count) s = some s' ∧
        InStep (s.delivered ++ todo) ((units.drop count).flatMap PacketUnit.received) s' := by
  induction units generalizing s todo with
  | nil =>
      refine ⟨fun _ count => ⟨s, ?_, todo, rfl, ?_⟩, fun _ => trivial⟩
      · rw [List.take_nil]
        rfl
      · rwa [List.drop_nil]
  | cons unit units ih =>
      have received := nonempty unit List.mem_cons_self
      have later : ∀ other ∈ units, other.received ≠ [] :=
        fun other member => nonempty other (List.mem_cons_of_mem unit member)
      rw [List.map_cons, Clean]
      by_cases clean : CleanChunk s.buffer.length unit.size todo
      · obtain ⟨s', goes, follows⟩ := process_clean expects sized received enough clean
        have rest := ih follows.expects (fun payload member => sized payload (mem_of_mem_afterChunk member)) later
        rw [follows.length, follows.delivered] at rest
        rw [and_iff_right clean, rest]
        constructor
        · intro inStep count
          cases count with
          | zero => exact ⟨s, rfl, todo, rfl, expects⟩
          | succ count =>
              obtain ⟨after, runs, there⟩ := inStep count
              exact ⟨after, run_cons.mpr ⟨s', goes, runs⟩, there⟩
        · intro inStep count
          obtain ⟨after, runs, there⟩ := inStep (count + 1)
          obtain ⟨between, goes', runs⟩ := run_cons.mp runs
          cases goes.symm.trans goes'
          exact ⟨after, runs, there⟩
      · refine iff_of_false (fun both => clean both.1) fun inStep => ?_
        obtain ⟨after, runs, there⟩ := inStep 1
        obtain ⟨between, goes, stays⟩ := run_cons.mp runs
        cases stays
        exact process_unclean expects sized received enough clean goes there

theorem InStep.all {payloads : List Bytes} (inStep : InStep payloads [] s) : s = ⟨[], payloads⟩ := by
  obtain ⟨todo, rfl, joined, short⟩ := inStep
  rw [List.append_nil] at joined
  cases todo with
  | nil =>
      obtain ⟨buffer, delivered⟩ := s
      obtain rfl : buffer = [] := joined
      simp
  | cons first more =>
      have less := short first rfl
      rw [joined, stream_cons, List.length_append, length_packet] at less
      omega

/-- The packets of any payloads in any chunks: the server is in step with them after each chunk if and only
if the chunks lie in the packets as they may, and then it delivers the payloads and keeps nothing. -/
theorem stream_received_iff (payloads : List Bytes) (sized : ∀ payload ∈ payloads, Sized payload)
    (units : List PacketUnit) (nonempty : ∀ unit ∈ units, unit.received ≠ [])
    (cut : units.flatMap PacketUnit.received = stream payloads) (fuel : Nat) (enough : 3 ≤ fuel) :
    (Clean 0 (units.map PacketUnit.size) payloads ↔
        ∀ count, ∃ s, run (tcpServerProcessRecv fuel) (units.take count) Inbound.start = some s ∧
          InStep payloads ((units.drop count).flatMap PacketUnit.received) s) ∧
      (Clean 0 (units.map PacketUnit.size) payloads →
        run (tcpServerProcessRecv fuel) units Inbound.start = some ⟨[], payloads⟩) := by
  have expects : Expects payloads (units.flatMap PacketUnit.received) Inbound.start.buffer := by
    refine ⟨cut, fun payload _ => ?_⟩
    have tailSize : TAIL_SIZE = 8 := rfl
    simp only [Inbound.start, List.length_nil, packetSize]
    omega
  have always := inStep_iff (s := Inbound.start) expects sized nonempty enough
  refine ⟨always, fun clean => ?_⟩
  obtain ⟨s, runs, inStep⟩ := always.mp clean units.length
  rw [List.take_length] at runs
  rw [List.drop_length] at inStep
  rw [runs, inStep.all]
  rfl

/-- Two packets, each in a chunk of its own. -/
theorem stream_received_iff_two :
    let units : List PacketUnit := [.fresh (packet [7]) (by decide), .fresh (packet [8]) (by decide)]
    (Clean 0 (units.map PacketUnit.size) [[7], [8]] ↔
        ∀ count, ∃ s, run (tcpServerProcessRecv 3) (units.take count) Inbound.start = some s ∧
          InStep [[7], [8]] ((units.drop count).flatMap PacketUnit.received) s) ∧
      (Clean 0 (units.map PacketUnit.size) [[7], [8]] →
        run (tcpServerProcessRecv 3) units Inbound.start = some ⟨[], [[7], [8]]⟩) :=
  stream_received_iff [[7], [8]] (by decide) _ (by decide) (by decide) 3 (Nat.le_refl 3)

/-- Two packets in one chunk are not delivered as they should be. -/
theorem stream_not_received :
    let units : List PacketUnit := [.fresh (stream [[7], [8]]) (by decide)]
    (∀ payload ∈ [[7], [8]], Sized payload) ∧ (∀ unit ∈ units, unit.received ≠ []) ∧
      units.flatMap PacketUnit.received = stream [[7], [8]] ∧
      run (tcpServerProcessRecv 3) units Inbound.start ≠ some ⟨[], [[7], [8]]⟩ := by
  intro units
  have sized : ∀ payload ∈ [[7], [8]], Sized payload := by decide
  refine ⟨sized, by decide, by decide, fun runs => ?_⟩
  obtain ⟨s, goes, stays⟩ := run_cons.mp runs
  cases stays
  have expects : Expects [[7], [8]] ((PacketUnit.fresh (stream [[7], [8]]) (by decide)).received ++ [])
      Inbound.start.buffer := by
    refine ⟨by decide, fun payload head => ?_⟩
    cases head
    decide
  refine process_unclean expects sized (by decide) (Nat.le_refl 3) (by decide) goes ⟨[], ?_, rfl, nofun⟩
  rfl

end Chunks

end GbfLibrary.Enet
