import GbfLibrary.Enet.Unpack
import GbfLibrary.Systems.Run

/-!
# The two ends that receive packets

`enet_process_client_receive` and `enet_tcp_server_process_recv` on an object that uses
packets. Both hand each chunk to `enet_unpack_data`; the server goes on until no packet is
complete.
-/

set_option autoImplicit false

namespace GbfLibrary.Enet

open Memory Systems

/-- A packet unit with a chunk. What an earlier chunk has left in `data` lies behind it. -/
structure PacketUnit where
  received : Bytes
  stale : Bytes
  room : (received ++ stale).length = ENET_DEFAULT_SOCKET_BUFFER
  deriving DecidableEq

def PacketUnit.data (unit : PacketUnit) : Bytes := unit.received ++ unit.stale

def PacketUnit.size (unit : PacketUnit) : Nat := unit.received.length

/-- The reassembly buffer of a connection, and what the receive callback was given so far. -/
structure Inbound where
  buffer : Bytes
  delivered : List Bytes
  deriving DecidableEq

def Inbound.start : Inbound := ⟨[], []⟩

/-- `enet_process_client_receive`. -/
def processClientReceive (unit : PacketUnit) (s : Inbound) : Option Inbound := do
  let r ← unpackData unit.data unit.size s.buffer ENET_DEFAULT_SOCKET_BUFFER
  if r.status ≠ .ok then return { s with buffer := r.buffer }
  else return ⟨r.buffer, s.delivered ++ [r.out]⟩

/-- The loop of `enet_tcp_server_process_recv`. -/
def unpackAll : Nat → Bytes → Nat → Inbound → Option Inbound
  | 0, _, _, _ => none
  | fuel + 1, input, size, s => do
    let r ← unpackData input size s.buffer ENET_DEFAULT_SOCKET_BUFFER
    if r.status ≠ .ok then return { s with buffer := r.buffer }
    else unpackAll fuel [] 0 ⟨r.buffer, s.delivered ++ [r.out]⟩

/-- `enet_tcp_server_process_recv`. -/
def tcpServerProcessRecv (fuel : Nat) (unit : PacketUnit) (s : Inbound) : Option Inbound :=
  unpackAll fuel unit.data unit.size s

/-- Which end of a connection receives. -/
inductive Peer where
  | client
  | server (fuel : Nat)

def Peer.process : Peer → PacketUnit → Inbound → Option Inbound
  | client => processClientReceive
  | server fuel => tcpServerProcessRecv fuel

section Corrupt

variable {b i : Bytes} {outSize : Nat} {r : Unpacked} {unit : PacketUnit} {s : Inbound}

/-- A head that is completed in the buffer is not checked. -/
theorem unpackResumed_status {base size : Nat}
    (returns : unpackResumed i base size b outSize = some r) : r.status ≠ .dataCorrupt := by
  obtain ⟨bytes, _, returns⟩ := Option.bind_eq_some_iff.mp returns
  simp only at returns
  split at returns
  · obtain ⟨_, _, returns⟩ := Option.bind_eq_some_iff.mp returns
    obtain ⟨_, _, returns⟩ := Option.bind_eq_some_iff.mp returns
    cases returns
    simp
  · obtain ⟨_, _, returns⟩ := Option.bind_eq_some_iff.mp returns
    split at returns
    · obtain ⟨_, _, returns⟩ := Option.bind_eq_some_iff.mp returns
      obtain ⟨_, _, returns⟩ := Option.bind_eq_some_iff.mp returns
      cases returns
      simp
    · cases returns
      simp

/-- With bytes in the buffer nothing is refused. -/
theorem unpackData_status {size : Nat} (nonempty : b ≠ [])
    (returns : unpackData i size b outSize = some r) : r.status ≠ .dataCorrupt := by
  have filled : b.length ≠ 0 := by simpa using nonempty
  rw [unpackData, if_neg fun both => filled both.1, if_neg filled] at returns
  split at returns
  · split at returns
    · obtain ⟨_, _, returns⟩ := Option.bind_eq_some_iff.mp returns
      obtain ⟨_, _, returns⟩ := Option.bind_eq_some_iff.mp returns
      cases returns
      simp
    · obtain ⟨_, _, returns⟩ := Option.bind_eq_some_iff.mp returns
      obtain ⟨_, _, returns⟩ := Option.bind_eq_some_iff.mp returns
      exact unpackResumed_status returns
  · exact unpackResumed_status returns

/-- Bytes that do not complete a head are added to the buffer. -/
theorem unpackData_few (junk : Bytes) (outSize : Nat) (few : b.length + i.length < HEAD_SIZE) :
    ∃ r, unpackData (i ++ junk) i.length b outSize = some r ∧ r.status = .uncompletePacket ∧
      r.buffer = b ++ i := by
  obtain ⟨headSize, tailSize, bufferSize⟩ := sizes
  have all : read (i ++ junk) 0 i.length = some i := by
    have reads := read_given (i := i) junk (show 0 + i.length ≤ i.length by omega)
    rwa [List.drop_zero, List.take_length] at reads
  have fits : ∀ offset, offset ≤ HEAD_SIZE → fit BUFFER_CAPACITY offset i = some i := by
    intro offset small
    apply fit_of_le
    rw [BUFFER_CAPACITY]
    omega
  have sum : unsigned (i.length + b.length) ≤ HEAD_SIZE := by
    simp only [unsigned]
    omega
  by_cases empty : b.length = 0
  · have nil : b = [] := List.length_eq_zero_iff.mp empty
    by_cases nothing : i.length = 0
    · rw [unpackData, if_pos ⟨empty, nothing⟩]
      exact ⟨_, rfl, rfl, by simp [nil, List.length_eq_zero_iff.mp nothing]⟩
    · rw [unpackData, if_neg fun both => nothing both.2, if_pos empty, if_neg (by omega), all]
      simp only [Option.bind_eq_bind, Option.bind_some, fits 0 (Nat.zero_le _)]
      exact ⟨_, rfl, rfl, by simp [nil]⟩
  · rw [unpackData, if_neg fun both => empty both.1, if_neg empty, if_pos (by omega), if_pos sum, all]
    simp only [Option.bind_eq_bind, Option.bind_some, fits b.length (by omega)]
    exact ⟨_, rfl, rfl, rfl⟩

/-- An end of a connection that makes no call without fuel. -/
def Peer.Runs : Peer → Prop
  | client => True
  | server fuel => 0 < fuel

private theorem Peer.process_of_refused {peer : Peer} (runs : peer.Runs)
    (returns : unpackData unit.data unit.size s.buffer ENET_DEFAULT_SOCKET_BUFFER = some r)
    (refused : r.status ≠ .ok) : peer.process unit s = some { s with buffer := r.buffer } := by
  cases peer with
  | client => simp [process, processClientReceive, returns, refused]
  | server fuel =>
      obtain ⟨fuel, rfl⟩ := Nat.exists_eq_succ_of_ne_zero (Nat.ne_zero_of_lt runs)
      simp [process, tcpServerProcessRecv, unpackAll, returns, refused]

/-- Chunks that do not complete a head are collected. -/
theorem Peer.run_few {peer : Peer} (runs : peer.Runs) {before : List PacketUnit}
    (few : s.buffer.length + (before.flatMap PacketUnit.received).length < HEAD_SIZE) :
    run peer.process before s =
      some ⟨s.buffer ++ before.flatMap PacketUnit.received, s.delivered⟩ := by
  induction before generalizing s with
  | nil => simp
  | cons unit before ih =>
      rw [List.flatMap_cons, List.length_append] at few
      obtain ⟨r, returns, status, buffer⟩ :=
        unpackData_few unit.stale ENET_DEFAULT_SOCKET_BUFFER
          (show s.buffer.length + unit.received.length < HEAD_SIZE by omega)
      have steps := Peer.process_of_refused runs returns (by simp [status])
      rw [run, steps, Option.bind_some, ih, buffer]
      · simp
      · rw [buffer, List.length_append]
        omega

/-- Chunks of which the last one has the sixteenth byte, and no valid head. -/
structure InvalidHead (before : List PacketUnit) (unit : PacketUnit) : Prop where
  nonempty : ∀ other ∈ before, other.received ≠ []
  short : (before.flatMap PacketUnit.received).length < HEAD_SIZE
  whole : HEAD_SIZE ≤ (before.flatMap PacketUnit.received ++ unit.received).length
  invalid : isHeadValid (Head.ofBytes
    ((before.flatMap PacketUnit.received ++ unit.received).take HEAD_SIZE)) = false

/-- Nothing is delivered up to `unit`, and the call that is given `unit` refuses it. -/
def Refuses (peer : Peer) (before : List PacketUnit) (unit : PacketUnit) : Prop :=
  ∃ s s', run peer.process before Inbound.start = some s ∧ peer.process unit s = some s' ∧
    s'.delivered = [] ∧
    ∃ r, unpackData unit.data unit.size s.buffer ENET_DEFAULT_SOCKET_BUFFER = some r ∧
      r.status = .dataCorrupt

theorem unpackData_corrupt (junk : Bytes) (outSize : Nat) (whole : HEAD_SIZE ≤ i.length)
    (invalid : isHeadValid (Head.ofBytes (i.take HEAD_SIZE)) = false) :
    unpackData (i ++ junk) i.length [] outSize = some ⟨.dataCorrupt, [], outSize, []⟩ := by
  obtain ⟨headSize, _, _⟩ := sizes
  have first : read (i ++ junk) 0 HEAD_SIZE = some (i.take HEAD_SIZE) :=
    read_given junk (show 0 + HEAD_SIZE ≤ i.length by omega)
  rw [unpackData, if_neg (by omega), if_pos List.length_nil, if_pos whole, first]
  simp only [Option.bind_eq_bind, Option.bind_some, invalid, if_true]
  rfl

/-- An invalid head is refused if and only if the first chunk has all of it. -/
theorem refuses_iff {peer : Peer} (runs : peer.Runs) {before : List PacketUnit}
    (head : InvalidHead before unit) : Refuses peer before unit ↔ before = [] := by
  obtain ⟨nonempty, short, whole, invalid⟩ := head
  constructor
  · rintro ⟨s, _, collects, _, _, r, returns, corrupt⟩
    cases before with
    | nil => rfl
    | cons first before =>
        rw [Peer.run_few runs (by simpa [Inbound.start] using short)] at collects
        cases collects
        refine absurd corrupt (unpackData_status ?_ returns)
        simp [Inbound.start, nonempty first List.mem_cons_self]
  · rintro rfl
    have returns := unpackData_corrupt unit.stale ENET_DEFAULT_SOCKET_BUFFER whole invalid
    have steps := Peer.process_of_refused (s := Inbound.start) runs returns (by simp)
    exact ⟨Inbound.start, _, rfl, steps, rfl, _, returns, rfl⟩

/-- So many zeros in a fresh packet unit. -/
def zeros (count : Nat) (few : count ≤ ENET_DEFAULT_SOCKET_BUFFER) : PacketUnit where
  received := List.replicate count 0
  stale := List.replicate (ENET_DEFAULT_SOCKET_BUFFER - count) 0
  room := by
    rw [List.length_append, List.length_replicate, List.length_replicate]
    exact Nat.add_sub_cancel' few

theorem refuses_iff_zeros : Refuses .client [] (zeros 16 (by decide)) ↔ ([] : List PacketUnit) = [] :=
  refuses_iff (show Peer.client.Runs from trivial) ⟨by simp, by decide, by decide, by decide⟩

/-- Sixteen zeros in two chunks are not refused. -/
theorem refuses_not_zeros :
    InvalidHead [zeros 8 (by decide)] (zeros 8 (by decide)) ∧
      ¬ Refuses .client [zeros 8 (by decide)] (zeros 8 (by decide)) := by
  refine ⟨⟨?_, by decide, by decide, by decide⟩, ?_⟩
  · intro other member
    rw [List.mem_singleton.mp member]
    decide
  · rintro ⟨s, _, collects, _, _, r, returns, corrupt⟩
    have few : Inbound.start.buffer.length +
        ([zeros 8 (by decide)].flatMap PacketUnit.received).length < HEAD_SIZE := by decide
    rw [Peer.run_few (show Peer.client.Runs from trivial) few] at collects
    cases collects
    refine absurd corrupt (unpackData_status ?_ returns)
    decide

end Corrupt

end GbfLibrary.Enet
