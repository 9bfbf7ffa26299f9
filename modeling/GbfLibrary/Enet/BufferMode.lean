import GbfLibrary.Enet.Unpack
import GbfLibrary.Systems.Run

/-!
# A server that collects chunks

A client of a server that uses buffers: `enet_tcp_server_process_recv` hands the collected bytes
to the callback, and `enet_tcp_server_wait_packet` asks for more of them.
-/

set_option autoImplicit false

namespace GbfLibrary.Enet

open Memory Systems

/-- What has happened to a client so far. -/
inductive BufferEvent where
  | received (chunk : Bytes)
  /-- A call of `enet_tcp_server_wait_packet` that succeeded. -/
  | waited (isClean : Bool)
  deriving DecidableEq

/-- The fields of `ENET_TCP_SERVER_CLIENT` for buffers, beside what has happened and what the
receive callback was given. -/
structure BufferedClient where
  isWaiting : Bool
  buffer : Bytes
  events : List BufferEvent
  delivered : List Bytes
  deriving DecidableEq

/-- A client that has just connected. -/
def BufferedClient.start : BufferedClient := ⟨false, [], [], []⟩

/-- `enet_tcp_server_process_recv` without packets and with buffers. -/
def processRecvBuffer (chunk : Bytes) (client : BufferedClient) : Option BufferedClient := do
  let buffer := if client.isWaiting = false then [] else client.buffer
  let chunk ← fit ENET_DEFAULT_SOCKET_BUFFER buffer.length chunk
  return {
    isWaiting := false
    buffer := buffer ++ chunk
    events := client.events ++ [.received chunk]
    delivered := client.delivered ++ [buffer ++ chunk] }

/-- What `enet_tcp_server_wait_packet` finds out about the server and the client. -/
structure WaitLooks where
  locks : Bool
  hasObject : Bool
  isValidClient : Bool
  deriving DecidableEq

/-- `enet_tcp_server_wait_packet` on a server that uses buffers. -/
def tcpServerWaitPacket (looks : WaitLooks) (size : Int) (isClean : Bool) (client : BufferedClient) :
    Status × BufferedClient :=
  if looks.locks = false then (.invHandle, client)
  else if looks.hasObject = false then (.invHandle, client)
  else if ENET_DEFAULT_SOCKET_BUFFER < unsigned (size + client.buffer.length) then (.bufferTooLarge, client)
  else if looks.isValidClient = false then (.invHandle, client)
  else (.ok, { client with
    isWaiting := true
    buffer := if isClean then [] else client.buffer
    events := client.events ++ [.waited isClean] })

/-- What is done to a client. -/
inductive BufferStep where
  | recv (chunk : Bytes)
  | wait (looks : WaitLooks) (size : Int) (isClean : Bool)
  deriving DecidableEq

namespace BufferedClient

def next : BufferStep → BufferedClient → Option BufferedClient
  | .recv chunk, client => processRecvBuffer chunk client
  | .wait looks size isClean, client => some (tcpServerWaitPacket looks size isClean client).2

/-- A chunk that is added to the buffer has room behind what is in it. -/
def Room : BufferStep → BufferedClient → Prop
  | .recv chunk, client =>
      client.isWaiting = true → client.buffer.length + chunk.length ≤ ENET_DEFAULT_SOCKET_BUFFER
  | .wait _ _ _, _ => True

instance : (step : BufferStep) → (client : BufferedClient) → Decidable (Room step client)
  | .recv _, _ => inferInstanceAs (Decidable (_ → _))
  | .wait _ _ _, _ => .isTrue trivial

end BufferedClient

/-- What the callback is given: the chunks since the last callback that no successful wait has
followed, or one that clears the buffer. `waited` and `cleared` say whether one has followed the
last callback. -/
structure Collected where
  chunks : List Bytes
  waited : Bool
  cleared : Bool
  delivered : List Bytes

def Collected.start : Collected := ⟨[], false, false, []⟩

def Collected.add (collected : Collected) : BufferEvent → Collected
  | .received chunk =>
      let chunks := if collected.waited && !collected.cleared then collected.chunks ++ [chunk] else [chunk]
      ⟨chunks, false, false, collected.delivered ++ [chunks.flatten]⟩
  | .waited isClean => { collected with waited := true, cleared := collected.cleared || isClean }

/-- What the callbacks should be given. -/
def expected (events : List BufferEvent) : Collected := events.foldl Collected.add .start

namespace BufferedClient

variable {client client' : BufferedClient} {step : BufferStep} {steps : List BufferStep}

/-- The buffer holds what is collected, and it fits. -/
structure Collects (client : BufferedClient) : Prop where
  room : client.buffer.length ≤ ENET_DEFAULT_SOCKET_BUFFER
  waiting : client.isWaiting = (expected client.events).waited
  buffer : client.buffer =
    if (expected client.events).cleared then [] else (expected client.events).chunks.flatten
  delivered : client.delivered = (expected client.events).delivered

private theorem start_collects : start.Collects := ⟨Nat.zero_le _, rfl, rfl, rfl⟩

private theorem expected_append (events : List BufferEvent) (event : BufferEvent) :
    expected (events ++ [event]) = (expected events).add event :=
  List.foldl_append ..

theorem Collects.recv {chunk : Bytes} (collects : client.Collects)
    (steps : processRecvBuffer chunk client = some client') : client'.Collects := by
  obtain ⟨_, waiting, buffer, delivered⟩ := collects
  obtain ⟨all, fits, steps⟩ := Option.bind_eq_some_iff.mp steps
  cases steps
  obtain ⟨room, rfl⟩ := le_of_fit fits
  rw [← List.length_append] at room
  have chunks : (if client.isWaiting = false then [] else client.buffer) ++ all =
      ((expected client.events).add (.received all)).chunks.flatten := by
    simp only [Collected.add, ← waiting, buffer]
    cases client.isWaiting with
    | false => simp
    | true => cases (expected client.events).cleared <;> simp
  refine ⟨room, ?_, ?_, ?_⟩
  · rw [expected_append]
    rfl
  · rw [expected_append, chunks]
    rfl
  · rw [expected_append, chunks, delivered]
    rfl

/-- A call that succeeds, with the buffer cleared or not. -/
theorem Collects.waited (collects : client.Collects) (isClean : Bool) :
    Collects { client with
      isWaiting := true
      buffer := if isClean then [] else client.buffer
      events := client.events ++ [.waited isClean] } := by
  obtain ⟨room, waiting, buffer, delivered⟩ := collects
  refine ⟨?_, ?_, ?_, ?_⟩
  · cases isClean with
    | true => exact Nat.zero_le _
    | false => exact room
  · rw [expected_append]
    rfl
  · rw [expected_append]
    cases isClean with
    | true => simp [Collected.add]
    | false => simpa [Collected.add] using buffer
  · rw [expected_append]
    exact delivered

theorem Collects.wait (collects : client.Collects) (looks : WaitLooks) (size : Int) (isClean : Bool) :
    (tcpServerWaitPacket looks size isClean client).2.Collects := by
  unfold tcpServerWaitPacket
  by_cases locks : looks.locks = false
  · rwa [if_pos locks]
  by_cases object : looks.hasObject = false
  · rwa [if_neg locks, if_pos object]
  by_cases large : ENET_DEFAULT_SOCKET_BUFFER < unsigned (size + client.buffer.length)
  · rwa [if_neg locks, if_neg object, if_pos large]
  by_cases valid : looks.isValidClient = false
  · rwa [if_neg locks, if_neg object, if_neg large, if_pos valid]
  · rw [if_neg locks, if_neg object, if_neg large, if_neg valid]
    exact collects.waited isClean

private theorem next_collects (collects : client.Collects) (steps : next step client = some client') :
    client'.Collects := by
  cases step with
  | recv chunk => exact collects.recv steps
  | wait looks size isClean =>
      cases steps
      exact collects.wait looks size isClean

/-- A step goes on if and only if there is room for its chunk. -/
theorem next_isSome_iff (small : ∀ chunk, step = .recv chunk → chunk.length ≤ ENET_DEFAULT_SOCKET_BUFFER) :
    (next step client).isSome = true ↔ Room step client := by
  cases step with
  | wait looks size isClean => simp [next, Room]
  | recv chunk =>
      have alone := small chunk rfl
      simp only [next, processRecvBuffer, Room]
      cases client.isWaiting with
      | false => simp [fit, alone]
      | true =>
          by_cases room : client.buffer.length + chunk.length ≤ ENET_DEFAULT_SOCKET_BUFFER
          · simp [fit, room]
          · simp [fit, room]

/-- The buffer never overflows and the callbacks are given what they should if and only if every
chunk that is added to the buffer has room. -/
theorem run_collects_iff
    (small : ∀ chunk, .recv chunk ∈ steps → chunk.length ≤ ENET_DEFAULT_SOCKET_BUFFER) :
    (∃ client, run next steps start = some client ∧
        client.buffer.length ≤ ENET_DEFAULT_SOCKET_BUFFER ∧
        client.delivered = (expected client.events).delivered) ↔
      Meets next Room steps start := by
  suffices general : ∀ client, (∃ client', run next steps client = some client') ↔ Meets next Room steps client by
    rw [← general]
    constructor
    · rintro ⟨client, runs, _⟩
      exact ⟨client, runs⟩
    · rintro ⟨client, runs⟩
      have collects := run_invariant (fun _ _ _ => next_collects) start_collects runs
      exact ⟨client, runs, collects.room, collects.delivered⟩
  induction steps with
  | nil => simp [Meets]
  | cons step steps ih =>
      intro client
      have here : (next step client).isSome = true ↔ Room step client :=
        next_isSome_iff fun chunk same => small chunk (same ▸ List.mem_cons_self)
      have later := ih fun chunk member => small chunk (List.mem_cons_of_mem _ member)
      rw [Meets, ← here]
      cases steps' : next step client with
      | none => simp [run, steps']
      | some between => simp [run, steps', later between]

/-- A chunk, a call that waits for more, and a second chunk that is added. -/
theorem run_collects_iff_two :
    (∃ client, run next [.recv [1], .wait ⟨true, true, true⟩ 1 false, .recv [2]] start = some client ∧
        client.buffer.length ≤ ENET_DEFAULT_SOCKET_BUFFER ∧
        client.delivered = (expected client.events).delivered) ↔
      Meets next Room [.recv [1], .wait ⟨true, true, true⟩ 1 false, .recv [2]] start := by
  apply run_collects_iff
  intro chunk member
  simp only [List.mem_cons, List.not_mem_nil, BufferStep.recv.injEq, reduceCtorEq, false_or, or_false] at member
  rcases member with rfl | rfl <;> decide

/-- One more byte is asked for, with success, and more than there is room for comes. -/
theorem overflows_of_length {chunk : Bytes} (length : chunk.length = 40000) :
    run next [.recv chunk] start = some ⟨false, chunk, [.received chunk], [chunk]⟩ ∧
      (tcpServerWaitPacket ⟨true, true, true⟩ 1 false ⟨false, chunk, [.received chunk], [chunk]⟩).1 = .ok ∧
      run next [.recv chunk, .wait ⟨true, true, true⟩ 1 false, .recv chunk] start = none := by
  have capacity : ENET_DEFAULT_SOCKET_BUFFER = 65536 := rfl
  have first : processRecvBuffer chunk start = some ⟨false, chunk, [.received chunk], [chunk]⟩ := by
    simp [processRecvBuffer, fit, capacity, start, length]
  have waits : tcpServerWaitPacket ⟨true, true, true⟩ 1 false ⟨false, chunk, [.received chunk], [chunk]⟩ =
      (.ok, ⟨true, chunk, [.received chunk, .waited false], [chunk]⟩) := by
    simp [tcpServerWaitPacket, length, capacity, unsigned]
  have full : processRecvBuffer chunk ⟨true, chunk, [.received chunk, .waited false], [chunk]⟩ = none := by
    simp [processRecvBuffer, fit, capacity, length]
  refine ⟨?_, ?_, ?_⟩
  · simp [run, next, first]
  · rw [waits]
  · simp [run, next, first, waits, full]

theorem run_overflows :
    let chunk : Bytes := List.replicate 40000 0
    run next [.recv chunk] start = some ⟨false, chunk, [.received chunk], [chunk]⟩ ∧
      (tcpServerWaitPacket ⟨true, true, true⟩ 1 false ⟨false, chunk, [.received chunk], [chunk]⟩).1 = .ok ∧
      run next [.recv chunk, .wait ⟨true, true, true⟩ 1 false, .recv chunk] start = none :=
  overflows_of_length List.length_replicate

end BufferedClient

end GbfLibrary.Enet
