import GbfLibrary.Enet.Frames

/-!
# Sending

`enet_tcp_socket_send`, and the two functions that call it. `send` and `select` answer what the
network makes them; the answers are a list, and a call of `send` without an answer has not
returned.
-/

set_option autoImplicit false

namespace GbfLibrary.Enet

open Memory

/-- What is in memory from a pointer on. -/
abbrev Content := Nat → Byte

def Content.take (content : Content) (count : Nat) : Bytes := (List.range count).map content

def WSAEMFILE : Int := 10024
def WSAEWOULDBLOCK : Int := 10035
def WSAEMSGSIZE : Int := 10040
def WSAENETDOWN : Int := 10050
def WSAENETUNREACH : Int := 10051
def WSAENETRESET : Int := 10052
def WSAECONNABORTED : Int := 10053
def WSAECONNRESET : Int := 10054
def WSAETIMEDOUT : Int := 10060
def WSAECONNREFUSED : Int := 10061

/-- `enet_error_code_convert`. -/
def errorCodeConvert (code : Int) : Status :=
  if code = WSAEMFILE then .tooManySockets
  else if code = WSAEMSGSIZE then .bufferOverflow
  else if code = WSAENETDOWN ∨ code = WSAENETUNREACH ∨ code = WSAENETRESET ∨ code = WSAECONNABORTED then
    .networkIssue
  else if code = WSAECONNRESET then .remoteDisconnect
  else if code = WSAETIMEDOUT then .timeOut
  else if code = WSAECONNREFUSED then .remoteRefused
  else .ofCode code

private theorem errorCodeConvert_ne {code : Int} (error : code ≠ 0) : errorCodeConvert code ≠ .ok := by
  unfold errorCodeConvert Status.ofCode
  rw [if_neg error]
  repeat' split
  all_goals simp

/-- `enet_pack_data` with `capacity` bytes behind `out`; `int` sizes may be negative. -/
def packSized (input : Content) (size : Int) (capacity : Nat) : Option Bytes :=
  let head := headFor (.ofInt 32 size)
  if capacity < unsigned (HEAD_SIZE + size + TAIL_SIZE) then none
  -- the three copies, the second one with `size` as an unsigned number
  else if capacity < HEAD_SIZE + unsigned size + TAIL_SIZE then none
  else some (head.toBytes ++ input.take (unsigned size) ++ (tailFor head).toBytes)

@[simp] theorem Content.length_take (content : Content) (count : Nat) :
    (content.take count).length = count := by
  simp [Content.take]

/-- What a call of `send` comes to. -/
inductive SendResult where
  | sent (count : Nat)
  /-- `send` fails with this code. `isWritable` is what `enet_sock_is_writable` finds then. -/
  | failed (code : Int) (isWritable : Bool)
  deriving DecidableEq

/-- A call of `send`: how far behind the start, how many bytes it may send, and how many it has
sent. -/
structure SendCall where
  offset : Nat
  size : Int
  sent : Nat
  deriving DecidableEq

/-- The calls of `send`, and what `enet_tcp_socket_send` has returned. -/
structure Sending where
  calls : List SendCall
  status : Option Status
  deriving DecidableEq

def Sending.after (call : SendCall) (rest : Sending) : Sending :=
  { rest with calls := call :: rest.calls }

/-- The loop of `enet_tcp_socket_send`, with `p` at `offset`. -/
def resend (finalSize : Int) : Nat → Int → List SendResult → Sending
  | offset, _, [] => ⟨[⟨offset, finalSize, 0⟩], none⟩
  | offset, sended, .failed code isWritable :: results =>
      let call : SendCall := ⟨offset, finalSize, 0⟩
      if code = WSAEWOULDBLOCK then
        if isWritable then .after call (resend finalSize offset sended results)
        else ⟨[call], some .socketUnwritable⟩
      else ⟨[call], some (errorCodeConvert code)⟩
  | offset, sended, .sent count :: results =>
      let call : SendCall := ⟨offset, finalSize, count⟩
      let sended := signed (sended + count)
      if sended < finalSize then .after call (resend finalSize (offset + count) sended results)
      else ⟨[call], some .ok⟩

/-- What `enet_tcp_socket_send` prepares: what is in memory from `p` on, and `final_size`. -/
def finalData (buf stack : Content) (size : Int) (usePacket : Bool) : Option (Content × Int) :=
  if usePacket then do
    let output ← packSized buf size ENET_DEFAULT_SOCKET_BUFFER
    return (fun n => output.getD n (stack n), output.length)
  else some (buf, size)

/-- The bytes that the calls put on the wire, out of what is in memory from `p` on. -/
def Sending.wire (p : Content) (sending : Sending) : Bytes :=
  sending.calls.flatMap fun call => Content.take (fun n => p (call.offset + n)) call.sent

/-- `enet_tcp_socket_send`, with the bytes it puts on the wire. -/
def tcpSocketSend (buf stack : Content) (size : Int) (usePacket : Bool) (results : List SendResult) :
    Option (Bytes × Sending) := do
  let (p, finalSize) ← finalData buf stack size usePacket
  let sending := resend finalSize 0 0 results
  return (sending.wire p, sending)

/-- The frame is what is to be sent. -/
def Prepares (buf stack : Content) (size : Int) (usePacket : Bool) (frame : Bytes) : Prop :=
  ∃ p, finalData buf stack size usePacket = some (p, (frame.length : Int)) ∧ Content.take p frame.length = frame

/-- The network sends some of the bytes it is asked to send, and every failure has a code. -/
def SendResult.Possible (finalSize : Int) : SendResult → Prop
  | sent count => 1 ≤ count ∧ count ≤ finalSize
  | failed code _ => code ≠ 0

/-- The frame goes over the wire once and in order, nothing behind it is read, and the caller
learns whether all of it has been sent. -/
structure Faithful (frame wire : Bytes) (sending : Sending) : Prop where
  inside : ∀ call ∈ sending.calls, call.offset + call.size ≤ frame.length
  ordered : wire <+: frame
  complete : sending.status = some .ok ↔ wire = frame

/-- The first `send` that does not fail sends everything. -/
def FirstWhole (finalSize : Int) : List SendResult → Prop
  | [] => True
  | .sent count :: _ => count = finalSize
  | .failed code isWritable :: results =>
      code = WSAEWOULDBLOCK → isWritable = true → FirstWhole finalSize results

section Socket

variable {p : Content} {finalSize : Int} {frame : Bytes} {results : List SendResult}

private theorem wire_after (p : Content) (call : SendCall) (rest : Sending) :
    (Sending.after call rest).wire p =
      Content.take (fun n => p (call.offset + n)) call.sent ++ rest.wire p :=
  rfl

/-- The loop starts with a call of `send` that may send everything. -/
theorem exists_call_resend (finalSize : Int) (offset : Nat) (sended : Int) (results : List SendResult) :
    ∃ call ∈ (resend finalSize offset sended results).calls, call.offset = offset ∧ call.size = finalSize := by
  cases results with
  | nil => exact ⟨_, List.mem_singleton_self _, rfl, rfl⟩
  | cons result results =>
      cases result with
      | sent count =>
          rw [resend]
          split
          · exact ⟨_, List.mem_cons_self, rfl, rfl⟩
          · exact ⟨_, List.mem_singleton_self _, rfl, rfl⟩
      | failed code isWritable =>
          rw [resend]
          split
          · split
            · exact ⟨_, List.mem_cons_self, rfl, rfl⟩
            · exact ⟨_, List.mem_singleton_self _, rfl, rfl⟩
          · exact ⟨_, List.mem_singleton_self _, rfl, rfl⟩

private theorem faithful_of_nothing (nonempty : frame ≠ []) {status : Option Status} (notDone : status ≠ some .ok) :
    Faithful frame (Sending.wire p ⟨[⟨0, frame.length, 0⟩], status⟩) ⟨[⟨0, frame.length, 0⟩], status⟩ := by
  refine ⟨by simp, List.nil_prefix, fun done => absurd done notDone, fun all => ?_⟩
  exact absurd all.symm nonempty

private theorem resend_faithful_iff (same : Content.take p frame.length = frame) (nonempty : frame ≠ [])
    (small : frame.length < 2147483648) (possible : ∀ result ∈ results, result.Possible frame.length) :
    Faithful frame ((resend frame.length 0 0 results).wire p) (resend frame.length 0 0 results) ↔
      FirstWhole frame.length results := by
  induction results with
  | nil => exact iff_of_true (faithful_of_nothing nonempty (by simp)) trivial
  | cons result results ih =>
      obtain ⟨here, later⟩ := List.forall_mem_cons.mp possible
      cases result with
      | failed code isWritable =>
          rw [resend]
          by_cases wouldBlock : code = WSAEWOULDBLOCK
          · rw [if_pos wouldBlock]
            cases isWritable with
            | true =>
                have whole : FirstWhole frame.length (.failed code true :: results) ↔
                    FirstWhole frame.length results := by simp [FirstWhole, wouldBlock]
                rw [whole, ← ih later, if_pos rfl, wire_after]
                constructor
                · intro faithful
                  exact ⟨fun call member => faithful.inside call (List.mem_cons_of_mem _ member),
                    faithful.ordered, faithful.complete⟩
                · intro faithful
                  refine ⟨fun call member => ?_, faithful.ordered, faithful.complete⟩
                  rcases List.mem_cons.mp member with rfl | member
                  · simp
                  · exact faithful.inside call member
            | false =>
                rw [if_neg Bool.false_ne_true]
                exact iff_of_true (faithful_of_nothing nonempty (by simp)) (by simp [FirstWhole])
          · rw [if_neg wouldBlock]
            refine iff_of_true (faithful_of_nothing nonempty ?_) (by simp [FirstWhole, wouldBlock])
            simpa using errorCodeConvert_ne here
      | sent count =>
          obtain ⟨low, high⟩ := here
          have total : signed (0 + count) = count := by
            rw [Int.zero_add]
            exact signed_of_lt (by omega) (by omega)
          rw [resend, total, FirstWhole]
          by_cases less : (count : Int) < frame.length
          · rw [if_pos less]
            apply iff_of_false
            · intro faithful
              obtain ⟨call, member, offset, size⟩ :=
                exists_call_resend frame.length (0 + count) count results
              have inside := faithful.inside call (List.mem_cons_of_mem _ member)
              rw [offset, size] at inside
              omega
            · omega
          · rw [if_neg less]
            have all : count = frame.length := by omega
            have wire : Sending.wire p ⟨[⟨0, frame.length, count⟩], some .ok⟩ = frame := by
              simp [Sending.wire, all, same]
            rw [wire]
            exact iff_of_true ⟨by simp, List.prefix_refl frame, by simp⟩ (by omega)

/-- The frame is sent as it should if and only if the first `send` that does not fail sends all
of it. -/
theorem tcpSocketSend_faithful_iff {buf stack : Content} {size : Int} {usePacket : Bool}
    (prepares : Prepares buf stack size usePacket frame) (nonempty : frame ≠ [])
    (small : frame.length < 2147483648) (possible : ∀ result ∈ results, result.Possible frame.length) :
    ∃ wire sending, tcpSocketSend buf stack size usePacket results = some (wire, sending) ∧
      (Faithful frame wire sending ↔ FirstWhole frame.length results) := by
  obtain ⟨p, final, same⟩ := prepares
  exact ⟨_, _, by rw [tcpSocketSend, final]; rfl, resend_faithful_iff same nonempty small possible⟩

private theorem prepares_raw (buf stack : Content) (size : Nat) :
    Prepares buf stack size false (buf.take size) :=
  ⟨buf, by rw [Content.length_take]; rfl, by rw [Content.length_take]⟩

private theorem prepares_packet {buf : Content} (stack : Content) {size : Int}
    (packs : packSized buf size ENET_DEFAULT_SOCKET_BUFFER = some frame) :
    Prepares buf stack size true frame := by
  refine ⟨fun n => frame.getD n (stack n), by simp [finalData, packs], ?_⟩
  apply List.ext_getElem
  · simp [Content.take]
  · intro n _ inside
    simp [Content.take, inside]

private theorem possible_blocked {count : Nat} (positive : 0 < count) :
    ∀ result ∈ [SendResult.failed WSAEWOULDBLOCK true, .sent count], result.Possible count := by
  intro result member
  simp only [List.mem_cons, List.not_mem_nil, or_false] at member
  obtain rfl | rfl := member
  · exact (by decide : WSAEWOULDBLOCK ≠ 0)
  · exact ⟨positive, Int.le_refl _⟩

/-- Three bytes, as they are and as a packet: the socket is full at first, and takes all of the
frame then. -/
theorem tcpSocketSend_faithful_iff_blocked :
    (∃ wire sending, tcpSocketSend (fun n => .ofNat 8 n) (fun _ => 0) 3 false
        [.failed WSAEWOULDBLOCK true, .sent 3] = some (wire, sending) ∧
      (Faithful [0, 1, 2] wire sending ↔ FirstWhole 3 [.failed WSAEWOULDBLOCK true, .sent 3])) ∧
    ∃ frame, packSized (fun n => .ofNat 8 n) 3 ENET_DEFAULT_SOCKET_BUFFER = some frame ∧
      ∃ wire sending, tcpSocketSend (fun n => .ofNat 8 n) (fun _ => 0) 3 true
          [.failed WSAEWOULDBLOCK true, .sent frame.length] = some (wire, sending) ∧
        (Faithful frame wire sending ↔
          FirstWhole frame.length [.failed WSAEWOULDBLOCK true, .sent frame.length]) := by
  constructor
  · exact tcpSocketSend_faithful_iff (prepares_raw (fun n => .ofNat 8 n) (fun _ => 0) 3) (by decide) (by decide)
      (possible_blocked (by decide))
  · have packs : packSized (fun n => .ofNat 8 n) 3 ENET_DEFAULT_SOCKET_BUFFER = some _ := rfl
    refine ⟨_, packs, ?_⟩
    exact tcpSocketSend_faithful_iff (prepares_packet (fun _ => 0) packs) (by decide) (by decide)
      (possible_blocked (by decide))

/-- Of two bytes the first one is sent, and then two more. -/
theorem tcpSocketSend_overread :
    ∃ sending, tcpSocketSend (fun n => .ofNat 8 n) (fun _ => 0) 2 false [.sent 1, .sent 2] =
        some ([0, 1, 2], sending) ∧ ¬ Faithful [0, 1] [0, 1, 2] sending := by
  refine ⟨⟨[⟨0, 2, 1⟩, ⟨1, 2, 2⟩], some .ok⟩, by decide, fun faithful => ?_⟩
  exact absurd faithful.ordered (by decide)

end Socket

/-- `enet_tcp_client_send`. `lock` is what the lock of the handle returns, `usePacket` the flag of
the object if there is one, and `connect` what connecting again returns. -/
def tcpClientSend (lock : Status) (usePacket : Option Bool) (connect : Status) (buf : Option Content)
    (stack : Nat → Content) (size : Int) (results : Nat → List SendResult) :
    Option (List Sending × Option Status) :=
  match buf with
  | none => some ([], some .invParam)
  | some buf =>
      if size = 0 then some ([], some .invParam)
      else if ENET_DEFAULT_SOCKET_BUFFER < size then some ([], some .bufferTooLarge)
      else if lock ≠ .ok then some ([], some lock)
      else match usePacket with
        | none => some ([], some .handleTypeMismatch)
        | some usePacket => do
            let (_, first) ← tcpSocketSend buf (stack 0) size usePacket (results 0)
            if first.status ≠ none ∧ first.status ≠ some .ok ∧ connect = .ok then do
              let (_, second) ← tcpSocketSend buf (stack 1) size usePacket (results 1)
              return ([first, second], second.status)
            else return ([first], first.status)

/-- `enet_tcp_server_send_to_client`. -/
def tcpServerSendToClient (lock : Status) (usePacket : Option Bool) (isValidClient : Bool)
    (data : Option Content) (stack : Content) (size : Int) (results : List SendResult) :
    Option (List Sending × Option Status) :=
  match data with
  | none => some ([], some .invParam)
  | some data =>
      if size = 0 then some ([], some .invParam)
      else if lock ≠ .ok then some ([], some lock)
      else match usePacket with
        | none => some ([], some .invHandle)
        | some usePacket =>
            if ENET_DEFAULT_SOCKET_BUFFER < size ∧ usePacket = true then some ([], some .bufferTooLarge)
            else if isValidClient = false then some ([], some .invHandle)
            else do
              let (_, sending) ← tcpSocketSend data stack size usePacket results
              return ([sending], sending.status)

section Limits

variable {size : Int}

/-- The sizes that `enet_pack_data` has room for. -/
theorem packSized_isSome_iff (input : Content) (low : -2147483648 ≤ size)
    (high : size ≤ ENET_DEFAULT_SOCKET_BUFFER) :
    (packSized input size ENET_DEFAULT_SOCKET_BUFFER).isSome = true ↔
      0 ≤ size ∧ size + HEAD_SIZE + TAIL_SIZE ≤ ENET_DEFAULT_SOCKET_BUFFER := by
  obtain ⟨headSize, tailSize, bufferSize⟩ := sizes
  rw [packSized]
  split
  · next asserts =>
    simp only [unsigned] at asserts
    simp
    omega
  · split
    · next outside =>
      simp only [unsigned] at outside
      simp
      omega
    · next asserts inside =>
      simp only [unsigned] at asserts inside
      simp
      omega

private theorem tcpSocketSend_isSome_iff (buf stack : Content) (results : List SendResult)
    (low : -2147483648 ≤ size) (high : size ≤ ENET_DEFAULT_SOCKET_BUFFER) :
    (tcpSocketSend buf stack size true results).isSome = true ↔
      0 ≤ size ∧ size + HEAD_SIZE + TAIL_SIZE ≤ ENET_DEFAULT_SOCKET_BUFFER := by
  rw [← packSized_isSome_iff buf low high, tcpSocketSend, finalData, if_pos rfl]
  cases packSized buf size ENET_DEFAULT_SOCKET_BUFFER <;> rfl

/-- Of the sizes that the two functions accept, those are sent without a fault that leave room
for the head and the tail, and are not negative. -/
theorem send_isSome_iff (buf : Content) (connect : Status) (frames : Nat → Content)
    (answers : Nat → List SendResult) (stack : Content) (results : List SendResult) (nonzero : size ≠ 0)
    (low : -2147483648 ≤ size) (accepted : size ≤ ENET_DEFAULT_SOCKET_BUFFER) :
    ((tcpClientSend .ok (some true) connect (some buf) frames size answers).isSome = true ↔
        0 ≤ size ∧ size + HEAD_SIZE + TAIL_SIZE ≤ ENET_DEFAULT_SOCKET_BUFFER) ∧
      ((tcpServerSendToClient .ok (some true) true (some buf) stack size results).isSome = true ↔
        0 ≤ size ∧ size + HEAD_SIZE + TAIL_SIZE ≤ ENET_DEFAULT_SOCKET_BUFFER) := by
  have sends := fun stack results => tcpSocketSend_isSome_iff buf stack results low accepted
  have within : ¬ (ENET_DEFAULT_SOCKET_BUFFER : Int) < size := Int.not_lt.mpr accepted
  constructor
  · have first := sends (frames 0) (answers 0)
    have second := sends (frames 1) (answers 1)
    rw [← first] at second
    rw [← first, tcpClientSend]
    simp only [if_neg nonzero, if_neg within, ne_eq, not_true_eq_false, if_false]
    cases sent : tcpSocketSend buf (frames 0) size true (answers 0) with
    | none => simp
    | some outcome =>
        rw [sent] at second
        obtain ⟨again, retries⟩ := Option.isSome_iff_exists.mp (second.mpr rfl)
        simp only [retries, Option.bind_eq_bind, Option.bind_some]
        split <;> simp
  · rw [← sends stack results, tcpServerSendToClient]
    simp only [if_neg nonzero, within, false_and, ne_eq, not_true_eq_false, if_false, Bool.true_eq_false]
    cases tcpSocketSend buf stack size true results <;> rfl

/-- The largest size that is sent. -/
theorem send_isSome_iff_largest :
    let buf : Content := fun _ => 7
    ((tcpClientSend .ok (some true) .ok (some buf) (fun _ => buf) 65512 fun _ => []).isSome = true ↔
        0 ≤ (65512 : Int) ∧ 65512 + HEAD_SIZE + TAIL_SIZE ≤ (ENET_DEFAULT_SOCKET_BUFFER : Int)) ∧
      ((tcpServerSendToClient .ok (some true) true (some buf) buf 65512 []).isSome = true ↔
        0 ≤ (65512 : Int) ∧ 65512 + HEAD_SIZE + TAIL_SIZE ≤ (ENET_DEFAULT_SOCKET_BUFFER : Int)) :=
  send_isSome_iff (fun _ => 7) .ok _ _ _ [] (by decide) (by decide) (by decide)

/-- Two sizes that are accepted: there is no room for the packet, and a negative one. -/
theorem send_fault :
    let buf : Content := fun _ => 7
    tcpClientSend .ok (some true) .ok (some buf) (fun _ => buf) 65513 (fun _ => []) = none ∧
      tcpServerSendToClient .ok (some true) true (some buf) buf (-1) [] = none :=
  ⟨rfl, rfl⟩

end Limits

end GbfLibrary.Enet
