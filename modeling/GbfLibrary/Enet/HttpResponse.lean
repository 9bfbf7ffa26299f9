import GbfLibrary.Enet.HttpRequest
import GbfLibrary.Enet.Send
import GbfLibrary.Memory.Heap

/-!
# HTTP responses

`send_http_message`, `enet_http_exec`, `enet_http_fetch` and `enet_http_del` of `enet_tools.c`, with the buffers of
the responses.
-/

set_option autoImplicit false

namespace GbfLibrary.Enet.Http

open Memory

/-- How the loop of `send_http_message` ends: `select` returns 0 or fails, or `recv` does. -/
inductive Ending where
  | timeout
  | selectFails (code : Int)
  | closed
  | recvFails (code : Int)

/-- The variables of `send_http_message`, with the calls of `malloc` and `realloc` so far. -/
structure Receiving where
  heap : Heap Buffer
  response : Option Nat
  size : Nat
  readSize : Nat
  calls : Nat

namespace Receiving

/-- The response is terminated behind what was read. -/
def terminate (s : Receiving) : Except Fault (Status × Receiving) := do
  let buffer ← s.heap.access s.response
  match buffer.store s.readSize 0 with
  | none => .error .other
  | some buffer => return (.ok, { s with heap := s.heap.store s.response buffer, size := s.readSize })

/-- The response is freed, and the pointer stays. -/
def discard (code : Int) (s : Receiving) : Except Fault (Status × Receiving) := do
  let heap ← s.heap.free s.response
  return (errorCodeConvert code, { s with heap, size := 0 })

/-- Some bytes go behind what was read. -/
def append (bytes : Bytes) (s : Receiving) : Except Fault Receiving := do
  let buffer ← s.heap.access s.response
  match buffer.write s.readSize (bytes.map some) with
  | none => .error .other
  | some buffer => return { s with heap := s.heap.store s.response buffer, readSize := s.readSize + bytes.length }

/-- The size grows by 1024, and `realloc` is called with it. The size `0` frees the buffer; without memory the
old buffer is lost. -/
def grow (malloc : Malloc) (s : Receiving) : Except Fault Receiving := do
  let size := (s.size + 1024) % 4294967296
  let buffer ← s.heap.access s.response
  if size = 0 then do
    let heap ← s.heap.free s.response
    return { s with heap, response := none, size, calls := s.calls + 1 }
  else if malloc s.calls = false then return { s with response := none, size, calls := s.calls + 1 }
  else do
    let heap ← s.heap.free s.response
    return { s with
      heap := heap ++ [some (buffer.resize size)]
      response := some heap.length
      size
      calls := s.calls + 1 }

/-- What a call of `select` or `recv` that ends the loop does. -/
def finish (s : Receiving) : Ending → Except Fault (Status × Receiving)
  | .timeout => s.terminate
  | .selectFails code => s.discard code
  | .closed => s.terminate
  | .recvFails code => if 0 < s.readSize then s.terminate else s.discard code

/-- The loop of `send_http_message`. A call of `recv` takes as much of a chunk as there is room for. -/
def loop (malloc : Malloc) (ending : Ending) : List Bytes → Receiving → Except Fault (Status × Receiving)
  | [], s => s.finish ending
  | chunk :: chunks, s =>
      let bytes := chunk.take (s.size - s.readSize)
      if bytes = [] then s.finish .closed
      else do
        let s ← s.append bytes
        if s.readSize = s.size then do
          let s ← s.grow malloc
          if s.response = none then return (.noMemory, s) else loop malloc ending chunks s
        else loop malloc ending chunks s

end Receiving

/-- What happens inside a call of `enet_http_exec`: the results of `enet_tcp_client_create_socket`, `connect` and
`send` (with the error if one fails), what is received, and the allocations for the request, the response and its
parsed form. -/
structure Exchange where
  method : Int
  socket : Status
  connect : Option Int
  send : Option Int
  chunks : List Bytes
  ending : Ending
  request : Malloc
  buffers : Malloc
  parsing : Malloc

/-- `send_http_message`, with a null `response` and a `size` before: the status, the heap, `response` and `size`. -/
def sendHttpMessage (exchange : Exchange) (heap : Heap Buffer) (size : Nat) :
    Except Fault (Status × Heap Buffer × Option Nat × Nat) :=
  match exchange.send with
  | some code => return (errorCodeConvert code, heap, none, size)
  | none =>
      if exchange.buffers 0 = false then return (.noMemory, heap, none, 1024)
      else do
        let buffer := (Buffer.alloc 1024).set 0 (some 0)
        let (rc, s) ← Receiving.loop exchange.buffers exchange.ending exchange.chunks
          ⟨heap ++ [some buffer], some heap.length, 1024, 0, 1⟩
        return (rc, s.heap, s.response, s.size)

/-- An HTTP handle, until it is deleted, and the buffers of its responses. -/
structure World where
  obj : Option HttpObj
  heap : Heap Buffer
  deriving DecidableEq

namespace World

/-- `enet_http_parse_response`, which reads the response once `parsed_res` is allocated. -/
def parse (malloc : Malloc) (heap : Heap Buffer) (obj : HttpObj) : Except Fault (Status × HttpObj) :=
  if malloc 0 = false then return (.noMemory, { obj with parsedRes := none })
  else do
    let buffer ← heap.access obj.response
    match ((buffer.take obj.resSize).mapM id).bind (parseResponse malloc) with
    | none => .error .other
    | some (rc, parsedRes) => return (rc, { obj with parsedRes })

/-- `enet_http_exec` once it is connected. The old response is freed when the request is ready. -/
def request (exchange : Exchange) (obj : HttpObj) (heap : Heap Buffer) : Except Fault (Status × World) :=
  match genStream exchange.request { obj with method := exchange.method } exchange.method with
  | none => .error .other
  | some (none, headers) => return (.noMemory, ⟨some { obj with method := exchange.method, headers }, heap⟩)
  | some (some _, headers) => do
      let heap ← heap.free obj.response
      let (rc, heap, response, resSize) ← sendHttpMessage exchange heap obj.resSize
      let obj := { obj with method := exchange.method, headers, response, resSize }
      if rc ≠ .ok then return (rc, ⟨some obj, heap⟩)
      else do
        let (rc, obj) ← parse exchange.parsing heap obj
        return (rc, ⟨some obj, heap⟩)

/-- `enet_http_exec`. -/
def exec (exchange : Exchange) (w : World) : Except Fault (Status × World) :=
  match w.obj with
  | none => return (.invHandle, w)
  | some obj =>
      if exchange.socket ≠ .ok then return (exchange.socket, w)
      else
        match exchange.connect with
        | some code => return (errorCodeConvert code, w)
        | none => request exchange obj w.heap

/-- `enet_duplicate_mem` of a response. Nothing is read if its size is 0. -/
def duplicateResponse (malloc : Malloc) (heap : Heap Buffer) (obj : HttpObj) : Except Fault (Status × Option Buffer) :=
  if malloc 0 = false then return (.noMemory, none)
  else if obj.resSize = 0 then return (.ok, some [])
  else do
    let buffer ← heap.access obj.response
    return (.ok, some (buffer.take obj.resSize))

/-- `enet_duplicate_mem` of anything else. -/
def duplicate (malloc : Malloc) (bytes : Option Bytes) : Except Fault (Status × Option Buffer) :=
  match bytes with
  | none => .error .other
  | some bytes => if malloc 0 = false then return (.noMemory, none) else return (.ok, some (bytes.map some))

/-- What `enet_http_fetch` copies of a parsed response. -/
def fetchParsed (malloc : Malloc) (opt : Int) (key : Bytes) (res : Response) : Except Fault (Status × Option Buffer) :=
  if opt = 1 then
    match findHeader key res.headers with
    | none => return (.notFound, none)
    | some header => duplicate malloc (some (header.content ++ [0]))
  else if opt = 2 then duplicate malloc ((cString res.statusStr).map (· ++ [0]))
  else if opt = 3 then duplicate malloc ((cString res.resDes).map (· ++ [0]))
  else if opt = 4 then duplicate malloc (res.body.bind fun body => read body 0 (unsigned res.bodySize))
  else if opt = 5 then duplicate malloc ((cString res.version).map (· ++ [0]))
  else return (.invParam, none)

/-- `enet_http_fetch` with a place for the data: the status and the data. -/
def fetch (malloc : Malloc) (opt : Int) (key : Bytes) (w : World) : Except Fault (Status × Option Buffer × World) :=
  match w.obj with
  | none => return (.invHandle, none, w)
  | some obj =>
      if opt = 6 then
        match genStream malloc obj obj.method with
        | none => .error .other
        | some (none, headers) => return (.noMemory, none, { w with obj := some { obj with headers } })
        | some (some (stream, _), headers) => return (.ok, some stream, { w with obj := some { obj with headers } })
      else
        match obj.parsedRes with
        | none => return (.notFound, none, w)
        | some res => do
            let (rc, data) ← if opt = 0 then duplicateResponse malloc w.heap obj else fetchParsed malloc opt key res
            return (rc, data, w)

/-- `enet_http_del`, which frees the response with the object. -/
def del (w : World) : Except Fault (Status × World) :=
  match w.obj with
  | none => return (.invHandle, w)
  | some obj => do
      let heap ← w.heap.free obj.response
      return (.ok, ⟨none, heap⟩)

/-- A call on the handle. Without a place for the data, `enet_http_fetch` does nothing. -/
inductive Call where
  | exec (exchange : Exchange)
  | fetch (malloc : Malloc) (opt : Int) (key : Bytes)
  | fetchNowhere
  | del

def step (w : World) : Call → Except Fault World
  | .exec exchange => (exec exchange w).map Prod.snd
  | .fetch malloc opt key => (fetch malloc opt key w).map fun result => result.2.2
  | .fetchNowhere => return w
  | .del => (del w).map Prod.snd

/-- Some calls, one after another. -/
def run (w : World) (calls : List Call) : Except Fault World := calls.foldlM step w

/-- The response is null, or a live buffer of at least `res_size` bytes. -/
def Good (w : World) : Prop :=
  ∀ obj ∈ w.obj, w.heap.Settled (fun buffer : Buffer => obj.resSize ≤ buffer.length) obj.response

end World

/-- How many bytes were received when the loop comes to the call that ends it; none if it ends before, with an
empty chunk or without memory. -/
def receivedAtEnd (malloc : Malloc) : List Bytes → Nat → Nat → Nat → Option Nat
  | [], _, _, readSize => some readSize
  | chunk :: chunks, calls, size, readSize =>
      let st := min chunk.length (size - readSize)
      if st = 0 then none
      else if readSize + st = size then
        if (size + 1024) % 4294967296 = 0 ∨ malloc calls = false then none
        else receivedAtEnd malloc chunks (calls + 1) (size + 1024) (readSize + st)
      else receivedAtEnd malloc chunks calls size (readSize + st)

/-- The endings that free the response: a failing `select`, and a failing `recv` before anything was received. -/
def Ending.Loses : Ending → Nat → Prop
  | .timeout, _ => False
  | .selectFails _, _ => True
  | .closed, _ => False
  | .recvFails _, received => received = 0

/-- The loop of the exchange ends so. -/
def Loses (malloc : Malloc) (ending : Ending) (chunks : List Bytes) (s : Receiving) : Prop :=
  ∃ received, receivedAtEnd malloc chunks s.calls s.size s.readSize = some received ∧ ending.Loses received

namespace Receiving

/-- In the loop, there is room in the buffer. -/
structure Roomy (s : Receiving) : Prop where
  live : s.heap.Live (fun buffer : Buffer => buffer.length = s.size) s.response
  room : s.readSize < s.size
  whole : s.size % 1024 = 0
  small : s.size < 4294967296

/-- What the loop is to leave. -/
def Kept (s : Receiving) : Prop := s.heap.Settled (fun buffer : Buffer => s.size ≤ buffer.length) s.response

variable {malloc : Malloc} {ending : Ending} {s : Receiving} {bytes : Bytes}

private theorem terminate_apply (roomy : s.Roomy) : ∃ s', s.terminate = .ok (.ok, s') ∧ s'.Kept := by
  obtain ⟨buffer, accesses, length⟩ := roomy.live.access
  have inside : s.readSize < buffer.length := length ▸ roomy.room
  refine ⟨{ s with heap := s.heap.store s.response (buffer.set s.readSize (some 0)), size := s.readSize }, ?_, ?_⟩
  · simp only [terminate, accesses, Buffer.store, ok_bind, if_pos inside, pure_eq_ok]
  · right
    apply roomy.live.store
    show s.readSize ≤ (buffer.set s.readSize (some 0)).length
    rw [List.length_set]
    exact inside.le

private theorem discard_apply (roomy : s.Roomy) (code : Int) :
    ∃ rc s', s.discard code = .ok (rc, s') ∧ s'.heap.Dangling s'.response := by
  obtain ⟨heap, frees, dangling⟩ := roomy.live.free
  refine ⟨errorCodeConvert code, { s with heap, size := 0 }, ?_, dangling⟩
  simp only [discard, frees, ok_bind, pure_eq_ok]

/-- The last call of the loop frees the response exactly for some endings. -/
theorem finish_cases (roomy : s.Roomy) (ending : Ending) : ∃ rc s', s.finish ending = .ok (rc, s') ∧
    (ending.Loses s.readSize ∧ s'.heap.Dangling s'.response ∨ ¬ ending.Loses s.readSize ∧ s'.Kept) := by
  obtain ⟨kept, terminates, good⟩ := terminate_apply roomy
  cases ending with
  | timeout => exact ⟨.ok, kept, terminates, .inr ⟨id, good⟩⟩
  | selectFails code =>
      obtain ⟨rc, s', discards, dangling⟩ := discard_apply roomy code
      exact ⟨rc, s', discards, .inl ⟨trivial, dangling⟩⟩
  | closed => exact ⟨.ok, kept, terminates, .inr ⟨id, good⟩⟩
  | recvFails code =>
      rw [finish]
      split
      · next received => exact ⟨.ok, kept, terminates, .inr ⟨received.ne', good⟩⟩
      · next nothing =>
        obtain ⟨rc, s', discards, dangling⟩ := discard_apply roomy code
        exact ⟨rc, s', discards, .inl ⟨Nat.eq_zero_of_not_pos nothing, dangling⟩⟩

private theorem append_apply (roomy : s.Roomy) (fits : bytes.length ≤ s.size - s.readSize) : ∃ heap,
    s.append bytes = .ok { s with heap, readSize := s.readSize + bytes.length } ∧
      heap.Live (fun buffer : Buffer => buffer.length = s.size) s.response := by
  obtain ⟨buffer, accesses, length⟩ := roomy.live.access
  have room := roomy.room
  have inside : s.readSize + (bytes.map some).length ≤ buffer.length := by
    rw [List.length_map]
    omega
  refine ⟨s.heap.store s.response (buffer.take s.readSize ++ bytes.map some ++
    buffer.drop (s.readSize + (bytes.map some).length)), ?_, ?_⟩
  · simp only [append, accesses, Buffer.write, ok_bind, if_pos inside, pure_eq_ok]
  · apply roomy.live.store
    simp only [List.length_append, List.length_take, List.length_drop]
    omega

/-- The buffer grows, or there is none any more. -/
theorem grow_cases (malloc : Malloc) (live : s.heap.Live (fun buffer : Buffer => buffer.length = s.size) s.response)
    (full : s.readSize = s.size) (whole : s.size % 1024 = 0) (small : s.size < 4294967296) :
    ∃ s', s.grow malloc = .ok s' ∧
      (((s.size + 1024) % 4294967296 = 0 ∨ malloc s.calls = false) ∧ s'.response = none ∨
        ¬ ((s.size + 1024) % 4294967296 = 0 ∨ malloc s.calls = false) ∧ s'.response ≠ none ∧ s'.Roomy ∧
          s'.size = s.size + 1024 ∧ s'.readSize = s.readSize ∧ s'.calls = s.calls + 1) := by
  obtain ⟨buffer, accesses, length⟩ := live.access
  obtain ⟨heap, frees, _⟩ := live.free
  by_cases wraps : (s.size + 1024) % 4294967296 = 0
  · refine ⟨{ s with heap, response := none, size := (s.size + 1024) % 4294967296, calls := s.calls + 1 }, ?_,
      .inl ⟨.inl wraps, rfl⟩⟩
    simp only [grow, accesses, frees, wraps, ok_bind, pure_eq_ok, if_true]
  · by_cases fails : malloc s.calls = false
    · refine ⟨{ s with response := none, size := (s.size + 1024) % 4294967296, calls := s.calls + 1 }, ?_,
        .inl ⟨.inr fails, rfl⟩⟩
      simp only [grow, accesses, fails, ok_bind, pure_eq_ok, if_neg wraps, if_true]
    · have larger : (s.size + 1024) % 4294967296 = s.size + 1024 := Nat.mod_eq_of_lt (by omega)
      refine ⟨{ s with
        heap := heap ++ [some (buffer.resize (s.size + 1024))]
        response := some heap.length
        size := s.size + 1024
        calls := s.calls + 1 }, ?_, .inr ⟨?_, ?_, ?_, rfl, rfl, rfl⟩⟩
      · simp only [grow, accesses, frees, larger, ok_bind, pure_eq_ok, if_neg fails]
        rw [if_neg (by omega)]
      · exact not_or.mpr ⟨wraps, fails⟩
      · exact Option.some_ne_none _
      · have grown : (buffer.resize (s.size + 1024)).length = s.size + 1024 := by
          rw [Buffer.resize_apply (by omega), List.length_append, Buffer.length_alloc]
          omega
        refine ⟨Heap.live_new heap grown, ?_, ?_, ?_⟩
        · show s.readSize < s.size + 1024
          omega
        · show (s.size + 1024) % 1024 = 0
          omega
        · show s.size + 1024 < 4294967296
          omega

/-- The loop frees the response and leaves the pointer exactly for some endings. -/
theorem loop_cases (roomy : s.Roomy) (chunks : List Bytes) :
    ∃ rc s', loop malloc ending chunks s = .ok (rc, s') ∧
      (Loses malloc ending chunks s ∧ s'.heap.Dangling s'.response ∨ ¬ Loses malloc ending chunks s ∧ s'.Kept) := by
  induction chunks generalizing s with
  | nil =>
      have same : Loses malloc ending [] s ↔ ending.Loses s.readSize := by
        rw [Loses, receivedAtEnd]
        simp
      rw [same]
      exact finish_cases roomy ending
  | cons chunk chunks ih =>
      have room := roomy.room
      have taken : (chunk.take (s.size - s.readSize)).length = min chunk.length (s.size - s.readSize) := by
        rw [List.length_take, Nat.min_comm]
      rw [loop]
      by_cases empty : chunk.take (s.size - s.readSize) = []
      · have stops : ¬ Loses malloc ending (chunk :: chunks) s := by
          rintro ⟨received, ends, _⟩
          rw [empty, List.length_nil] at taken
          rw [receivedAtEnd, if_pos taken.symm] at ends
          cases ends
        obtain ⟨kept, terminates, good⟩ := terminate_apply roomy
        exact ⟨.ok, kept, by rw [if_pos empty]; exact terminates, .inr ⟨stops, good⟩⟩
      · have received : min chunk.length (s.size - s.readSize) ≠ 0 := by
          rw [← taken]
          exact mt List.length_eq_zero_iff.mp empty
        obtain ⟨heap, appends, live⟩ := append_apply roomy (List.length_take_le (s.size - s.readSize) chunk)
        rw [taken] at appends
        simp only [if_neg empty, appends, ok_bind]
        by_cases full : s.readSize + min chunk.length (s.size - s.readSize) = s.size
        · obtain ⟨grown, grows, ⟨ended, null⟩ | ⟨going, good, roomyGrown, size, readSize, calls⟩⟩ :=
            grow_cases
              (s := { s with heap, readSize := s.readSize + min chunk.length (s.size - s.readSize) })
              malloc live full roomy.whole roomy.small
          · have stops : ¬ Loses malloc ending (chunk :: chunks) s := by
              rintro ⟨received_, ends, _⟩
              rw [receivedAtEnd, if_neg received, if_pos full, if_pos ended] at ends
              cases ends
            simp only [if_pos full, grows, ok_bind, if_pos null, pure_eq_ok]
            exact ⟨.noMemory, grown, rfl, .inr ⟨stops, .inl null⟩⟩
          · have next : Loses malloc ending (chunk :: chunks) s ↔ Loses malloc ending chunks grown := by
              rw [Loses, Loses, receivedAtEnd, if_neg received, if_pos full, if_neg going, size, readSize, calls]
            simp only [if_pos full, grows, ok_bind, if_neg good, next]
            exact ih roomyGrown
        · have next : Loses malloc ending (chunk :: chunks) s ↔
              Loses malloc ending chunks { s with heap, readSize := s.readSize + min chunk.length (s.size - s.readSize) } := by
            rw [Loses, Loses, receivedAtEnd, if_neg received, if_neg full]
          rw [if_neg full, next]
          apply ih
          refine ⟨live, ?_, roomy.whole, roomy.small⟩
          show s.readSize + min chunk.length (s.size - s.readSize) < s.size
          omega

end Receiving

/-- The request is sent, and the receiving of the response ends so that the response is freed. -/
def Exchange.Loses (exchange : Exchange) : Prop :=
  exchange.send = none ∧ exchange.buffers 0 = true ∧
    ∃ received, receivedAtEnd exchange.buffers exchange.chunks 1 1024 0 = some received ∧
      exchange.ending.Loses received

private theorem sendHttpMessage_cases (exchange : Exchange) (heap : Heap Buffer) (size : Nat) :
    ∃ rc after response resSize, sendHttpMessage exchange heap size = .ok (rc, after, response, resSize) ∧
      (exchange.Loses ∧ after.Dangling response ∨
        ¬ exchange.Loses ∧ after.Settled (fun buffer : Buffer => resSize ≤ buffer.length) response) := by
  rw [sendHttpMessage]
  cases sends : exchange.send with
  | some code =>
      have kept : ¬ exchange.Loses := fun loses => by
        rw [Exchange.Loses, sends] at loses
        cases loses.1
      exact ⟨errorCodeConvert code, heap, none, size, rfl, .inr ⟨kept, .inl rfl⟩⟩
  | none =>
      by_cases fails : exchange.buffers 0 = false
      · have kept : ¬ exchange.Loses := fun loses => by
          rw [Exchange.Loses, fails] at loses
          cases loses.2.1
        simp only [if_pos fails]
        exact ⟨.noMemory, heap, none, 1024, rfl, .inr ⟨kept, .inl rfl⟩⟩
      · rw [Bool.not_eq_false] at fails
        have size : ((Buffer.alloc 1024).set 0 (some 0)).length = 1024 := by
          rw [List.length_set, Buffer.length_alloc]
        have roomy : Receiving.Roomy
            ⟨heap ++ [some ((Buffer.alloc 1024).set 0 (some 0))], some heap.length, 1024, 0, 1⟩ :=
          ⟨Heap.live_new heap size, Nat.zero_lt_succ 1023, Nat.mod_self 1024, show 1024 < 4294967296 by decide⟩
        obtain ⟨rc, s, loops, result⟩ := Receiving.loop_cases roomy exchange.chunks
        have same : exchange.Loses ↔ Loses exchange.buffers exchange.ending exchange.chunks
            ⟨heap ++ [some ((Buffer.alloc 1024).set 0 (some 0))], some heap.length, 1024, 0, 1⟩ := by
          rw [Exchange.Loses, Loses]
          exact ⟨fun loses => loses.2.2, fun loses => ⟨sends, fails, loses⟩⟩
        refine ⟨rc, s.heap, s.response, s.size, ?_, by rw [same]; exact result⟩
        simp only [fails, loops, ok_bind, pure_eq_ok, Bool.true_eq_false, if_false]

namespace World

variable {w : World} {obj : HttpObj} {heap : Heap Buffer} {malloc : Malloc} {exchange : Exchange}

/-- The response of an object is null, or a live buffer of its size. -/
def SettledIn (heap : Heap Buffer) (obj : HttpObj) : Prop :=
  heap.Settled (fun buffer : Buffer => obj.resSize ≤ buffer.length) obj.response

private theorem good_some : Good ⟨some obj, heap⟩ ↔ SettledIn heap obj := by
  simp [Good, SettledIn]

private theorem good_none : Good ⟨none, heap⟩ := by
  simp [Good]

private theorem parse_settled (malloc : Malloc) (settled : SettledIn heap obj) :
    Unharmed (fun result => SettledIn heap result.2) (parse malloc heap obj) := by
  rw [parse]
  split
  · exact .ok settled
  · refine settled.access.bind fun buffer _ => ?_
    split
    · exact unharmed_other _
    · exact .ok settled

private theorem parse_dangling (malloc : Malloc) (dangling : heap.Dangling obj.response) :
    ¬ Unharmed (fun result => SettledIn heap result.2) (parse malloc heap obj) := by
  rw [parse]
  split
  · exact mt unharmed_ok.mp dangling.not_settled
  · rw [dangling.access]
    exact not_unharmed_freed _

/-- A connected call gets to the receiving of the response, and loses it there. -/
def Lost (exchange : Exchange) (obj : HttpObj) : Prop :=
  (∃ stream headers, genStream exchange.request { obj with method := exchange.method } exchange.method =
    some (some stream, headers)) ∧ exchange.Loses

private theorem request_unharmed_iff (settled : SettledIn heap obj) :
    Unharmed (fun result => Good result.2) (request exchange obj heap) ↔ ¬ Lost exchange obj := by
  rw [request, Lost]
  cases generated : genStream exchange.request { obj with method := exchange.method } exchange.method with
  | none =>
      refine iff_of_true (unharmed_other _) ?_
      rintro ⟨⟨stream, other, given⟩, _⟩
      cases given
  | some result =>
      obtain ⟨_ | stream, headers⟩ := result
      · refine iff_of_true (.ok (good_some.mpr settled)) ?_
        rintro ⟨⟨stream, other, given⟩, _⟩
        cases given
      · obtain ⟨freed, frees⟩ := settled.free
        obtain ⟨rc, after, response, resSize, sends, result⟩ := sendHttpMessage_cases exchange freed obj.resSize
        simp only [frees, sends, ok_bind]
        have gets : (∃ stream_ headers_, some (some stream, headers) = some (some stream_, headers_)) ∧ exchange.Loses ↔
            exchange.Loses := and_iff_right ⟨stream, headers, rfl⟩
        rw [gets]
        let received := { obj with method := exchange.method, headers, response, resSize }
        rcases result with ⟨loses, dangling⟩ | ⟨keeps, kept⟩
        · refine iff_of_false ?_ (not_not.mpr loses)
          split
          · rw [pure_eq_ok, unharmed_ok, good_some]
            exact dangling.not_settled
          · have lost : after.Dangling received.response := dangling
            intro unharmed
            apply parse_dangling exchange.parsing lost
            cases parses : parse exchange.parsing after received with
            | error fault =>
                rw [parses] at unharmed
                exact unharmed_error.mpr (unharmed_error.mp unharmed)
            | ok result =>
                rw [parses, ok_bind, pure_eq_ok, unharmed_ok] at unharmed
                exact .ok (good_some.mp unharmed)
        · have here : SettledIn after received := kept
          refine iff_of_true ?_ keeps
          split
          · exact .ok (good_some.mpr here)
          · exact (parse_settled exchange.parsing here).bind fun result settled => .ok (good_some.mpr settled)

/-- The call is one of `enet_http_exec` that frees the response it leaves: it receives none of it, or `select`
fails while it does. -/
def Breaks (w : World) : Call → Prop
  | .exec exchange => ∃ obj, w.obj = some obj ∧ exchange.socket = .ok ∧ exchange.connect = none ∧ Lost exchange obj
  | _ => False

private theorem exec_unharmed_iff (good : w.Good) (exchange : Exchange) :
    Unharmed (fun result => Good result.2) (exec exchange w) ↔ ¬ w.Breaks (.exec exchange) := by
  obtain ⟨obj, heap⟩ := w
  rw [exec, Breaks]
  cases obj with
  | none =>
      refine iff_of_true (.ok good) ?_
      rintro ⟨obj, given, _⟩
      cases given
  | some obj =>
      have settled := good_some.mp good
      dsimp only
      by_cases socket : exchange.socket = .ok
      · cases connects : exchange.connect with
        | some code =>
            rw [if_neg (not_not.mpr socket)]
            refine iff_of_true (.ok good) ?_
            rintro ⟨_, _, _, connected, _⟩
            cases connected
        | none =>
            rw [if_neg (not_not.mpr socket)]
            refine (request_unharmed_iff settled).trans (not_congr ?_)
            constructor
            · exact fun lost => ⟨obj, rfl, socket, rfl, lost⟩
            · rintro ⟨_, ⟨⟩, _, _, lost⟩
              exact lost
      · rw [if_pos socket]
        exact iff_of_true (.ok good) fun ⟨_, _, connected, _⟩ => socket connected

private theorem duplicateResponse_unharmed (malloc : Malloc) (settled : SettledIn heap obj) :
    Unharmed (fun _ => True) (duplicateResponse malloc heap obj) := by
  rw [duplicateResponse]
  split
  · exact .ok trivial
  · split
    · exact .ok trivial
    · exact settled.access.bind fun _ _ => .ok trivial

theorem duplicate_unharmed (malloc : Malloc) (bytes : Option Bytes) : Unharmed (fun _ => True) (duplicate malloc bytes) := by
  cases bytes with
  | none => exact unharmed_other _
  | some bytes =>
      rw [duplicate]
      split
      · exact .ok trivial
      · exact .ok trivial

private theorem fetchParsed_unharmed (malloc : Malloc) (opt : Int) (key : Bytes) (res : Response) :
    Unharmed (fun _ => True) (fetchParsed malloc opt key res) := by
  unfold fetchParsed
  split
  · split
    · exact .ok trivial
    · exact duplicate_unharmed malloc _
  repeat' split
  all_goals first | exact duplicate_unharmed malloc _ | exact .ok trivial

private theorem fetch_unharmed (good : w.Good) (malloc : Malloc) (opt : Int) (key : Bytes) :
    Unharmed (fun result => Good result.2.2) (fetch malloc opt key w) := by
  obtain ⟨obj, heap⟩ := w
  cases obj with
  | none => exact .ok good
  | some obj =>
      have settled := good_some.mp good
      rw [fetch]
      dsimp only
      by_cases request : opt = 6
      · rw [if_pos request]
        cases genStream malloc obj obj.method with
        | none => exact unharmed_other _
        | some result =>
            obtain ⟨_ | stream, headers⟩ := result
            · exact .ok (good_some.mpr settled)
            · exact .ok (good_some.mpr settled)
      · rw [if_neg request]
        cases obj.parsedRes with
        | none => exact .ok good
        | some res =>
            dsimp only
            split
            · exact (duplicateResponse_unharmed malloc settled).bind fun _ _ => .ok good
            · exact (fetchParsed_unharmed malloc opt key res).bind fun _ _ => .ok good

private theorem del_unharmed (good : w.Good) : Unharmed (fun result => Good result.2) (del w) := by
  obtain ⟨obj, heap⟩ := w
  cases obj with
  | none => exact .ok good
  | some obj =>
      obtain ⟨after, frees⟩ := (good_some.mp good).free
      simp only [del, frees, ok_bind]
      exact .ok good_none

/-- A call keeps a good state exactly if it does not free the response it leaves. -/
theorem step_unharmed_iff (good : w.Good) (call : Call) : Unharmed Good (w.step call) ↔ ¬ w.Breaks call := by
  cases call with
  | exec exchange => exact unharmed_map.trans (exec_unharmed_iff good exchange)
  | fetch malloc opt key => exact iff_of_true (unharmed_map.mpr (fetch_unharmed good malloc opt key)) id
  | fetchNowhere => exact iff_of_true (.ok good) id
  | del => exact iff_of_true (unharmed_map.mpr (del_unharmed good)) id

/-- A handle on which nothing was executed. -/
def start (obj : HttpObj) : World := ⟨some { obj with response := none, resSize := 0, parsedRes := none }, []⟩

private theorem start_good (obj : HttpObj) : (start obj).Good := good_some.mpr (.inl rfl)

private theorem run_snoc (w : World) (front : List Call) (call : Call) :
    w.run (front ++ [call]) = w.run front >>= fun between => between.step call := by
  simp only [run, List.foldlM_append, List.foldlM_cons, List.foldlM_nil, bind_pure]

/-- In a run, every state is good and no freed response is accessed, exactly if no call of it frees the response
it leaves. -/
theorem run_unharmed_iff (obj : HttpObj) (calls : List Call) :
    (∀ front, front <+: calls → Unharmed Good ((start obj).run front)) ↔
      ∀ front call, front ++ [call] <+: calls → ∀ w, (start obj).run front = .ok w → ¬ w.Breaks call := by
  constructor
  · intro unharmed front call within w runs
    have before := unharmed front ((List.prefix_append front [call]).trans within)
    have after := unharmed (front ++ [call]) within
    rw [runs] at before
    rw [run_snoc, runs] at after
    exact (step_unharmed_iff (unharmed_ok.mp before) call).mp after
  · intro keeps front within
    induction front using List.reverseRecOn with
    | nil => exact .ok (start_good obj)
    | append_singleton front call ih =>
        have before := ih ((List.prefix_append front [call]).trans within)
        rw [run_snoc]
        cases runs : (start obj).run front with
        | error fault =>
            rw [runs] at before
            exact before
        | ok w =>
            rw [runs] at before
            exact (step_unharmed_iff (unharmed_ok.mp before) call).mpr (keeps front call within w runs)

/-- A connected exchange in which `select` fails at once. -/
def selectFails : Exchange :=
  ⟨0, .ok, none, none, [], .selectFails 10038, fun _ => true, fun _ => true, fun _ => true⟩

/-- An access to a freed response. -/
def isFreed : Except Fault World → Bool
  | .error .freed => true
  | _ => false

private theorem not_unharmed_of_isFreed {result : Except Fault World} (freed : isFreed result = true) :
    ¬ Unharmed Good result := by
  cases result with
  | ok w => cases freed
  | error fault =>
      cases fault with
      | freed => exact not_unharmed_freed Good
      | other => cases freed

/-- The response is freed once more with the handle. -/
theorem selectFails_freed_twice : ¬ ∀ (obj : HttpObj) (calls front : List Call),
    front <+: calls → Unharmed Good ((start obj).run front) := by
  intro unharmed
  have twice := unharmed HttpObj.new [.exec selectFails, .del] [.exec selectFails, .del] (List.prefix_refl _)
  exact not_unharmed_of_isFreed (by decide +kernel) twice

end World

end GbfLibrary.Enet.Http
