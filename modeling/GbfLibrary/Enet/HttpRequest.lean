import GbfLibrary.Enet.HttpObject

/-!
# HTTP requests

`enet_http_gen_stream`, `insert_segment` and `enet_http_set_body` of `enet_tools.c`. Reading what is not known as
a string, and writing outside a buffer, is a fault.
-/

set_option autoImplicit false

namespace GbfLibrary.Enet.Http

open Memory

/-- A string with the byte that terminates it. -/
def Buffer.ofString (str : Bytes) : Buffer := (str ++ [0]).map some

/-- `memcpy` into a buffer. -/
def Buffer.write (buffer : Buffer) (offset : Nat) (bytes : Buffer) : Option Buffer :=
  if offset + bytes.length ≤ buffer.length then
    some (buffer.take offset ++ bytes ++ buffer.drop (offset + bytes.length))
  else none

/-- `strcat`. -/
def Buffer.strcat (buffer : Buffer) (str : Bytes) : Option Buffer := do
  let front ← buffer.string
  buffer.write front.length (ofString str)

/-- What `realloc` makes of a buffer. -/
def Buffer.resize (buffer : Buffer) (size : Nat) : Buffer := buffer.take size ++ alloc (size - buffer.length)

/-- `enet_http_set_body`. -/
def setBody (malloc : Malloc) (data : Bytes) (size : Int) (obj : HttpObj) : Option (Status × HttpObj) :=
  if malloc 0 = false then some (.noMemory, { obj with body := none })
  else do
    let bytes ← read data 0 (unsigned size)
    let body ← (Buffer.alloc (unsigned (size + 2))).write 0 ((bytes ++ [13, 10]).map some)
    return (.ok, { obj with body := some body, bodySize := signed (size + 2) })

/-- The variables `stream`, `buffer_size` and `*size` of `enet_http_gen_stream`, with the calls of `malloc` and
`realloc` so far. -/
structure Output where
  stream : Buffer
  bufferSize : Nat
  size : Nat
  calls : Nat
  deriving DecidableEq

/-- The part of `insert_segment` that makes room. What `realloc` does with the size `0` is not known. -/
def ensureRoom (malloc : Malloc) (inc : Nat) (s : Output) : Option (Status × Output) :=
  let reqSize := (inc + s.size + 1) % 4294967296
  if s.bufferSize ≤ reqSize then
    let bufferSize := (s.bufferSize + reqSize) % 4294967296
    if bufferSize = 0 then none
    else if malloc s.calls = false then some (.noMemory, { s with calls := s.calls + 1 })
    else some (.ok, { s with stream := s.stream.resize bufferSize, bufferSize, calls := s.calls + 1 })
  else some (.ok, s)

/-- `insert_segment`. Without a size the segment is a string. -/
def insertSegment (malloc : Malloc) (segment : Option Buffer) (segSize : Int) (s : Output) :
    Option (Status × Output) :=
  match segment with
  | none => some (.ok, s)
  | some segment =>
      if segSize = 0 then do
        let str ← segment.string
        let inc := str.length % 4294967296
        if inc = 0 then return (.ok, s)
        else do
          let (rc, s) ← ensureRoom malloc inc s
          if rc ≠ .ok then return (rc, s)
          else do
            let stream ← s.stream.strcat str
            return (.ok, { s with stream, size := (s.size + inc) % 4294967296 })
      else do
        let inc := unsigned segSize
        let (rc, s) ← ensureRoom malloc inc s
        if rc ≠ .ok then return (rc, s)
        else if segSize < 0 ∨ segment.length < segSize.toNat then none
        else do
          let stream ← s.stream.write s.size (segment.take segSize.toNat)
          return (.ok, { s with stream, size := (s.size + inc) % 4294967296 })

/-- Some calls of `insert_segment` with strings, up to one that fails. -/
def insertStrings (malloc : Malloc) : List (Option Buffer) → Output → Option (Status × Output)
  | [], s => some (.ok, s)
  | segment :: segments, s => do
      let (rc, s) ← insertSegment malloc segment 0 s
      if rc ≠ .ok then return (rc, s) else insertStrings malloc segments s

/-- `enet_http_get_method_string`. -/
def getMethodString (method : Int) : Bytes :=
  if method = 0 then [71, 69, 84]
  else if method = 1 then [80, 79, 83, 84]
  else if method = 2 then [80, 85, 84]
  else if method = 3 then [68, 69, 76, 69, 84, 69]
  else if method = -1 then [77, 69, 84, 72, 79, 68]
  else [71, 69, 84]

/-- ` HTTP/1.1` and the `User-Agent` line. -/
def agent : Bytes :=
  [32, 72, 84, 84, 80, 47, 49, 46, 49] ++ [13, 10] ++
  [85, 115, 101, 114, 45, 65, 103, 101, 110, 116, 58, 32, 76, 66, 83, 32] ++
  [101, 97, 115, 101, 110, 101, 116, 32, 65, 80, 73] ++ [13, 10]

/-- The end of a line. -/
def crlf : Bytes := [13, 10]

/-- `host`. -/
def hostName : Bytes := [104, 111, 115, 116]

/-- `Host: `. -/
def hostLabel : Bytes := [72, 111, 115, 116, 58, 32]

/-- The segments of a header. -/
def Header.segments (header : Header) : List (Option Buffer) :=
  [some (Buffer.ofString header.key), some (Buffer.ofString [58, 32]), some (Buffer.ofString header.content),
    some (Buffer.ofString crlf)]

/-- The loop of `enet_http_gen_stream` over the headers, whose keys it turns to lower case. -/
def insertHeaderLines (malloc : Malloc) : List Header → Bool → Output → Option (Status × List Header × Bool × Output)
  | [], isHostOw, s => some (.ok, [], isHostOw, s)
  | header :: next, isHostOw, s => do
      let (rc, s) ← insertStrings malloc header.segments s
      if rc ≠ .ok then return (rc, header :: next, isHostOw, s)
      else do
        let key := lowercase header.key header.key.length
        let (rc, next, isHostOw, s) ← insertHeaderLines malloc next (if key = hostName then true else isHostOw) s
        return (rc, { header with key } :: next, isHostOw, s)

/-- The segments in front of the headers. -/
def HttpObj.startSegments (http : HttpObj) (method : Int) : List (Option Buffer) :=
  [some (Buffer.ofString (getMethodString method)), some (Buffer.ofString [32]), http.uri, some (Buffer.ofString agent)]

/-- The segments behind the headers. -/
def HttpObj.hostSegments (http : HttpObj) (isHostOw : Bool) : List (Option Buffer) :=
  if isHostOw = true then [some (Buffer.ofString crlf)]
  else [some (Buffer.ofString hostLabel), http.host, some (Buffer.ofString crlf), some (Buffer.ofString crlf)]

/-- `enet_http_gen_stream`: the stream with its size, and the headers afterwards. -/
def genStream (malloc : Malloc) (http : HttpObj) (method : Int) : Option (Option (Buffer × Nat) × List Header) :=
  if malloc 0 = false then some (none, http.headers)
  else do
    let stream ← (Buffer.alloc 128).store 0 0
    let (rc, s) ← insertStrings malloc (http.startSegments method) ⟨stream, 128, 0, 1⟩
    if rc ≠ .ok then return (none, http.headers)
    else do
      let (rc, headers, isHostOw, s) ← insertHeaderLines malloc http.headers false s
      if rc ≠ .ok then return (none, headers)
      else do
        let (rc, s) ← insertStrings malloc (http.hostSegments isHostOw) s
        if rc ≠ .ok then return (none, headers)
        else do
          let (rc, s) ← insertSegment malloc http.body http.bodySize s
          if rc ≠ .ok then return (none, headers) else return (some (s.stream, s.size), headers)

section Buffers

variable {buffer front back bytes : Buffer} {str written : Bytes} {offset size : Nat}

@[simp] theorem Buffer.length_ofString (str : Bytes) : (Buffer.ofString str).length = str.length + 1 := by
  rw [ofString, List.length_map, List.length_append, List.length_singleton]

theorem Buffer.ofString_append (str : Bytes) (rest : Buffer) : ofString str ++ rest = str.map some ++ some 0 :: rest := by
  rw [ofString, List.map_append, List.append_assoc]
  rfl

theorem Buffer.ofString_front (written str : Bytes) : ofString (written ++ str) = written.map some ++ ofString str := by
  rw [ofString, ofString, List.append_assoc, List.map_append]

private theorem Buffer.string_ofString (good : 0 ∉ str) (rest : Buffer) : (ofString str ++ rest).string = some str := by
  have ends : 0 ∈ str ++ [0] := List.mem_append_right _ (List.mem_singleton_self 0)
  rw [ofString, string_append ends, cut_snoc, cut_eq_self good]

private theorem Buffer.write_apply (front : Buffer) (here : front.length = offset) (fits : bytes.length ≤ back.length) :
    (front ++ back).write offset bytes = some (front ++ bytes ++ back.drop bytes.length) := by
  subst here
  have inside : front.length + bytes.length ≤ (front ++ back).length := by
    rw [List.length_append]
    omega
  rw [write, if_pos inside, List.take_left, List.drop_append, List.drop_eq_nil_of_le (Nat.le_add_right _ _),
    Nat.add_sub_cancel_left, List.nil_append]

/-- `strcat` behind a string, where there is room. -/
theorem Buffer.strcat_apply (good : 0 ∉ written) (fits : str.length ≤ back.length) :
    (ofString written ++ back).strcat str = some (ofString (written ++ str) ++ back.drop str.length) := by
  have room : (ofString str).length ≤ (some 0 :: back).length := by
    rw [length_ofString, List.length_cons]
    exact Nat.succ_le_succ fits
  have wrote := write_apply (written.map some) (List.length_map some) room
  rw [strcat, string_ofString good, Option.bind_eq_bind, Option.bind_some, ofString_append, wrote, length_ofString,
    List.drop_succ_cons, ofString_front]

private theorem Buffer.store_alloc (size : Nat) (c : Byte) :
    (alloc (size + 1)).store 0 c = some (some c :: alloc size) := by
  rw [store, length_alloc, if_pos (Nat.succ_pos size)]
  rfl

theorem Buffer.resize_apply (larger : buffer.length ≤ size) :
    buffer.resize size = buffer ++ alloc (size - buffer.length) := by
  rw [resize, List.take_of_length_le larger]

private theorem noNul_string (reads : buffer.string = some str) : 0 ∉ str := by
  induction buffer generalizing str with
  | nil => cases reads
  | cons c buffer ih =>
      cases c with
      | none => cases reads
      | some c =>
          rw [Buffer.string] at reads
          split at reads
          · cases reads
            exact List.not_mem_nil
          · next plain =>
            obtain ⟨rest, readsRest, rfl⟩ := Option.map_eq_some_iff.mp reads
            rw [List.mem_cons, not_or]
            exact ⟨Ne.symm plain, ih readsRest⟩

end Buffers

/-- The stream holds what was written, with room for a total and its terminating byte. -/
structure Output.Room (s : Output) (written : Bytes) (total : Nat) : Prop where
  content : ∃ junk, s.stream = Buffer.ofString written ++ junk
  size : s.size = written.length
  capacity : s.stream.length = s.bufferSize
  enough : total < s.bufferSize
  bound : s.bufferSize ≤ 2 * total + 130

/-- What was written is a string. -/
structure Output.Holds (s : Output) (written : Bytes) : Prop where
  good : 0 ∉ written
  room : s.Room written written.length

section Segments

variable {s : Output} {written str : Bytes} {segment : Buffer} {pointer : Option Buffer} {inc : Nat}

private theorem ensureRoom_apply (room : s.Room written written.length) (small : written.length + inc < 536870912) :
    ∃ s', ensureRoom (fun _ => true) inc s = some (.ok, s') ∧ s'.Room written (written.length + inc) := by
  obtain ⟨⟨junk, content⟩, size, capacity, enough, bound⟩ := room
  have reqSize : (inc + s.size + 1) % 4294967296 = written.length + inc + 1 := by
    rw [size, Nat.mod_eq_of_lt (by omega)]
    omega
  rw [ensureRoom]
  simp only [reqSize]
  by_cases full : s.bufferSize ≤ written.length + inc + 1
  · have larger : (s.bufferSize + (written.length + inc + 1)) % 4294967296 =
        s.bufferSize + (written.length + inc + 1) := Nat.mod_eq_of_lt (by omega)
    have grown : s.stream.resize (s.bufferSize + (written.length + inc + 1)) = _ := Buffer.resize_apply (by omega)
    refine ⟨{ s with
      stream := s.stream.resize (s.bufferSize + (written.length + inc + 1))
      bufferSize := s.bufferSize + (written.length + inc + 1)
      calls := s.calls + 1 }, ?_, ?_, size, ?_, ?_, ?_⟩
    · rw [larger, if_pos full, if_neg (by omega), if_neg (by simp)]
    · rw [grown, content, List.append_assoc]
      exact ⟨_, rfl⟩
    · show (s.stream.resize _).length = s.bufferSize + (written.length + inc + 1)
      rw [grown, List.length_append, Buffer.length_alloc]
      omega
    · show written.length + inc < s.bufferSize + (written.length + inc + 1)
      omega
    · show s.bufferSize + (written.length + inc + 1) ≤ 2 * (written.length + inc) + 130
      omega
  · refine ⟨s, if_neg full, ⟨junk, content⟩, size, capacity, ?_, ?_⟩
    · omega
    · omega

private theorem insertSegment_string (holds : s.Holds written) (reads : segment.string = some str)
    (small : written.length + str.length < 536870912) :
    ∃ s', insertSegment (fun _ => true) (some segment) 0 s = some (.ok, s') ∧ s'.Holds (written ++ str) := by
  have inc : str.length % 4294967296 = str.length := Nat.mod_eq_of_lt (by omega)
  have good : 0 ∉ written ++ str := by
    rw [List.mem_append, not_or]
    exact ⟨holds.good, noNul_string reads⟩
  by_cases empty : str.length = 0
  · obtain rfl := List.length_eq_zero_iff.mp empty
    refine ⟨s, ?_, by rwa [List.append_nil]⟩
    simp [insertSegment, reads]
  · obtain ⟨roomy, ensures, ⟨junk, content⟩, size, capacity, enough, bound⟩ := ensureRoom_apply holds.room small
    have junkLength : junk.length + (written.length + 1) = roomy.bufferSize := by
      rw [← capacity, content, List.length_append, Buffer.length_ofString, Nat.add_comm]
    have appended := Buffer.strcat_apply holds.good (show str.length ≤ junk.length by omega)
    have total : (roomy.size + str.length) % 4294967296 = (written ++ str).length := by
      rw [List.length_append, size, Nat.mod_eq_of_lt (by omega)]
    refine ⟨{ roomy with
      stream := Buffer.ofString (written ++ str) ++ junk.drop str.length
      size := (written ++ str).length }, ?_, good, ⟨_, rfl⟩, rfl, ?_, ?_, ?_⟩
    · simp [insertSegment, reads, inc, ensures, content, appended, total, show str ≠ [] from mt (congrArg List.length) empty]
    · show (Buffer.ofString (written ++ str) ++ junk.drop str.length).length = roomy.bufferSize
      rw [List.length_append, Buffer.length_ofString, List.length_append, List.length_drop]
      omega
    · rw [List.length_append]
      exact enough
    · rw [List.length_append]
      exact bound

/-- A pointer to a string, or null. -/
def IsText (pointer : Option Buffer) : Prop := pointer = none ∨ ∃ str, textOf pointer = some str

/-- The string that a pointer leads to, if any. -/
def stringOf (pointer : Option Buffer) : Bytes := (textOf pointer).getD []

private theorem isText_ofString (good : 0 ∉ str) : IsText (some (Buffer.ofString str)) := by
  have reads := Buffer.string_ofString good []
  rw [List.append_nil] at reads
  exact .inr ⟨str, reads⟩

private theorem stringOf_ofString (good : 0 ∉ str) : stringOf (some (Buffer.ofString str)) = str := by
  have reads := Buffer.string_ofString good []
  rw [List.append_nil] at reads
  rw [stringOf, textOf, Option.bind_some, reads, Option.getD_some]

private theorem insertStrings_apply {segments : List (Option Buffer)} (holds : s.Holds written)
    (texts : ∀ pointer ∈ segments, IsText pointer)
    (small : written.length + (segments.flatMap stringOf).length < 536870912) :
    ∃ s', insertStrings (fun _ => true) segments s = some (.ok, s') ∧ s'.Holds (written ++ segments.flatMap stringOf) := by
  induction segments generalizing s written with
  | nil => exact ⟨s, rfl, by simpa using holds⟩
  | cons pointer segments ih =>
      rw [List.flatMap_cons, List.length_append] at small
      obtain ⟨here, others⟩ := List.forall_mem_cons.mp texts
      have first : ∃ s', insertSegment (fun _ => true) pointer 0 s = some (.ok, s') ∧
          s'.Holds (written ++ stringOf pointer) := by
        cases pointer with
        | none => exact ⟨s, rfl, by simpa [stringOf, textOf] using holds⟩
        | some segment =>
            obtain ⟨str, reads⟩ := here.resolve_left (by simp)
            have same : stringOf (some segment) = str := by rw [stringOf, reads, Option.getD_some]
            rw [same] at small ⊢
            exact insertSegment_string holds reads (by omega)
      obtain ⟨between, inserts, between_holds⟩ := first
      obtain ⟨s', later, holds'⟩ := ih between_holds others (by rw [List.length_append]; omega)
      refine ⟨s', ?_, by rwa [List.flatMap_cons, ← List.append_assoc]⟩
      simp [insertStrings, inserts, later]

/-- The bytes of a text in ASCII. -/
def ascii (text : String) : Bytes := text.toList.map fun c => .ofNat 8 c.toNat

private theorem ascii_crlf : ascii "\r\n" = crlf := by decide

/-- The line of a header. -/
def Header.text (header : Header) : Bytes := header.key ++ (ascii ": " ++ (header.content ++ ascii "\r\n"))

/-- A header with strings, and a key in lower case. -/
structure Header.Plain (header : Header) : Prop where
  key : 0 ∉ header.key
  content : 0 ∉ header.content
  lowerCase : header.key.map lower = header.key

theorem flatMap_segments {header : Header} (plain : header.Plain) : header.segments.flatMap stringOf = header.text := by
  simp only [Header.segments, List.flatMap_cons, List.flatMap_nil, stringOf_ofString plain.key,
    stringOf_ofString plain.content, stringOf_ofString (show 0 ∉ [(58 : Byte), 32] by decide),
    stringOf_ofString (show 0 ∉ crlf by decide), List.append_nil, Header.text, ascii_crlf]
  rfl

theorem isText_segments {header : Header} (plain : header.Plain) : ∀ pointer ∈ header.segments, IsText pointer := by
  simp only [Header.segments, List.forall_mem_cons, List.not_mem_nil, false_imp_iff, implies_true, and_true]
  exact ⟨isText_ofString plain.key, isText_ofString (show 0 ∉ [(58 : Byte), 32] by decide),
    isText_ofString plain.content, isText_ofString (show 0 ∉ crlf by decide)⟩

private theorem insertHeaderLines_apply {headers : List Header} (isHostOw : Bool) (holds : s.Holds written)
    (plain : ∀ header ∈ headers, header.Plain)
    (small : written.length + (headers.flatMap Header.text).length < 536870912) :
    ∃ s', insertHeaderLines (fun _ => true) headers isHostOw s =
        some (.ok, headers, isHostOw || headers.any fun header => header.key = hostName, s') ∧
      s'.Holds (written ++ headers.flatMap Header.text) := by
  induction headers generalizing s written isHostOw with
  | nil => exact ⟨s, by simp [insertHeaderLines], by simpa using holds⟩
  | cons header headers ih =>
      rw [List.flatMap_cons, List.length_append] at small
      obtain ⟨here, others⟩ := List.forall_mem_cons.mp plain
      have line := flatMap_segments here
      obtain ⟨between, inserts, between_holds⟩ := insertStrings_apply holds (isText_segments here)
        (by rw [line]; omega)
      rw [line] at between_holds
      obtain ⟨s', later, holds'⟩ := ih (if header.key = hostName then true else isHostOw) between_holds others
        (by rw [List.length_append]; omega)
      refine ⟨s', ?_, by rwa [List.flatMap_cons, ← List.append_assoc]⟩
      have flag : ((if header.key = hostName then true else isHostOw) ||
          headers.any fun header => decide (header.key = hostName)) =
          (isHostOw || (header :: headers).any fun header => decide (header.key = hostName)) := by
        by_cases host : header.key = hostName
        · simp [host]
        · simp [host]
      simp only [insertHeaderLines, inserts, lowercase_eq, here.lowerCase, later, flag, Option.bind_eq_bind,
        Option.bind_some, ne_eq, not_true_eq_false, if_false]
      rfl

end Segments

/-- The bytes of a block. -/
def bytesOf (pointer : Option Buffer) : Bytes := (pointer.getD []).reduceOption

/-- The words for `ENET_HTTP_METHOD`, and `GET` for what is none. -/
def methodName (method : Int) : String :=
  if method = 1 then "POST" else if method = 2 then "PUT" else if method = 3 then "DELETE"
  else if method = -1 then "METHOD" else "GET"

def HttpObj.requestLine (http : HttpObj) (method : Int) : Bytes :=
  ascii (methodName method) ++ (ascii " " ++ (stringOf http.uri ++
    (ascii " HTTP/1.1\r\n" ++ ascii "User-Agent: LBS easenet API\r\n")))

/-- The line that names the host, unless a header does. -/
def HttpObj.hostLine (http : HttpObj) (named : Bool) : Bytes :=
  if named = true then [] else ascii "Host: " ++ (stringOf http.host ++ ascii "\r\n")

/-- The request of an object. -/
def HttpObj.request (http : HttpObj) (method : Int) : Bytes :=
  http.requestLine method ++ http.headers.flatMap Header.text ++
    (http.hostLine (http.headers.any fun header => header.key = ascii "host") ++ ascii "\r\n") ++ bytesOf http.body

private theorem ascii_methodName (method : Int) : ascii (methodName method) = getMethodString method := by
  unfold getMethodString methodName
  repeat' split
  all_goals first | decide | omega

/-- The objects with any `uri` and `host`, headers from `enet_http_insert_header` and a body from
`enet_http_set_body`, whatever else is in them. -/
inductive Made : HttpObj → Prop
  | fresh {obj : HttpObj} (noHeaders : obj.headers = []) (noBody : obj.body = none) (uri : IsText obj.uri)
      (host : IsText obj.host) : Made obj
  | strings {obj : HttpObj} {uri host : Option Buffer} (made : Made obj) (uriText : IsText uri)
      (hostText : IsText host) : Made { obj with uri, host }
  | header {obj : HttpObj} {malloc : Malloc} {key value : Bytes} {rc : Status} {headers : List Header}
      {calls after : Nat} (made : Made obj) (goodKey : 0 ∉ key) (goodValue : 0 ∉ value)
      (inserts : insertHeader malloc calls key value obj.headers = (rc, headers, after)) : Made { obj with headers }
  | body {obj after : HttpObj} {malloc : Malloc} {data : Bytes} {size : Int} {rc : Status} (made : Made obj)
      (nonnegative : 0 ≤ size) (small : size < 2147483648)
      (sets : setBody malloc data size obj = some (rc, after)) : Made after

/-- A body as `enet_http_set_body` leaves it, or none. -/
def IsBody (body : Option Buffer) (size : Int) : Prop :=
  body = none ∨ ∃ bytes : Bytes, 2 ≤ bytes.length ∧ body = some (bytes.map some) ∧ size = signed bytes.length

/-- What the calls keep of an object. -/
structure HttpObj.Sound (http : HttpObj) : Prop where
  uri : IsText http.uri
  host : IsText http.host
  headers : ∀ header ∈ http.headers, header.Plain
  body : IsBody http.body http.bodySize

section Objects

variable {http after : HttpObj} {malloc : Malloc} {data key value : Bytes} {size : Int} {rc : Status}

private theorem plain_insertNode {header : Header} {headers : List Header} (here : header.Plain)
    (plain : ∀ node ∈ headers, node.Plain) : ∀ node ∈ insertNode header headers, node.Plain := by
  induction headers with
  | nil => simpa [insertNode] using here
  | cons root next ih =>
      obtain ⟨first, others⟩ := List.forall_mem_cons.mp plain
      rw [insertNode]
      split
      · exact List.forall_mem_cons.mpr ⟨⟨first.key, here.content, first.lowerCase⟩, others⟩
      · exact List.forall_mem_cons.mpr ⟨first, ih others⟩

theorem plain_insertHeader {headers next : List Header} {calls count : Nat} (goodKey : 0 ∉ key) (goodValue : 0 ∉ value)
    (plain : ∀ node ∈ headers, node.Plain)
    (inserts : insertHeader malloc calls key value headers = (rc, next, count)) : ∀ node ∈ next, node.Plain := by
  rw [insertHeader] at inserts
  split at inserts
  · cases inserts
    exact plain
  · split at inserts
    · cases inserts
      exact plain
    · cases inserts
      apply plain_insertNode _ plain
      rw [lowercase_eq]
      exact ⟨noNul_lower goodKey, goodValue, map_lower_map_lower key⟩

/-- The body is what was given, with the end of a line. -/
theorem setBody_eq (nonnegative : 0 ≤ size) (small : size < 2147483648)
    (sets : setBody malloc data size http = some (rc, after)) :
    (rc = .noMemory ∧ after = { http with body := none }) ∨
      rc = .ok ∧ size ≤ data.length ∧
        after = { http with body := some ((data.take size.toNat ++ crlf).map some), bodySize := signed (size + 2) } := by
  rw [setBody] at sets
  split at sets
  · cases sets
    exact .inl ⟨rfl, rfl⟩
  · right
    obtain ⟨bytes, reads, rest⟩ := Option.bind_eq_some_iff.mp sets
    obtain ⟨body, writes, returns⟩ := Option.bind_eq_some_iff.mp rest
    cases returns
    have length := length_of_read reads
    have inside := (le_of_read reads).2
    have taken := eq_of_read reads
    rw [unsigned_of_lt nonnegative (by omega)] at length inside taken
    rw [Int.toNat_zero, List.drop_zero] at taken
    have exact' : (Buffer.alloc (unsigned (size + 2))).length = ((bytes ++ [13, 10]).map some).length := by
      rw [Buffer.length_alloc, unsigned_of_lt (by omega) (by omega), List.length_map, List.length_append, length]
      simp only [List.length_cons, List.length_nil]
      omega
    have wrote := Buffer.write_apply [] List.length_nil exact'.ge
    rw [List.nil_append, List.nil_append, ← exact', List.drop_length, List.append_nil, writes] at wrote
    refine ⟨rfl, by omega, ?_⟩
    rw [Option.some.inj wrote, taken]
    rfl

private theorem isBody_setBody (nonnegative : 0 ≤ size) (small : size < 2147483648)
    (sets : setBody malloc data size http = some (rc, after)) : IsBody after.body after.bodySize := by
  rcases setBody_eq nonnegative small sets with ⟨rfl, rfl⟩ | ⟨rfl, inside, rfl⟩
  · exact .inl rfl
  · have length : (data.take size.toNat ++ crlf).length = size.toNat + 2 := by
      rw [List.length_append, List.length_take_of_le (by omega)]
      rfl
    have same : ((size.toNat + 2 : Nat) : Int) = size + 2 := by omega
    refine .inr ⟨data.take size.toNat ++ crlf, by omega, rfl, ?_⟩
    rw [length, same]

theorem Made.sound (made : Made http) : http.Sound := by
  induction made with
  | fresh noHeaders noBody uri host =>
      refine ⟨uri, host, ?_, .inl noBody⟩
      rw [noHeaders]
      exact fun _ member => absurd member List.not_mem_nil
  | strings _ uri host ih => exact ⟨uri, host, ih.headers, ih.body⟩
  | header _ goodKey goodValue inserts ih =>
      exact ⟨ih.uri, ih.host, plain_insertHeader goodKey goodValue ih.headers inserts, ih.body⟩
  | body _ nonnegative small sets ih =>
      have isBody := isBody_setBody nonnegative small sets
      rcases setBody_eq nonnegative small sets with ⟨_, rfl⟩ | ⟨_, _, rfl⟩
      · exact ⟨ih.uri, ih.host, ih.headers, isBody⟩
      · exact ⟨ih.uri, ih.host, ih.headers, isBody⟩

@[simp] theorem bytesOf_none : bytesOf none = [] := rfl

private theorem bytesOf_map (bytes : Bytes) : bytesOf (some (bytes.map some)) = bytes := by
  calc bytesOf (some (bytes.map some)) = (bytes.map some).filterMap id := rfl
    _ = bytes := by rw [List.filterMap_map]; exact List.filterMap_some

private theorem insertSegment_body {s : Output} {written : Bytes} (holds : s.Holds written) {body : Option Buffer}
    (isBody : IsBody body size) (small : written.length + (bytesOf body).length < 536870912) :
    ∃ (s' : Output) (junk : Buffer), insertSegment (fun _ => true) body size s = some (.ok, s') ∧
      s'.stream = (written ++ bytesOf body).map some ++ junk ∧ s'.size = (written ++ bytesOf body).length := by
  rcases isBody with rfl | ⟨bytes, long, rfl, length_⟩
  · obtain ⟨⟨junk, content⟩, length, _⟩ := holds.room
    refine ⟨s, some 0 :: junk, rfl, ?_, ?_⟩
    · rw [content, Buffer.ofString_append]
      simp
    · simpa using length
  · rw [bytesOf_map] at small ⊢
    have plain : size = bytes.length := length_.trans (signed_of_lt (by omega) (by omega))
    have inc : unsigned (bytes.length : Int) = bytes.length := unsigned_eq rfl (by omega)
    obtain ⟨roomy, ensures, ⟨junk, content⟩, length, capacity, enough, _⟩ := ensureRoom_apply holds.room small
    rw [Buffer.ofString_append] at content
    have room : (bytes.map some).length ≤ (some 0 :: junk).length := by
      rw [content, List.length_append, List.length_map] at capacity
      rw [List.length_map]
      omega
    have here : (written.map some).length = roomy.size := by rw [List.length_map, length]
    have wrote := Buffer.write_apply (written.map some) here room
    have total : (roomy.size + bytes.length) % 4294967296 = (written ++ bytes).length := by
      rw [List.length_append, length, Nat.mod_eq_of_lt (by omega)]
    refine ⟨{ roomy with
      stream := written.map some ++ bytes.map some ++ (some 0 :: junk).drop (bytes.map some).length
      size := (written ++ bytes).length }, (some 0 :: junk).drop (bytes.map some).length, ?_, ?_, rfl⟩
    · have whole : (bytes.map some).take bytes.length = bytes.map some :=
        List.take_of_length_le (List.length_map some).le
      simp only [insertSegment, plain, inc, ensures, total, Int.toNat_natCast, whole, content, wrote,
        Option.bind_eq_bind, Option.bind_some, ne_eq, not_true_eq_false, if_false]
      rw [if_neg (by omega), if_neg (by rw [List.length_map]; omega)]
      rfl
    · rw [List.map_append]

private theorem startSegments_texts (uri : IsText http.uri) (method : Int) :
    (∀ pointer ∈ http.startSegments method, IsText pointer) ∧
      (http.startSegments method).flatMap stringOf = http.requestLine method := by
  have goodMethod : 0 ∉ getMethodString method := by
    unfold getMethodString
    repeat' split
    all_goals decide
  have goodSpace : 0 ∉ [(32 : Byte)] := by decide
  have goodAgent : 0 ∉ agent := by decide
  constructor
  · simp only [HttpObj.startSegments, List.forall_mem_cons, List.not_mem_nil, false_imp_iff, implies_true, and_true]
    exact ⟨isText_ofString goodMethod, isText_ofString goodSpace, uri, isText_ofString goodAgent⟩
  · simp only [HttpObj.startSegments, List.flatMap_cons, List.flatMap_nil, stringOf_ofString goodMethod,
      stringOf_ofString goodSpace, stringOf_ofString goodAgent, List.append_nil, HttpObj.requestLine,
      ascii_methodName]
    rfl

private theorem hostSegments_texts (host : IsText http.host) (isHostOw : Bool) :
    (∀ pointer ∈ http.hostSegments isHostOw, IsText pointer) ∧
      (http.hostSegments isHostOw).flatMap stringOf = http.hostLine isHostOw ++ ascii "\r\n" := by
  have goodLabel : 0 ∉ hostLabel := by decide
  have goodEnd : 0 ∉ crlf := by decide
  unfold HttpObj.hostSegments HttpObj.hostLine
  cases isHostOw with
  | true =>
      constructor
      · simpa using isText_ofString goodEnd
      · simp [stringOf_ofString goodEnd, ascii_crlf]
  | false =>
      constructor
      · simp [host, isText_ofString goodLabel, isText_ofString goodEnd]
      · have label : ascii "Host: " = hostLabel := by decide
        simp [stringOf_ofString goodLabel, stringOf_ofString goodEnd, ascii_crlf, label]

/-- The stream of a request is its bytes, and nothing is written outside of it. -/
theorem Made.genStream_eq (made : Made http) (method : Int) (small : (http.request method).length < 536870912) :
    ∃ junk, genStream (fun _ => true) http method =
      some (some ((http.request method).map some ++ junk, (http.request method).length), http.headers) := by
  obtain ⟨uri, host, headers, body⟩ := made.sound
  obtain ⟨startTexts, start⟩ := startSegments_texts uri method
  obtain ⟨hostTexts, hostLine⟩ := hostSegments_texts host (http.headers.any fun header => header.key = hostName)
  have store : (Buffer.alloc 128).store 0 0 = some (some 0 :: Buffer.alloc 127) := Buffer.store_alloc 127 0
  have begun : Output.Holds ⟨some 0 :: Buffer.alloc 127, 128, 0, 1⟩ [] :=
    ⟨List.not_mem_nil, ⟨Buffer.alloc 127, rfl⟩, rfl, rfl, by decide, by decide⟩
  have named : ascii "host" = hostName := by decide
  rw [HttpObj.request, named] at small ⊢
  simp only [List.length_append] at small
  obtain ⟨s₁, starts, holds₁⟩ := insertStrings_apply begun startTexts (by
    rw [start, List.length_nil]
    omega)
  rw [start, List.nil_append] at holds₁
  obtain ⟨s₂, lines, holds₂⟩ := insertHeaderLines_apply false holds₁ headers (by omega)
  obtain ⟨s₃, ends, holds₃⟩ := insertStrings_apply holds₂ hostTexts (by
    rw [hostLine, List.length_append, List.length_append]
    omega)
  rw [hostLine] at holds₃
  obtain ⟨s₄, junk, closes, stream, size⟩ := insertSegment_body holds₃ body (by
    simp only [List.length_append]
    omega)
  refine ⟨junk, ?_⟩
  rw [Bool.false_or] at lines
  simp only [genStream, store, starts, lines, ends, closes, stream, size, Bool.true_eq_false, Option.bind_eq_bind,
    Option.bind_some, ne_eq, not_true_eq_false, if_false]
  rfl

end Objects

/-- An object with the URI `/`, the host `h:`, the header `a: b` and the body `hi`. -/
def sample : HttpObj :=
  { HttpObj.new with
    uri := some (Buffer.ofString [47])
    host := some (Buffer.ofString [104, 58])
    headers := [⟨[97], [98]⟩]
    body := some ([104, 105, 13, 10].map some)
    bodySize := 4 }

private theorem sample_made : Made sample := by
  have fresh : Made { sample with headers := [], body := none, bodySize := 0 } :=
    .fresh rfl rfl (isText_ofString (by decide)) (isText_ofString (by decide))
  have header : insertHeader (fun _ => true) 0 [65] [98] [] = (.ok, sample.headers, 3) := by decide
  have body : setBody (fun _ => true) [104, 105] 2 { sample with body := none, bodySize := 0 } = some (.ok, sample) := by
    decide
  exact .body (.header fresh (by decide) (by decide) header) (by decide) (by decide) body

theorem genStream_sample : ∃ junk, genStream (fun _ => true) sample 1 =
    some (some ((sample.request 1).map some ++ junk, (sample.request 1).length), sample.headers) :=
  sample_made.genStream_eq 1 (by decide)

end GbfLibrary.Enet.Http
