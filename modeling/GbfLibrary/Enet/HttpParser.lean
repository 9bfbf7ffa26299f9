import GbfLibrary.Enet.HttpStatusLine
import Mathlib.Data.List.TakeWhile

/-!
# The header parser

`enet_http_parse_response_header` and `enet_http_parse_response` of `enet_tools.c`. What is read behind the
response or before it was stored, and what is stored behind a buffer, is a fault.
-/

set_option autoImplicit false

namespace GbfLibrary.Enet.Http

open Memory

/-- A `char[128]`. What nothing was stored in is not known. -/
abbrev Buffer := List (Option Byte)

def Buffer.new : Buffer := List.replicate 128 none

def Buffer.store (buffer : Buffer) (j : Nat) (c : Byte) : Option Buffer :=
  if j < buffer.length then some (buffer.set j (some c)) else none

/-- The string in a buffer. -/
def Buffer.string : Buffer → Option Bytes
  | some c :: buffer => if c = 0 then some [] else (Buffer.string buffer).map (c :: ·)
  | _ => none

/-- The variables of `enet_http_parse_response_header`, with the calls of `malloc` so far. -/
structure HeaderLoop where
  j : Nat
  isEscape : Bool
  isOperatingKey : Bool
  contentLength : Int
  key : Buffer
  content : Buffer
  headers : List Header
  calls : Nat
  deriving DecidableEq

def HeaderLoop.new (headers : List Header) (calls : Nat) : HeaderLoop :=
  ⟨0, false, true, 0, Buffer.new, Buffer.new, headers, calls⟩

/-- `Content-Length`. -/
def contentLengthKey : Bytes := [67, 111, 110, 116, 101, 110, 116, 45, 76, 101, 110, 103, 116, 104]

namespace HeaderLoop

/-- What the switch does with any byte but the ends of lines. A space that is not the first character falls to
the default case, and the first one to the case of the colon. -/
def char (s : HeaderLoop) (c : Byte) : Option HeaderLoop :=
  if c = 58 ∨ c = 32 ∧ s.j = 0 then
    if s.isOperatingKey = true then do
      let key ← s.key.store s.j 0
      return { s with isOperatingKey := false, key, j := 0 }
    else return s
  else if s.isOperatingKey = true then do
    let key ← s.key.store s.j c
    return { s with isEscape := false, key, j := s.j + 1 }
  else do
    let content ← s.content.store s.j c
    return { s with isEscape := false, content, j := s.j + 1 }

/-- The case of the line feed behind a line that is not empty. The strings are read once there is memory for
the node. -/
def endLine (malloc : Malloc) (s : HeaderLoop) : Option (Status × HeaderLoop) := do
  let content ← s.content.store s.j 0
  let s := { s with isEscape := true, isOperatingKey := true, content, j := 0 }
  if malloc s.calls = false then return (.noMemory, { s with calls := s.calls + 1 })
  else do
    let key ← s.key.string
    let value ← s.content.string
    let (rc, headers, calls) := insertHeader malloc s.calls key value s.headers
    let s := { s with headers, calls }
    if rc ≠ .ok then return (rc, s)
    else return (.ok, if key = contentLengthKey then { s with contentLength := atol value } else s)

end HeaderLoop

/-- The loop of `enet_http_parse_response_header`, with what is left of the response behind it. -/
def headerLoop (malloc : Malloc) : Bytes → HeaderLoop → Option (Status × Bytes × HeaderLoop)
  | [], _ => none
  | c :: data, s =>
      if c = 13 then headerLoop malloc data s
      else if c = 10 then
        if s.isEscape = true then some (.ok, data, s)
        else do
          let (rc, s) ← s.endLine malloc
          if rc ≠ .ok then return (rc, data, s) else headerLoop malloc data s
      else do
        let s ← s.char c
        headerLoop malloc data s

/-- `enet_http_parse_response_header`. -/
def parseResponseHeader (malloc : Malloc) (calls : Nat) (http : Response) (data : Bytes) :
    Option (Status × Response) := do
  let (rc, data, s) ← headerLoop malloc data (HeaderLoop.new http.headers calls)
  let http := { http with headers := s.headers }
  if rc ≠ .ok then return (rc, http)
  else if malloc s.calls = false then return (.noMemory, { http with body := none })
  else do
    let bytes ← read data 0 (unsigned s.contentLength)
    let body ← fit (unsigned (s.contentLength + 1)) 0 bytes
    -- the terminating byte
    if 0 ≤ s.contentLength ∧ s.contentLength < unsigned (s.contentLength + 1) then
      return (.ok, { http with body := some (body ++ [0]), bodySize := s.contentLength })
    else none

/-- `enet_http_parse_response` on the bytes that were received: its status, and `parsed_res`. -/
def parseResponse (malloc : Malloc) (received : Bytes) : Option (Status × Option Response) := do
  let src := received ++ [0]
  if malloc 0 = false then return (.noMemory, none)
  else do
    let (rc, http, i) ← parseStatusLine src received.length
    if rc ≠ .ok then return (rc, none)
    else do
      let (rc, http) ← parseResponseHeader malloc 1 http (src.drop i)
      if rc ≠ .ok then return (rc, none) else return (.ok, some http)

/-- A text up to a byte that terminates it. -/
def cut (text : Bytes) : Bytes := text.takeWhile (· ≠ 0)

theorem cut_eq_self {text : Bytes} (good : 0 ∉ text) : cut text = text :=
  List.takeWhile_eq_self_iff.mpr fun _ member => decide_eq_true fun zero => good (zero ▸ member)

/-- A buffer in which some bytes were stored from its start on. -/
def Buffer.filled (buffer : Buffer) (bytes : Bytes) : Buffer := bytes.map some ++ buffer.drop bytes.length

namespace Buffer

variable {buffer : Buffer} {bytes : Bytes}

@[simp] theorem filled_nil (buffer : Buffer) : buffer.filled [] = buffer := rfl

theorem length_filled (fits : bytes.length ≤ buffer.length) : (buffer.filled bytes).length = buffer.length := by
  rw [filled, List.length_append, List.length_map, List.length_drop, Nat.add_sub_cancel' fits]

private theorem store_filled (fits : bytes.length ≤ buffer.length) (c : Byte) :
    (buffer.filled bytes).store bytes.length c =
      if bytes.length < buffer.length then some (buffer.filled (bytes ++ [c])) else none := by
  rw [store, length_filled fits]
  split
  · next room =>
    rw [filled, filled, List.set_append_right _ _ (Nat.le_of_eq (List.length_map some)), List.length_map, Nat.sub_self,
      List.drop_eq_getElem_cons room, List.set_cons_zero, List.length_append, List.length_singleton, List.map_append,
      List.append_assoc]
    rfl
  · rfl

theorem filled_filled (buffer : Buffer) (bytes other : Bytes) :
    (buffer.filled bytes).filled other = buffer.filled (other ++ bytes.drop other.length) := by
  have reach : bytes.length + (other.length - bytes.length) = other.length + (bytes.length - other.length) := by omega
  rw [filled, filled, filled, List.drop_append, List.drop_drop, List.length_map, List.map_append, List.map_drop,
    List.append_assoc, List.length_append, List.length_drop, reach]

/-- A string ends at the first byte that terminates it. -/
theorem string_append (ends : 0 ∈ bytes) (rest : Buffer) : Buffer.string (bytes.map some ++ rest) = some (cut bytes) := by
  induction bytes with
  | nil => exact absurd ends List.not_mem_nil
  | cons c bytes ih =>
      rw [List.map_cons, List.cons_append, string, cut]
      by_cases zero : c = 0
      · rw [if_pos zero, List.takeWhile_cons_of_neg (by simpa using zero)]
      · have later : 0 ∈ bytes := (List.mem_cons.mp ends).resolve_left (Ne.symm zero)
        rw [if_neg zero, ih later, Option.map_some, List.takeWhile_cons, if_pos (decide_eq_true zero)]
        rfl

theorem cut_snoc (bytes : Bytes) : cut (bytes ++ [0]) = cut bytes := by
  induction bytes with
  | nil => rfl
  | cons c bytes ih =>
      rw [List.cons_append, cut, cut, List.takeWhile_cons, List.takeWhile_cons]
      split
      · exact congrArg _ ih
      · rfl

theorem string_filled (bytes : Bytes) (buffer : Buffer) : (buffer.filled (bytes ++ [0])).string = some (cut bytes) := by
  rw [filled, string_append (List.mem_append_right _ (List.mem_singleton_self 0)), cut_snoc]

end Buffer

/-- The bytes that the switch looks at. -/
def bare (line : Bytes) : Bytes := line.filter (· ≠ 13)

/-- What is stored of a value behind a character of it. -/
def withoutColons (text : Bytes) : Bytes := text.filter (· ≠ 58)

/-- What is stored of a value. -/
def trimmed (text : Bytes) : Bytes := (withoutColons text).dropWhile (· = 32)

/-- The name and the rest of a line, parted at its first colon, or at a space that it starts with. -/
def separate : Bytes → Option (Bytes × Bytes)
  | 32 :: rest => some ([], rest)
  | text => if 58 ∈ text then some (text.takeWhile (· ≠ 58), (text.dropWhile (· ≠ 58)).tail) else none

namespace HeaderLoop

variable {malloc : Malloc} {s : HeaderLoop} {buffer : Buffer} {front text line data : Bytes} {c : Byte}

/-- A character is stored in the name or in the value. -/
theorem char_copy (copied : ¬ (c = 58 ∨ c = 32 ∧ s.j = 0)) : s.char c =
    if s.isOperatingKey = true then (s.key.store s.j c).map fun key =>
      { s with isEscape := false, key, j := s.j + 1 }
    else (s.content.store s.j c).map fun content => { s with isEscape := false, content, j := s.j + 1 } := by
  rw [char, if_neg copied]
  split
  · exact Option.map_eq_bind.symm
  · exact Option.map_eq_bind.symm

theorem char_skip (skipped : c = 58 ∨ c = 32 ∧ s.j = 0) (value : s.isOperatingKey = false) : s.char c = some s := by
  rw [char, if_pos skipped, if_neg (by simp [value])]
  rfl

private theorem headerLoop_line (noLf : 10 ∉ line) (data : Bytes) (s : HeaderLoop) :
    headerLoop malloc (line ++ data) s = ((bare line).foldlM char s).bind (headerLoop malloc data) := by
  induction line generalizing s with
  | nil => rfl
  | cons c line ih =>
      rw [List.mem_cons, not_or] at noLf
      by_cases carriage : c = 13
      · have skipped : bare (c :: line) = bare line := List.filter_cons_of_neg (by simp [carriage])
        rw [List.cons_append, headerLoop, if_pos carriage, ih noLf.2, skipped]
      · have kept : bare (c :: line) = c :: bare line := List.filter_cons_of_pos (decide_eq_true carriage)
        rw [List.cons_append, headerLoop, if_neg carriage, if_neg (Ne.symm noLf.1), kept, List.foldlM_cons,
          Option.bind_eq_bind, Option.bind_eq_bind, Option.bind_assoc]
        exact congrArg _ (funext fun s => ih noLf.2 s)

/-- In the value, with these bytes of it stored. -/
def inValue (s : HeaderLoop) (buffer : Buffer) (front : Bytes) : HeaderLoop :=
  { s with j := front.length, isOperatingKey := false, content := buffer.filled front }

/-- In the name, with these bytes of it stored. -/
def inKey (s : HeaderLoop) (buffer : Buffer) (front : Bytes) : HeaderLoop :=
  { s with j := front.length, isOperatingKey := true, key := buffer.filled front }

/-- Something was copied, unless there was nothing to copy. -/
def copying (s : HeaderLoop) (bytes : Bytes) : HeaderLoop := { s with isEscape := s.isEscape && bytes.isEmpty }

@[simp] theorem copying_nil (s : HeaderLoop) : s.copying [] = s := by
  simp [copying]

private theorem copying_cons (s : HeaderLoop) (c : Byte) (bytes other : Bytes) :
    (s.copying (c :: other)).copying bytes = s.copying (c :: bytes) := by
  simp [copying]

private theorem char_inValue (size : buffer.length = 128) (full : front.length ≤ 128) (notColon : c ≠ 58)
    (within : c = 32 → front ≠ []) : (s.inValue buffer front).char c =
      if front.length < 128 then some ((s.copying [c]).inValue buffer (front ++ [c])) else none := by
  have copied : ¬ (c = 58 ∨ c = 32 ∧ (s.inValue buffer front).j = 0) :=
    fun either => either.elim notColon fun space => within space.1 (List.length_eq_zero_iff.mp space.2)
  rw [char_copy copied, if_neg (by simp [inValue])]
  simp only [inValue, Buffer.store_filled (full.trans_eq size.symm), size]
  split
  · simp [copying]
  · rfl

private theorem char_inKey (size : buffer.length = 128) (full : front.length ≤ 128) (notColon : c ≠ 58)
    (within : c = 32 → front ≠ []) : (s.inKey buffer front).char c =
      if front.length < 128 then some ((s.copying [c]).inKey buffer (front ++ [c])) else none := by
  have copied : ¬ (c = 58 ∨ c = 32 ∧ (s.inKey buffer front).j = 0) :=
    fun either => either.elim notColon fun space => within space.1 (List.length_eq_zero_iff.mp space.2)
  rw [char_copy copied, if_pos (by simp [inKey])]
  simp only [inKey, Buffer.store_filled (full.trans_eq size.symm), size]
  split
  · simp [copying]
  · rfl

/-- In a value of which some is stored, everything but colons is stored. -/
theorem foldlM_inValue (nonempty : front ≠ []) (size : buffer.length = 128) (full : front.length ≤ 128) :
    text.foldlM char (s.inValue buffer front) =
      if (front ++ withoutColons text).length ≤ 128 then
        some ((s.copying (withoutColons text)).inValue buffer (front ++ withoutColons text))
      else none := by
  induction text generalizing front s with
  | nil => simp [withoutColons, full]
  | cons c text ih =>
      rw [List.foldlM_cons]
      by_cases colon : c = 58
      · have same : withoutColons (c :: text) = withoutColons text := List.filter_cons_of_neg (by simp [colon])
        rw [char_skip (.inl colon) rfl, same]
        exact ih nonempty full
      · have kept : withoutColons (c :: text) = c :: withoutColons text :=
          List.filter_cons_of_pos (decide_eq_true colon)
        rw [char_inValue size full colon fun _ => nonempty, kept,
          List.append_cons front c (withoutColons text)]
        split
        · next room =>
          rw [Option.bind_eq_bind, Option.bind_some, ih (by simp) (by simp; omega), copying_cons]
        · next filled =>
          rw [if_neg (by simp; omega)]
          rfl

/-- A value is stored from its first character on that is neither a colon nor a space. -/
theorem foldlM_value (size : buffer.length = 128) : text.foldlM char (s.inValue buffer []) =
    if (trimmed text).length ≤ 128 then some ((s.copying (trimmed text)).inValue buffer (trimmed text)) else none := by
  induction text with
  | nil => simp [trimmed, withoutColons]
  | cons c text ih =>
      rw [List.foldlM_cons]
      by_cases skipped : c = 58 ∨ c = 32
      · have same : trimmed (c :: text) = trimmed text := by
          rcases skipped with rfl | rfl
          · rfl
          · rfl
        rw [char_skip (skipped.imp_right fun space => ⟨space, rfl⟩) rfl, same]
        exact ih
      · rw [not_or] at skipped
        have kept : trimmed (c :: text) = c :: withoutColons text := by
          have first : withoutColons (c :: text) = c :: withoutColons text :=
            List.filter_cons_of_pos (decide_eq_true skipped.1)
          rw [trimmed, first, List.dropWhile_cons_of_neg (by simpa using skipped.2)]
        rw [char_inValue size (by simp) skipped.1 fun space => absurd space skipped.2, kept, if_pos (by simp),
          Option.bind_eq_bind, Option.bind_some, foldlM_inValue (by simp) size (by simp), copying_cons]
        rfl

theorem foldlM_key (noColon : 58 ∉ text) (within : text.head? = some 32 → front ≠ []) (size : buffer.length = 128)
    (full : front.length ≤ 128) : text.foldlM char (s.inKey buffer front) =
      if (front ++ text).length ≤ 128 then some ((s.copying text).inKey buffer (front ++ text)) else none := by
  induction text generalizing front s with
  | nil => simp [full]
  | cons c text ih =>
      rw [List.mem_cons, not_or] at noColon
      rw [List.foldlM_cons, char_inKey size full (Ne.symm noColon.1) fun space => within (congrArg some space),
        List.append_cons front c text]
      split
      · next room =>
        rw [Option.bind_eq_bind, Option.bind_some, ih noColon.2 (by simp) (by simp; omega), copying_cons]
      · next filled =>
        rw [if_neg (by simp; omega)]
        rfl

private theorem copying_append (s : HeaderLoop) (bytes other : Bytes) :
    (s.copying bytes).copying other = s.copying (bytes ++ other) := by
  cases bytes with
  | nil => rw [copying_nil, List.nil_append]
  | cons c bytes => simp [copying]

theorem char_separator (size : buffer.length = 128) (full : front.length ≤ 128) (ends : c = 58 ∨ c = 32 ∧ front = []) :
    (s.inKey buffer front).char c =
      if front.length < 128 then some (inValue { s with key := buffer.filled (front ++ [0]) } s.content []) else none := by
  have skipped : c = 58 ∨ c = 32 ∧ (s.inKey buffer front).j = 0 :=
    ends.imp_right fun space => ⟨space.1, List.length_eq_zero_iff.mpr space.2⟩
  rw [char, if_pos skipped, if_pos (by simp [inKey])]
  simp only [inKey, Buffer.store_filled (full.trans_eq size.symm), size]
  split
  · rfl
  · rfl

/-- At the end of a line with this name and this value. -/
def named (s : HeaderLoop) (name value : Bytes) : HeaderLoop :=
  (copying { s with key := s.key.filled (name ++ [0]) } (name ++ value)).inValue s.content value

/-- A line with its name and its value, or all of it, stored from the start of the buffers on. -/
def readLine (s : HeaderLoop) (text : Bytes) : Option HeaderLoop :=
  match separate text with
  | some (name, rest) =>
      if name.length < 128 ∧ (trimmed rest).length ≤ 128 then some (s.named name (trimmed rest)) else none
  | none => if text.length ≤ 128 then some ((s.copying text).inKey s.key text) else none

end HeaderLoop

theorem separate_field {name rest : Bytes} {c : Byte} (noColon : 58 ∉ name) (noSpace : name.head? ≠ some 32)
    (ends : c = 58 ∨ c = 32 ∧ name = []) : separate (name ++ c :: rest) = some (name, rest) := by
  rcases ends with rfl | ⟨rfl, rfl⟩
  · have first : ∀ d tail, name ++ 58 :: rest = d :: tail → d ≠ 32 := by
      intro d tail split
      cases name with
      | nil =>
          cases split
          decide
      | cons e name =>
          cases split
          exact fun space => noSpace (congrArg some space)
    have passes : ∀ d ∈ name, decide (d ≠ 58) = true :=
      fun d member => decide_eq_true fun colon => noColon (colon ▸ member)
    unfold separate
    split
    · next tail split => exact absurd rfl (first 32 tail split)
    · rw [if_pos (by simp), List.takeWhile_append_of_pos passes, List.dropWhile_append_of_pos passes]
      simp
  · rfl

theorem separate_cases (text : Bytes) :
    (∃ name c rest, text = name ++ c :: rest ∧ 58 ∉ name ∧ name.head? ≠ some 32 ∧ (c = 58 ∨ c = 32 ∧ name = [])) ∨
      separate text = none ∧ 58 ∉ text ∧ text.head? ≠ some 32 := by
  by_cases space : text.head? = some 32
  · obtain ⟨rest, rfl⟩ := List.head?_eq_some_iff.mp space
    exact .inl ⟨[], 32, rest, rfl, List.not_mem_nil, by simp, .inr ⟨rfl, rfl⟩⟩
  · by_cases colon : 58 ∈ text
    · obtain ⟨name, rest, rfl, outside⟩ := List.eq_append_cons_of_mem colon
      refine .inl ⟨name, 58, rest, rfl, outside, ?_, .inl rfl⟩
      intro first
      obtain ⟨tail, rfl⟩ := List.head?_eq_some_iff.mp first
      exact space rfl
    · refine .inr ⟨?_, colon, space⟩
      unfold separate
      split
      · exact absurd rfl space
      · exact if_neg colon

namespace HeaderLoop

variable {malloc : Malloc} {s : HeaderLoop} {text line : Bytes}

/-- At the start of a line, with buffers of their size. -/
structure Starts (s : HeaderLoop) : Prop where
  j : s.j = 0
  isOperatingKey : s.isOperatingKey = true
  key : s.key.length = 128
  content : s.content.length = 128

private theorem foldlM_line (starts : s.Starts) (text : Bytes) : text.foldlM char s = s.readLine text := by
  obtain ⟨j, operating, keySize, contentSize⟩ := starts
  have start : s = s.inKey s.key [] := by
    rw [inKey, Buffer.filled_nil, List.length_nil, ← j, ← operating]
  rw [readLine]
  rcases separate_cases text with ⟨name, c, rest, rfl, noColon, noSpace, ends⟩ | ⟨whole, noColon, noSpace⟩
  · have names : name.foldlM char (s.inKey s.key []) = _ :=
      foldlM_key noColon (fun space => absurd space noSpace) keySize (by simp)
    rw [← start, List.nil_append] at names
    rw [separate_field noColon noSpace ends, List.foldlM_append, names]
    dsimp only
    by_cases room : name.length < 128
    · have full : name.length ≤ 128 := Nat.le_of_lt room
      rw [if_pos full, Option.bind_eq_bind, Option.bind_some, List.foldlM_cons, char_separator keySize full ends,
        if_pos room, Option.bind_eq_bind, Option.bind_some]
      simp only [room, true_and, foldlM_value (show (s.copying name).content.length = 128 from contentSize)]
      split
      · rw [named, ← copying_append]
        rfl
      · rfl
    · rw [if_neg fun both : name.length < 128 ∧ (trimmed rest).length ≤ 128 => room both.1]
      split
      · next full =>
        rw [Option.bind_eq_bind, Option.bind_some, List.foldlM_cons, char_separator keySize full ends, if_neg room]
        rfl
      · rfl
  · have names : text.foldlM char (s.inKey s.key []) = _ :=
      foldlM_key noColon (fun space => absurd space noSpace) keySize (by simp)
    rw [← start, List.nil_append] at names
    rw [whole, names]

theorem headerLoop_newline (starts : s.Starts) (noLf : 10 ∉ line) (data : Bytes) :
    headerLoop malloc (line ++ 10 :: data) s = (s.readLine (bare line)).bind fun s =>
      if s.isEscape = true then some (.ok, data, s)
      else (s.endLine malloc).bind fun (rc, s) => if rc ≠ .ok then some (rc, data, s) else headerLoop malloc data s := by
  rw [headerLoop_line noLf, foldlM_line starts]
  rfl

/-- Where no line feed comes any more, the loop leaves the response. -/
theorem headerLoop_no_newline (noLf : 10 ∉ line) : headerLoop malloc line s = none := by
  rw [← List.append_nil line, headerLoop_line noLf]
  exact Option.bind_eq_none_iff.mpr fun _ _ => rfl

/-- Behind a line with this name and this value. -/
def inserted (s : HeaderLoop) (key value : Bytes) : HeaderLoop :=
  { s with
    j := 0
    isEscape := true
    isOperatingKey := true
    contentLength := if key = contentLengthKey then atol value else s.contentLength
    content := s.content.set s.j (some 0)
    headers := insertNode ⟨key.map lower, value⟩ s.headers
    calls := s.calls + 3 }

/-- At the end of a line, with both strings in place. -/
structure Ends (s : HeaderLoop) (key value : Bytes) : Prop where
  room : s.j < s.content.length
  key : s.key.string = some key
  value : Buffer.string (s.content.set s.j (some 0)) = some value

theorem Ends.endLine {key value : Bytes} (ends : s.Ends key value) (provided : Provided malloc s.calls) :
    s.endLine malloc = some (.ok, s.inserted key value) := by
  obtain ⟨room, key, value⟩ := ends
  simp only [HeaderLoop.endLine, Buffer.store, if_pos room, Option.bind_eq_bind, Option.bind_some, provided.1,
    Bool.true_eq_false, if_false, key, value, insertHeader_provided provided, ne_eq, not_true_eq_false, inserted]
  split
  · rfl
  · rfl

theorem Ends.endLine_fails {key value : Bytes} (ends : s.Ends key value) (missing : ¬ Provided malloc s.calls) :
    ∃ after, s.endLine malloc = some (.noMemory, after) := by
  obtain ⟨room, key, value⟩ := ends
  rw [HeaderLoop.endLine, Buffer.store, if_pos room, Option.bind_eq_bind, Option.bind_some]
  dsimp only
  split
  · exact ⟨_, rfl⟩
  · have fails := insertHeader_fails missing
    simp only [key, value, Option.bind_eq_bind, Option.bind_some, fails, ne_eq, reduceCtorEq, not_false_eq_true, if_true]
    exact ⟨_, rfl⟩

theorem named_ends (starts : s.Starts) (name : Bytes) {value : Bytes} (shortValue : value.length < 128) :
    (s.named name value).Ends (cut name) (cut value) := by
  have room : value.length < s.content.length := starts.content ▸ shortValue
  have size : (s.content.filled value).length = s.content.length := Buffer.length_filled (Nat.le_of_lt room)
  have stored := Buffer.store_filled (Nat.le_of_lt room) 0
  rw [if_pos room, Buffer.store, if_pos (size.symm ▸ room)] at stored
  constructor
  · exact size.symm ▸ room
  · exact Buffer.string_filled name s.key
  · exact (congrArg Buffer.string (Option.some.inj stored)).trans (Buffer.string_filled value s.content)

theorem Starts.inserted {name value : Bytes} (starts : s.Starts) (shortName : name.length < 128)
    (shortValue : value.length < 128) (key content : Bytes) :
    ((s.named name value).inserted key content).Starts where
  j := rfl
  isOperatingKey := rfl
  key := by
    rw [← starts.key] at shortName ⊢
    apply Buffer.length_filled
    rw [List.length_append, List.length_singleton]
    exact Nat.succ_le_of_lt shortName
  content := by
    rw [← starts.content] at shortValue ⊢
    exact List.length_set.trans (Buffer.length_filled (Nat.le_of_lt shortValue))

theorem headerLoop_field {name rest : Bytes} (starts : s.Starts) (noLf : 10 ∉ line)
    (separated : separate (bare line) = some (name, rest)) (nonempty : name ≠ []) (shortName : name.length < 128)
    (shortValue : (trimmed rest).length < 128) (goodName : 0 ∉ name) (goodValue : 0 ∉ trimmed rest) (data : Bytes) :
    (Provided malloc s.calls → headerLoop malloc (line ++ 10 :: data) s =
        headerLoop malloc data ((s.named name (trimmed rest)).inserted name (trimmed rest))) ∧
      (¬ Provided malloc s.calls → ∃ after, headerLoop malloc (line ++ 10 :: data) s = some (.noMemory, data, after)) := by
  have copied : ¬ (s.named name (trimmed rest)).isEscape = true := by
    obtain ⟨c, tail, rfl⟩ := List.exists_cons_of_ne_nil nonempty
    simp [named, copying, inValue]
  have ends := named_ends starts name shortValue
  rw [cut_eq_self goodName, cut_eq_self goodValue] at ends
  rw [headerLoop_newline starts noLf, readLine, separated]
  dsimp only
  rw [if_pos ⟨shortName, Nat.le_of_lt shortValue⟩, Option.bind_some, if_neg copied]
  constructor
  · intro provided
    rw [ends.endLine provided, Option.bind_some]
    exact if_neg (not_not.mpr rfl)
  · intro missing
    obtain ⟨after, fails⟩ := ends.endLine_fails missing
    rw [fails, Option.bind_some]
    exact ⟨after, if_pos (by simp)⟩

theorem headerLoop_end (escape : s.isEscape = true) (data : Bytes) :
    headerLoop malloc (13 :: 10 :: data) s = some (.ok, data, s) := by
  rw [headerLoop, if_pos rfl, headerLoop, if_neg (by decide), if_pos rfl, if_pos escape]

end HeaderLoop

section Parses

variable {malloc : Malloc} {calls : Nat} {http : Response} {s : HeaderLoop} {data rest : Bytes}

theorem parseResponseHeader_ok
    (reads : headerLoop malloc data (HeaderLoop.new http.headers calls) = some (.ok, rest, s))
    (provided : malloc s.calls = true) (low : 0 ≤ s.contentLength) (high : s.contentLength < 2147483648) :
    parseResponseHeader malloc calls http data =
      if s.contentLength.toNat ≤ rest.length then
        some (.ok, ⟨http.version, http.statusStr, http.status, http.resDes, s.headers,
          some (rest.take s.contentLength.toNat ++ [0]), s.contentLength⟩)
      else none := by
  have size : unsigned s.contentLength = s.contentLength.toNat := unsigned_of_lt low (by omega)
  have capacity : unsigned (s.contentLength + 1) = s.contentLength.toNat + 1 := by
    rw [unsigned_of_lt (by omega) (by omega)]
    omega
  rw [parseResponseHeader, reads, Option.bind_eq_bind, Option.bind_some]
  simp only [provided, size, capacity, ne_eq, not_true_eq_false, Bool.true_eq_false, if_false]
  by_cases inside : s.contentLength.toNat ≤ rest.length
  · have taken : read rest 0 s.contentLength.toNat = some (rest.take s.contentLength.toNat) :=
      @read_nat rest 0 _ (by omega)
    have fits : fit (s.contentLength.toNat + 1) 0 (rest.take s.contentLength.toNat) =
        some (rest.take s.contentLength.toNat) := fit_of_le (by rw [List.length_take]; omega)
    simp only [taken, fits, Option.bind_eq_bind, Option.bind_some, if_pos inside]
    rw [if_pos ⟨low, by omega⟩]
    rfl
  · have outside : read rest 0 s.contentLength.toNat = none := if_neg (by omega)
    rw [outside, if_neg inside]
    rfl

theorem parseResponseHeader_fails
    (reads : headerLoop malloc data (HeaderLoop.new http.headers calls) = some (.noMemory, rest, s)) :
    ∃ after, parseResponseHeader malloc calls http data = some (.noMemory, after) := by
  rw [parseResponseHeader, reads, Option.bind_eq_bind, Option.bind_some]
  exact ⟨_, if_pos (by simp)⟩

theorem parseResponseHeader_fails_last
    (reads : headerLoop malloc data (HeaderLoop.new http.headers calls) = some (.ok, rest, s))
    (missing : malloc s.calls = false) :
    ∃ after, parseResponseHeader malloc calls http data = some (.noMemory, after) := by
  rw [parseResponseHeader, reads, Option.bind_eq_bind, Option.bind_some]
  simp only [missing, ne_eq, not_true_eq_false, if_true, if_false]
  exact ⟨_, rfl⟩

theorem starts_new (headers : List Header) (calls : Nat) : (HeaderLoop.new headers calls).Starts :=
  ⟨rfl, rfl, List.length_replicate, List.length_replicate⟩

end Parses

end GbfLibrary.Enet.Http
