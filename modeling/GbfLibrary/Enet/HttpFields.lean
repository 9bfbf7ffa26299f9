import GbfLibrary.Enet.HttpParser

/-!
# Header fields

What `enet_http_parse_response_header` makes of the lines of some header fields.
-/

set_option autoImplicit false

namespace GbfLibrary.Enet.Http

open Memory Maps

/-- A header field that fits the buffers, of any characters that do not end its parts. -/
structure Field where
  name : Bytes
  value : Bytes
  named : name ≠ []
  shortName : name.length ≤ 127
  shortValue : value.length ≤ 127
  plainName : ∀ c ∈ name, c ≠ 0 ∧ c ≠ 10 ∧ c ≠ 13 ∧ c ≠ 32 ∧ c ≠ 58
  plainValue : ∀ c ∈ value, c ≠ 0 ∧ c ≠ 10 ∧ c ≠ 13
  start : value.head? ≠ some 32

namespace Field

variable {field : Field}

/-- The line of a field, with some spaces behind the colon. -/
def line (field : Field) (spaces : Nat) : Bytes :=
  field.name ++ 58 :: (List.replicate spaces 32 ++ (field.value ++ [13]))

/-- What the list keeps of a field. -/
def kept (field : Field) : Bytes × Bytes := (field.name.map lower, trimmed field.value)

private theorem bare_line (field : Field) (spaces : Nat) :
    bare (field.line spaces) = field.name ++ 58 :: (List.replicate spaces 32 ++ field.value) := by
  have name : field.name.filter (· ≠ 13) = field.name :=
    List.filter_eq_self.mpr fun c member => decide_eq_true (field.plainName c member).2.2.1
  have value : field.value.filter (· ≠ 13) = field.value :=
    List.filter_eq_self.mpr fun c member => decide_eq_true (field.plainValue c member).2.2
  have gap : (List.replicate spaces (32 : Byte)).filter (· ≠ 13) = List.replicate spaces 32 :=
    List.filter_eq_self.mpr fun c member => decide_eq_true (List.eq_of_mem_replicate member ▸ by decide)
  rw [bare, line, List.filter_append, name, List.filter_cons_of_pos (by decide), List.filter_append, gap,
    List.filter_append, value]
  simp

private theorem noLf_line (field : Field) (spaces : Nat) : 10 ∉ field.line spaces := by
  intro member
  rcases List.mem_append.mp member with inName | inRest
  · exact (field.plainName 10 inName).2.1 rfl
  · rcases List.mem_cons.mp inRest with here | inRest
    · exact absurd here (by decide)
    · rcases List.mem_append.mp inRest with inGap | inRest
      · exact absurd (List.eq_of_mem_replicate inGap) (by decide)
      · rcases List.mem_append.mp inRest with inValue | here
        · exact (field.plainValue 10 inValue).2.1 rfl
        · exact absurd (List.mem_singleton.mp here) (by decide)

theorem trimmed_spaces (spaces : Nat) (text : Bytes) : trimmed (List.replicate spaces 32 ++ text) = trimmed text := by
  induction spaces with
  | zero => rfl
  | succ spaces ih =>
      rw [List.replicate_succ, List.cons_append, ← ih]
      rfl

private theorem separate_line (field : Field) (spaces : Nat) :
    separate (bare (field.line spaces)) = some (field.name, List.replicate spaces 32 ++ field.value) := by
  rw [bare_line]
  apply separate_field
  · exact fun member => (field.plainName 58 member).2.2.2.2 rfl
  · intro first
    exact (field.plainName 32 (List.mem_of_mem_head? first)).2.2.2.1 rfl
  · exact .inl rfl

private theorem length_trimmed_le (text : Bytes) : (trimmed text).length ≤ text.length :=
  Nat.le_trans (List.dropWhile_suffix _).length_le (List.length_filter_le _ _)

private theorem mem_of_mem_trimmed {text : Bytes} {c : Byte} (member : c ∈ trimmed text) : c ∈ text :=
  List.mem_of_mem_filter ((List.dropWhile_suffix _).mem member)

/-- A value is kept exactly if there is no colon in it. -/
theorem trimmed_eq_iff (field : Field) : trimmed field.value = field.value ↔ 58 ∉ field.value := by
  constructor
  · intro same colon
    have shorter : (withoutColons field.value).length < field.value.length :=
      List.length_filter_lt_length_iff_exists.mpr ⟨58, colon, by decide⟩
    have longer : field.value.length ≤ (withoutColons field.value).length := by
      conv_lhs => rw [← same]
      exact (List.dropWhile_suffix _).length_le
    exact absurd shorter (Nat.not_lt.mpr longer)
  · intro noColon
    have all : withoutColons field.value = field.value :=
      List.filter_eq_self.mpr fun c member => decide_eq_true fun colon => noColon (colon ▸ member)
    rw [trimmed, all]
    cases text : field.value with
    | nil => rfl
    | cons c rest =>
        have first : c ≠ 32 := fun space => field.start (by rw [text, space]; rfl)
        exact List.dropWhile_cons_of_neg (by simpa using first)

end Field

/-- The lines of some fields. -/
def fieldLines (fields : List (Field × Nat)) : Bytes := fields.flatMap fun field => field.1.line field.2 ++ [10]

section Lines

variable {malloc : Malloc} {s : HeaderLoop} {fields : List (Field × Nat)} {data : Bytes}

/-- The loop behind some fields. -/
def afterFields (s : HeaderLoop) (fields : List (Field × Nat)) : HeaderLoop :=
  fields.foldl (fun s field => (s.named field.1.name (trimmed field.1.value)).inserted field.1.name (trimmed field.1.value)) s

theorem headerLoop_line_field (malloc : Malloc) (starts : s.Starts) (field : Field) (spaces : Nat) (data : Bytes) :
    let after := (s.named field.name (trimmed field.value)).inserted field.name (trimmed field.value)
    after.Starts ∧
    (Provided malloc s.calls → headerLoop malloc (field.line spaces ++ 10 :: data) s = headerLoop malloc data after) ∧
      (¬ Provided malloc s.calls →
        ∃ after, headerLoop malloc (field.line spaces ++ 10 :: data) s = some (.noMemory, data, after)) := by
  have separated := field.separate_line spaces
  have same := Field.trimmed_spaces spaces field.value
  have shortName : field.name.length < 128 := Nat.lt_succ_of_le field.shortName
  have shortValue : (trimmed field.value).length < 128 :=
    Nat.lt_succ_of_le (Nat.le_trans (Field.length_trimmed_le field.value) field.shortValue)
  have goodName : 0 ∉ field.name := fun member => (field.plainName 0 member).1 rfl
  have goodValue : 0 ∉ trimmed field.value :=
    fun member => (field.plainValue 0 (Field.mem_of_mem_trimmed member)).1 rfl
  refine ⟨starts.inserted shortName shortValue _ _, ?_⟩
  have reads : (Provided malloc s.calls → _) ∧ (¬ Provided malloc s.calls → _) :=
    HeaderLoop.headerLoop_field starts (field.noLf_line spaces) separated field.named shortName (by rwa [same]) goodName
      (by rwa [same]) data
  rwa [same] at reads

theorem headerLoop_fields (starts : s.Starts) (provided : ∀ call < 3 * fields.length, malloc (s.calls + call) = true)
    (data : Bytes) : (afterFields s fields).Starts ∧
      headerLoop malloc (fieldLines fields ++ data) s = headerLoop malloc data (afterFields s fields) := by
  induction fields generalizing s with
  | nil => exact ⟨starts, rfl⟩
  | cons field fields ih =>
      rw [List.length_cons] at provided
      obtain ⟨again, reads, _⟩ := headerLoop_line_field malloc starts field.1 field.2 (fieldLines fields ++ data)
      have here : Provided malloc s.calls := ⟨provided 0 (by omega), provided 1 (by omega), provided 2 (by omega)⟩
      have others : ∀ call < 3 * fields.length, malloc (s.calls + 3 + call) = true := by
        intro call inside
        rw [Nat.add_assoc]
        exact provided (3 + call) (by omega)
      have rest := ih again others
      refine ⟨rest.1, ?_⟩
      rw [fieldLines, List.flatMap_cons, List.append_assoc, List.append_assoc]
      exact (reads here).trans rest.2

/-- Where an allocation fails, so does the parser. -/
theorem headerLoop_fields_fails (starts : s.Starts)
    (missing : ¬ ∀ call < 3 * fields.length, malloc (s.calls + call) = true) (data : Bytes) :
    ∃ rest after, headerLoop malloc (fieldLines fields ++ data) s = some (.noMemory, rest, after) := by
  induction fields generalizing s with
  | nil => exact absurd (fun call inside => absurd inside (Nat.not_lt_zero call)) missing
  | cons field fields ih =>
      obtain ⟨again, reads, fails⟩ := headerLoop_line_field malloc starts field.1 field.2 (fieldLines fields ++ data)
      rw [fieldLines, List.flatMap_cons, List.append_assoc, List.append_assoc]
      by_cases here : Provided malloc s.calls
      · have later : ¬ ∀ call < 3 * fields.length, malloc (s.calls + 3 + call) = true := by
          intro others
          apply missing
          intro call inside
          rw [List.length_cons] at inside
          match call with
          | 0 => exact here.1
          | 1 => exact here.2.1
          | 2 => exact here.2.2
          | call + 3 =>
              have other := others call (by omega)
              rwa [Nat.add_assoc, Nat.add_comm 3] at other
        obtain ⟨rest, after, ends⟩ := ih again later
        exact ⟨rest, after, (reads here).trans ends⟩
      · obtain ⟨after, ends⟩ := fails here
        exact ⟨_, after, ends⟩

private theorem afterFields_snoc (s : HeaderLoop) (fields : List (Field × Nat)) (field : Field × Nat) :
    afterFields s (fields ++ [field]) = ((afterFields s fields).named field.1.name (trimmed field.1.value)).inserted
      field.1.name (trimmed field.1.value) := by
  rw [afterFields, List.foldl_append]
  rfl

private theorem calls_afterFields (s : HeaderLoop) (fields : List (Field × Nat)) :
    (afterFields s fields).calls = s.calls + 3 * fields.length := by
  induction fields using List.reverseRecOn with
  | nil => rfl
  | append_singleton fields field ih =>
      rw [afterFields_snoc, List.length_append, List.length_singleton, Nat.mul_add, ← Nat.add_assoc, ← ih]
      rfl

private theorem entries_afterFields (empty : s.headers = []) (fields : List (Field × Nat)) :
    (afterFields s fields).headers.map Header.entry = upserts (fields.map fun field => field.1.kept) := by
  induction fields using List.reverseRecOn with
  | nil => rw [afterFields, List.foldl_nil, empty]; rfl
  | append_singleton fields field ih =>
      rw [afterFields_snoc, List.map_append, List.map_singleton, upserts_snoc, ← ih]
      exact entries_insertNode _ _

theorem isEscape_afterFields (s : HeaderLoop) (nonempty : fields ≠ []) : (afterFields s fields).isEscape = true := by
  induction fields using List.reverseRecOn with
  | nil => exact absurd rfl nonempty
  | append_singleton fields field ih => rw [afterFields_snoc]; rfl

theorem headerLoop_block (starts : s.Starts) (provided : ∀ call < 3 * fields.length, malloc (s.calls + call) = true)
    (nonempty : fields ≠ []) (data : Bytes) :
    headerLoop malloc (fieldLines fields ++ 13 :: 10 :: data) s = some (.ok, data, afterFields s fields) := by
  rw [(headerLoop_fields starts provided _).2, HeaderLoop.headerLoop_end (isEscape_afterFields s nonempty)]

end Lines

private theorem contentLength_afterFields {s : HeaderLoop} {fields : List (Field × Nat)}
    (others : ∀ field ∈ fields, field.1.name ≠ contentLengthKey) :
    (afterFields s fields).contentLength = s.contentLength := by
  induction fields using List.reverseRecOn with
  | nil => rfl
  | append_singleton fields field ih =>
      rw [afterFields_snoc, ← ih fun other member => others other (List.mem_append_left _ member)]
      exact if_neg (others field (List.mem_append_right _ (List.mem_singleton_self field)))

/-- Header fields of which none is the length of the body. -/
structure FieldList where
  fields : List Field
  nonempty : fields ≠ []
  valued : ∀ field ∈ fields, field.value ≠ []
  noLength : ∀ field ∈ fields, field.name.map lower ≠ contentLengthKey.map lower

namespace FieldList

/-- The lines of the fields, and an empty one. -/
def text (list : FieldList) : Bytes := fieldLines (list.fields.map fun field => (field, 1)) ++ [13, 10]

/-- The fields under their names in lower case. -/
def entries (list : FieldList) : List (Bytes × Bytes) :=
  list.fields.map fun field => (field.name.map lower, field.value)

end FieldList

/-- Each name is mapped to the value of its last occurrence, and nothing else is. -/
structure Faithful (list : FieldList) (headers : List Header) : Prop where
  distinct : (headers.map Header.key).Nodup
  binds : Binds (headers.map Header.entry) (latest list.entries)

private theorem parse_fieldList (list : FieldList) (calls : Nat) (http : Response) (rest : Bytes) :
    ∃ headers, headers.map Header.entry = upserts (list.fields.map Field.kept) ∧
      parseResponseHeader (fun _ => true) calls { http with headers := [] } (list.text ++ rest) =
        some (.ok, ⟨http.version, http.statusStr, http.status, http.resDes, headers, some [0], 0⟩) := by
  obtain ⟨fields, nonempty, valued, noLength⟩ := list
  have mapped : fields.map (fun field => (field, 1)) ≠ [] := fun empty => nonempty (List.map_eq_nil_iff.mp empty)
  have reads : headerLoop (fun _ => true) (fieldLines (fields.map fun field => (field, 1)) ++ 13 :: 10 :: rest)
      (HeaderLoop.new [] calls) = _ := headerLoop_block (starts_new [] calls) (fun _ _ => rfl) mapped rest
  have noBody : (afterFields (HeaderLoop.new [] calls) (fields.map fun field => (field, 1))).contentLength = 0 := by
    apply contentLength_afterFields
    intro field member same
    obtain ⟨plain, inFields, rfl⟩ := List.mem_map.mp member
    exact noLength plain inFields (congrArg (List.map lower) same)
  have entries := entries_afterFields (s := HeaderLoop.new [] calls) rfl (fields.map fun field => (field, 1))
  generalize afterFields (HeaderLoop.new [] calls) (fields.map fun field => (field, 1)) = after at reads noBody entries
  have parses : parseResponseHeader (fun _ => true) calls { http with headers := [] } _ = _ :=
    parseResponseHeader_ok reads rfl (Int.le_of_eq noBody.symm) (noBody ▸ by decide)
  rw [List.map_map] at entries
  refine ⟨after.headers, entries, ?_⟩
  simpa [FieldList.text, noBody] using parses

/-- The names and values of some fields come back exactly if no value that counts has a colon in it. -/
theorem faithful_iff (list : FieldList) (calls : Nat) (http : Response) (rest : Bytes) :
    (∃ parsed, parseResponseHeader (fun _ => true) calls { http with headers := [] } (list.text ++ rest) =
        some (.ok, parsed) ∧ Faithful list parsed.headers) ↔
      ∀ name value, latest list.entries name = some value → 58 ∉ value := by
  obtain ⟨headers, entries, parses⟩ := parse_fieldList list calls http rest
  have kept : list.fields.map Field.kept = list.entries.map fun entry => (entry.1, trimmed entry.2) := by
    rw [FieldList.entries, List.map_map]
    rfl
  have binds : Binds (headers.map Header.entry) (latest (list.fields.map Field.kept)) := entries ▸ binds_upserts _
  have own : ∀ name value, latest list.entries name = some value → (trimmed value = value ↔ 58 ∉ value) := by
    intro name value found
    obtain ⟨field, _, same⟩ := List.mem_map.mp (mem_of_latest found)
    cases same
    exact field.trimmed_eq_iff
  have stored : ∀ name, latest (list.fields.map Field.kept) name = (latest list.entries name).map trimmed := by
    intro name
    rw [kept]
    exact latest_map list.entries trimmed name
  constructor
  · intro ⟨parsed, same, faithful⟩ name value found
    cases parses.symm.trans same
    have equal := congrFun (binds.unique faithful.binds) name
    rw [stored, found, Option.map_some] at equal
    exact (own name value found).mp (Option.some.inj equal)
  · intro noColons
    refine ⟨_, parses, ?_, ?_⟩
    · have keys : headers.map Header.key = (upserts (list.fields.map Field.kept)).map Prod.fst := by
        rw [← entries, List.map_map]
        rfl
      rw [keys]
      exact nodup_keys_upserts _
    · have same : latest (list.fields.map Field.kept) = latest list.entries := by
        funext name
        rw [stored]
        cases found : latest list.entries name with
        | none => rfl
        | some value => rw [Option.map_some, (own name value found).mpr (noColons name value found)]
      exact same ▸ binds

/-- `a: b:c`. -/
def colonList : FieldList where
  fields := [⟨[97], [98, 58, 99], by decide, by decide, by decide, by decide, by decide, by decide⟩]
  nonempty := by decide
  valued := by simp
  noLength := by
    intro field member
    obtain rfl := List.mem_singleton.mp member
    decide

/-- The colon is left out. -/
theorem colonList_not_faithful :
    ¬ ∃ parsed, parseResponseHeader (fun _ => true) 1 { Response.new with headers := [] } (colonList.text ++ [0]) =
      some (.ok, parsed) ∧ Faithful colonList parsed.headers := by
  intro ⟨parsed, parses, faithful⟩
  have keeps : (parseResponseHeader (fun _ => true) 1 { Response.new with headers := [] }
      (colonList.text ++ [0])).map (·.2.headers) = some [⟨[97], [98, 99]⟩] := by decide +kernel
  rw [parses, Option.map_some] at keeps
  have value : latest colonList.entries [97] = some [98, 58, 99] := by decide +kernel
  have member := (faithful.binds _ _).mpr value
  rw [Option.some.inj keeps] at member
  exact absurd member (by decide)

/-- Header fields of which one has the name of the length of the body, and a number as its value. -/
structure LengthBlock where
  before : List (Field × Nat)
  length : Field
  spaces : Nat
  after : List (Field × Nat)
  named : length.name.map lower = contentLengthKey.map lower
  digits : ∀ c ∈ length.value, isdigit c = true
  nonempty : length.value ≠ []
  others : ∀ field ∈ before ++ after, field.1.name.map lower ≠ contentLengthKey.map lower

namespace LengthBlock

def fields (block : LengthBlock) : List (Field × Nat) := block.before ++ (block.length, block.spaces) :: block.after

/-- The lines of the fields, and an empty one. -/
def text (block : LengthBlock) : Bytes := fieldLines block.fields ++ [13, 10]

/-- The declared number of bytes. -/
def declared (block : LengthBlock) : Nat := decimal block.length.value

end LengthBlock

section Body

variable {block : LengthBlock} {s : HeaderLoop}

theorem atol_digits {text : Bytes} (digits : ∀ c ∈ text, isdigit c = true) (nonempty : text ≠ []) :
    atol text = min 2147483647 (decimal text : Int) := by
  obtain ⟨c, rest, rfl⟩ := List.exists_cons_of_ne_nil nonempty
  have first := digits c List.mem_cons_self
  simp only [isdigit, Bool.and_eq_true, decide_eq_true_eq] at first
  have notSpace : ¬ isspace c = true := by
    simp only [isspace, Bool.or_eq_true, Bool.and_eq_true, decide_eq_true_eq]
    rintro (rfl | within)
    · exact absurd first.1 (by decide)
    · omega
  have all : (c :: rest).takeWhile isdigit = c :: rest := List.takeWhile_eq_self_iff.mpr digits
  rw [atol, List.dropWhile_cons_of_neg notSpace]
  split
  next negative str split =>
  split at split
  · next minus =>
    cases minus
    exact absurd first.1 (by decide)
  · next plus =>
    cases plus
    exact absurd first.1 (by decide)
  · cases split
    rw [all]
    rfl

theorem contentLength_block (block : LengthBlock) (s : HeaderLoop) : (afterFields s block.fields).contentLength =
    if block.length.name = contentLengthKey then min 2147483647 (block.declared : Int) else s.contentLength := by
  have plain : trimmed block.length.value = block.length.value :=
    block.length.trimmed_eq_iff.mpr fun colon => absurd (block.digits 58 colon) (by decide)
  have others : ∀ field ∈ block.before ++ block.after, field.1.name ≠ contentLengthKey :=
    fun field member same => block.others field member (congrArg (List.map lower) same)
  have before := contentLength_afterFields (s := s) fun field member => others field (List.mem_append_left _ member)
  rw [LengthBlock.fields, afterFields, List.foldl_append, List.foldl_cons]
  refine (contentLength_afterFields fun field member => others field (List.mem_append_right _ member)).trans ?_
  rw [← before, LengthBlock.declared, ← atol_digits block.digits block.nonempty]
  exact congrArg (fun value => if block.length.name = contentLengthKey then atol value else _) plain

/-- The parser on such a block, if there is memory. -/
theorem parse_block (block : LengthBlock) {malloc : Malloc} {calls : Nat}
    (provided : ∀ call < 3 * block.fields.length + 1, malloc (calls + call) = true) (http : Response) (rest : Bytes) :
    ∃ headers, parseResponseHeader malloc calls http (block.text ++ rest) =
      if (if block.length.name = contentLengthKey then min 2147483647 block.declared else 0) ≤ rest.length then
        some (.ok, ⟨http.version, http.statusStr, http.status, http.resDes, headers,
          some (rest.take (if block.length.name = contentLengthKey then min 2147483647 block.declared else 0) ++ [0]),
          (if block.length.name = contentLengthKey then min 2147483647 block.declared else 0 : Nat)⟩)
      else none := by
  have nonempty : block.fields ≠ [] := by simp [LengthBlock.fields]
  have first : ∀ call < 3 * block.fields.length, malloc ((HeaderLoop.new http.headers calls).calls + call) = true :=
    fun call inside => provided call (Nat.lt_succ_of_lt inside)
  have reads := headerLoop_block (starts_new http.headers calls) first nonempty rest
  have last : malloc (afterFields (HeaderLoop.new http.headers calls) block.fields).calls = true := by
    rw [calls_afterFields]
    exact provided _ (Nat.lt_succ_self _)
  have length : (afterFields (HeaderLoop.new http.headers calls) block.fields).contentLength =
      (if block.length.name = contentLengthKey then min 2147483647 block.declared else 0 : Nat) := by
    rw [contentLength_block]
    split
    · omega
    · rfl
  generalize afterFields (HeaderLoop.new http.headers calls) block.fields = after at reads last length
  have small : (if block.length.name = contentLengthKey then min 2147483647 block.declared else 0) < 2147483648 := by
    split
    · omega
    · decide
  have parses := parseResponseHeader_ok reads last (by omega) (by omega)
  rw [length, Int.toNat_natCast] at parses
  refine ⟨after.headers, ?_⟩
  rwa [LengthBlock.text, List.append_assoc]

private theorem parse_block_fails (block : LengthBlock) {malloc : Malloc} {calls : Nat}
    (missing : ¬ ∀ call < 3 * block.fields.length + 1, malloc (calls + call) = true) (http : Response) (rest : Bytes) :
    ∃ after, parseResponseHeader malloc calls http (block.text ++ rest) = some (.noMemory, after) := by
  have nonempty : block.fields ≠ [] := by simp [LengthBlock.fields]
  rw [LengthBlock.text, List.append_assoc]
  by_cases first : ∀ call < 3 * block.fields.length, malloc ((HeaderLoop.new http.headers calls).calls + call) = true
  · have reads := headerLoop_block (starts_new http.headers calls) first nonempty rest
    apply parseResponseHeader_fails_last reads
    rw [calls_afterFields]
    by_contra last
    apply missing
    intro call inside
    rcases Nat.lt_succ_iff_lt_or_eq.mp inside with before | rfl
    · exact first call before
    · exact Bool.not_eq_false _ ▸ last
  · obtain ⟨left, after, reads⟩ := headerLoop_fields_fails (starts_new http.headers calls) first (13 :: 10 :: rest)
    exact parseResponseHeader_fails reads

/-- The body is as long as was declared or received exactly if the declaration is recognised and no longer than
what was received, or if there is nothing to store. No `long` is above `2147483647`. -/
theorem body_iff (block : LengthBlock) (malloc : Malloc) (calls : Nat) (http : Response) (further : Bytes) :
    (∃ parsed, parseResponseHeader malloc calls http (block.text ++ (further ++ [0])) = some (.ok, parsed) ∧
        parsed.body = some (further.take (min block.declared further.length) ++ [0]) ∧
        parsed.bodySize = min block.declared further.length) ↔
      (∀ call < 3 * block.fields.length + 1, malloc (calls + call) = true) ∧
        if block.length.name = contentLengthKey then
          block.declared ≤ further.length ∧ block.declared ≤ 2147483647 ∨
            further.length = 2147483647 ∧ 2147483647 ≤ block.declared
        else block.declared = 0 ∨ further.length = 0 := by
  by_cases provided : ∀ call < 3 * block.fields.length + 1, malloc (calls + call) = true
  · obtain ⟨headers, parses⟩ := parse_block block provided http (further ++ [0])
    generalize taken : (if block.length.name = contentLengthKey then min 2147483647 block.declared else 0) = n at parses
    rw [List.length_append, List.length_singleton] at parses
    constructor
    · intro ⟨parsed, same, _, size⟩
      refine ⟨provided, ?_⟩
      rw [same] at parses
      split at parses
      · next inside =>
        cases parses
        have equal : n = min block.declared further.length := Int.ofNat_inj.mp size
        split at taken
        · next exact => rw [if_pos exact]; omega
        · next other => rw [if_neg other]; omega
      · cases parses
    · intro ⟨_, right⟩
      have equal : n = min block.declared further.length := by
        split at taken
        · next exact => rw [if_pos exact] at right; omega
        · next other => rw [if_neg other] at right; omega
      have inside : n ≤ further.length := by omega
      rw [if_pos (by omega)] at parses
      refine ⟨_, parses, ?_, congrArg Nat.cast equal⟩
      rw [List.take_append_of_le_length inside, equal]
  · obtain ⟨after, fails⟩ := parse_block_fails block provided http (further ++ [0])
    constructor
    · intro ⟨parsed, same, _⟩
      rw [fails] at same
      cases same
    · exact fun right => absurd right.1 provided

end Body

/-- `content-length: 1`. -/
def lowerLength : LengthBlock where
  before := []
  length := ⟨contentLengthKey.map lower, [49], by decide, by decide, by decide, by decide, by decide, by decide⟩
  spaces := 1
  after := []
  named := by decide
  digits := by decide
  nonempty := by decide
  others := by simp

/-- The length is not recognised. -/
theorem lowerLength_no_body :
    ¬ ∃ parsed, parseResponseHeader (fun _ => true) 1 Response.new (lowerLength.text ++ ([120] ++ [0])) =
        some (.ok, parsed) ∧
      parsed.body = some ([120].take (min lowerLength.declared 1) ++ [0]) ∧
      parsed.bodySize = min lowerLength.declared 1 := by
  intro ⟨parsed, parses, body, _⟩
  have keeps : (parseResponseHeader (fun _ => true) 1 Response.new (lowerLength.text ++ ([120] ++ [0]))).map
      (·.2.body) = some (some [0]) := by decide +kernel
  rw [parses, Option.map_some, body] at keeps
  exact absurd keeps (by decide +kernel)

end GbfLibrary.Enet.Http
