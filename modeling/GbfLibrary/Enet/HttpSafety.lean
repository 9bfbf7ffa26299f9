import GbfLibrary.Enet.HttpParser

/-!
# Safe responses

The responses that `enet_http_parse_response` reads without a fault.
-/

set_option autoImplicit false

namespace GbfLibrary.Enet.Http

open Memory HeaderLoop

/-- Only colons and spaces, of which nothing is stored. -/
def Blank (text : Bytes) : Prop := ∀ c ∈ text, c = 58 ∨ c = 32

/-- What a buffer holds after some bytes were stored from its start on. -/
def overwrite (held bytes : Bytes) : Bytes := bytes ++ held.drop bytes.length

/-- What the lines so far have left: the bytes of the name buffer that were stored, the string in the value
buffer if there is one, and the length of the body. -/
structure Held where
  key : Bytes
  value : Option Bytes
  length : Int

namespace Held

def line (held : Held) (key value : Bytes) : Held :=
  ⟨key, some value, if cut key = contentLengthKey then atol value else held.length⟩

/-- The lines that are read safely. A line without a separator needs a terminating byte in the name buffer, and an
earlier line for its value. -/
inductive Reads (held : Held) : Bytes → Held → Prop
  | separated {text name rest} (parts : separate text = some (name, rest)) (shortName : name.length ≤ 127)
      (shortValue : (trimmed rest).length ≤ 127) :
      Reads held text (held.line (overwrite held.key (name ++ [0])) (cut (trimmed rest)))
  | whole {text value} (parts : separate text = none) (short : text.length ≤ 127)
      (terminated : 0 ∈ overwrite held.key text) (valued : held.value = some value) :
      Reads held text (held.line (overwrite held.key text) (value.take text.length))

end Held

/-- Header lines that are read safely: up to an empty line, behind which the declared length is there. -/
inductive Readable : Bool → Held → Bytes → Prop
  | line {first held after line data} (noLf : 10 ∉ line) (goesOn : first = true ∨ ¬ Blank (bare line))
      (reads : held.Reads (bare line) after) (others : Readable false after data) :
      Readable first held (line ++ 10 :: data)
  | done {held line data} (noLf : 10 ∉ line) (blank : Blank (bare line)) (low : 0 ≤ held.length)
      (high : held.length.toNat ≤ data.length) : Readable false held (line ++ 10 :: data)

/-- A field of the status line is passed over, with the byte behind it. -/
inductive Ended (len : Nat) (needle : Byte) : Bytes → Bytes → Prop
  | field {field d rest} (passes : ∀ c ∈ field, c ≠ needle ∧ Passes c)
      (ends : d = needle ∧ field.length ≤ len ∨ field.length = len) : Ended len needle (field ++ d :: rest) rest

/-- A field of the status line is refused. -/
inductive Refused (len : Nat) (needle : Byte) : Bytes → Prop
  | field {field d rest} (passes : ∀ c ∈ field, c ≠ needle ∧ Passes c) (short : field.length < len)
      (differs : d ≠ needle) (strange : ¬ Passes d) : Refused len needle (field ++ d :: rest)

/-- A field that is refused, or passed over with what comes next safe. -/
def SafeField (len : Nat) (needle : Byte) (next : Bytes → Prop) (text : Bytes) : Prop :=
  Refused len needle text ∨ ∃ rest, Ended len needle text rest ∧ next rest

/-- Responses that are read safely. -/
def Safe (received : Bytes) : Prop :=
  SafeField 9 32 (SafeField 9 32 (SafeField 63 10 (Readable true ⟨[], none, 0⟩))) (received ++ [0])

section Lines

variable {text name rest : Bytes}

private theorem trimmed_eq_nil_iff : trimmed text = [] ↔ Blank text := by
  rw [trimmed, List.dropWhile_eq_nil_iff]
  simp only [withoutColons, List.mem_filter, decide_eq_true_eq, and_imp, Blank]
  exact forall₂_congr fun c _ => Decidable.or_iff_not_imp_left.symm

private theorem blank_iff (text : Bytes) : Blank text ↔ match separate text with
    | some (name, rest) => name ++ trimmed rest = []
    | none => text = [] := by
  rcases separate_cases text with ⟨name, c, rest, rfl, noColon, noSpace, ends⟩ | ⟨whole, noColon, noSpace⟩
  · rw [separate_field noColon noSpace ends]
    dsimp only
    rw [List.append_eq_nil_iff, trimmed_eq_nil_iff]
    constructor
    · intro blank
      constructor
      · cases name with
        | nil => rfl
        | cons d name =>
            rcases blank d List.mem_cons_self with rfl | rfl
            · exact absurd List.mem_cons_self noColon
            · exact absurd rfl noSpace
      · exact fun d member => blank d (List.mem_append_right _ (List.mem_cons_of_mem _ member))
    · rintro ⟨rfl, blank⟩ d member
      rcases List.mem_cons.mp member with rfl | inRest
      · exact ends.imp_right And.left
      · exact blank d inRest
  · rw [whole]
    constructor
    · intro blank
      cases text with
      | nil => rfl
      | cons d text =>
          rcases blank d List.mem_cons_self with rfl | rfl
          · exact absurd List.mem_cons_self noColon
          · exact absurd rfl noSpace
    · rintro rfl
      exact fun d member => absurd member List.not_mem_nil

end Lines

/-- The loop at the start of a line, with what the lines before have left. -/
structure Tracks (s : HeaderLoop) (first : Bool) (held : Held) : Prop where
  starts : s.Starts
  isEscape : s.isEscape = !first
  key : s.key = Buffer.new.filled held.key
  keyFits : held.key.length ≤ 128
  value : s.content.string = held.value
  fresh : held.value = none → s.content = Buffer.new ∧ held.key = []
  length : s.contentLength = held.length

section Steps

variable {malloc : Malloc} {s t : HeaderLoop} {first : Bool} {held after : Held} {text line : Bytes}

theorem string_new_filled_none {bytes : Bytes} (good : 0 ∉ bytes) : (Buffer.new.filled bytes).string = none := by
  have unknown : ∀ n, Buffer.string (bytes.map some ++ List.replicate n none) = none := by
    intro n
    induction bytes with
    | nil =>
        cases n with
        | zero => rfl
        | succ n => rfl
    | cons c bytes ih =>
        rw [List.mem_cons, not_or] at good
        rw [List.map_cons, List.cons_append, Buffer.string, if_neg (Ne.symm good.1), ih good.2, Option.map_none]
  rw [Buffer.filled, Buffer.new, List.drop_replicate]
  exact unknown _

theorem string_new_filled {bytes : Bytes} (ends : 0 ∈ bytes) : (Buffer.new.filled bytes).string = some (cut bytes) :=
  Buffer.string_append ends _

private theorem cut_append {bytes : Bytes} (ends : 0 ∈ bytes) (other : Bytes) : cut (bytes ++ other) = cut bytes := by
  induction bytes with
  | nil => exact absurd ends List.not_mem_nil
  | cons c bytes ih =>
      rw [List.cons_append, cut, cut, List.takeWhile_cons, List.takeWhile_cons]
      split
      · next good =>
        have later : 0 ∈ bytes := (List.mem_cons.mp ends).resolve_left (Ne.symm (of_decide_eq_true good))
        exact congrArg _ (ih later)
      · rfl

theorem length_overwrite {held bytes : Bytes} (fits : bytes.length ≤ 128) (heldFits : held.length ≤ 128) :
    (overwrite held bytes).length ≤ 128 := by
  rw [overwrite, List.length_append, List.length_drop]
  omega

private theorem string_set {buffer : Buffer} {value : Bytes} (holds : buffer.string = some value) (j : Nat) :
    Buffer.string (buffer.set j (some 0)) = some (value.take j) := by
  induction buffer generalizing value j with
  | nil => cases holds
  | cons cell buffer ih =>
      cases cell with
      | none => cases holds
      | some c =>
          cases j with
          | zero => rw [List.set_cons_zero, Buffer.string, if_pos rfl, List.take_zero]
          | succ j =>
              rw [Buffer.string] at holds
              rw [List.set_cons_succ, Buffer.string]
              split at holds
              · next zero =>
                cases holds
                rw [if_pos zero, List.take_nil]
              · next good =>
                obtain ⟨tail, here, rfl⟩ := Option.map_eq_some_iff.mp holds
                rw [if_neg good, ih here, Option.map_some, List.take_succ_cons]

theorem Held.Reads.ends (tracks : Tracks s first held) (reads : held.Reads text after) :
    ∃ t key value, s.readLine text = some t ∧ t.Ends key value ∧ Tracks (t.inserted key value) false after := by
  obtain ⟨starts, isEscape, keyIs, keyFits, valueIs, fresh, length⟩ := tracks
  cases reads with
  | @separated name rest parts shortName shortValue =>
      have nameFits : name.length < 128 := Nat.lt_succ_of_le shortName
      have valueFits : (trimmed rest).length < 128 := Nat.lt_succ_of_le shortValue
      have ends := named_ends starts name valueFits
      have key : s.key.filled (name ++ [0]) = Buffer.new.filled (overwrite held.key (name ++ [0])) := by
        rw [keyIs, Buffer.filled_filled, overwrite]
      have string : cut (overwrite held.key (name ++ [0])) = cut name := by
        rw [overwrite, cut_append (List.mem_append_right _ (List.mem_singleton_self 0)), Buffer.cut_snoc]
      refine ⟨_, _, _, ?_, ends, starts.inserted nameFits valueFits _ _, rfl, key, ?_, ends.value, ?_, ?_⟩
      · rw [HeaderLoop.readLine, parts]
        exact if_pos ⟨nameFits, Nat.le_of_lt valueFits⟩
      · exact length_overwrite (List.length_append.trans_le (Nat.succ_le_of_lt nameFits)) keyFits
      · exact fun absent => by cases absent
      · rw [Held.line, string, ← length]
        rfl
  | @whole value parts short terminated valued =>
      have fits : text.length < 128 := Nat.lt_succ_of_le short
      have key : s.key.filled text = Buffer.new.filled (overwrite held.key text) := by rw [keyIs, Buffer.filled_filled, overwrite]
      have ends : ((s.copying text).inKey s.key text).Ends (cut (overwrite held.key text)) (value.take text.length) := by
        constructor
        · exact starts.content.symm ▸ fits
        · exact (congrArg Buffer.string key).trans (string_new_filled terminated)
        · exact string_set (valueIs.trans valued) text.length
      refine ⟨_, _, _, ?_, ends, ?_, rfl, key, ?_, ends.value, ?_, ?_⟩
      · rw [HeaderLoop.readLine, parts]
        exact if_pos (Nat.le_of_lt fits)
      · constructor
        · rfl
        · rfl
        · exact (Buffer.length_filled (starts.key.symm ▸ Nat.le_of_lt fits)).trans starts.key
        · exact List.length_set.trans starts.content
      · exact length_overwrite (Nat.le_of_lt fits) keyFits
      · exact fun absent => by cases absent
      · rw [Held.line, ← length]
        rfl

/-- A line that is not read safely does not end with both strings in place. -/
theorem Held.Reads.of_ends {key value : Bytes} (tracks : Tracks s first held) (reads : s.readLine text = some t)
    (ends : t.Ends key value) : ∃ after, held.Reads text after := by
  obtain ⟨starts, isEscape, keyIs, keyFits, valueIs, fresh, length⟩ := tracks
  cases parts : separate text with
  | some pair =>
      obtain ⟨name, rest⟩ := pair
      rw [HeaderLoop.readLine, parts] at reads
      obtain ⟨⟨nameFits, valueFits⟩, same⟩ := Option.ite_none_right_eq_some.mp reads
      cases same
      have room : (trimmed rest).length < (s.content.filled (trimmed rest)).length := ends.room
      rw [Buffer.length_filled (starts.content.symm ▸ valueFits), starts.content] at room
      exact ⟨_, .separated parts (Nat.le_of_lt_succ nameFits) (Nat.le_of_lt_succ room)⟩
  | none =>
      rw [HeaderLoop.readLine, parts] at reads
      obtain ⟨fits, same⟩ := Option.ite_none_right_eq_some.mp reads
      cases same
      have room : text.length < s.content.length := ends.room
      rw [starts.content] at room
      have stringKey : (s.key.filled text).string = some key := ends.key
      have stringValue : Buffer.string (s.content.set text.length (some 0)) = some value := ends.value
      have terminated : 0 ∈ overwrite held.key text := by
        by_contra good
        rw [keyIs, Buffer.filled_filled] at stringKey
        cases (string_new_filled_none good).symm.trans stringKey
      cases valued : held.value with
      | some value => exact ⟨_, .whole parts (Nat.le_of_lt_succ room) terminated valued⟩
      | none =>
          obtain ⟨unset, noKey⟩ := fresh valued
          rw [noKey, overwrite, List.drop_nil, List.append_nil] at terminated
          obtain ⟨c, tail, rfl⟩ := List.exists_cons_of_ne_nil (List.ne_nil_of_mem terminated)
          rw [unset] at stringValue
          cases stringValue

private theorem isEscape_readLine (reads : s.readLine text = some t) :
    (t.isEscape = true ↔ s.isEscape = true ∧ Blank text) ∧ t.contentLength = s.contentLength := by
  rw [HeaderLoop.readLine] at reads
  have blank := blank_iff text
  cases parts : separate text with
  | some pair =>
      rw [parts] at reads blank
      dsimp only at blank
      obtain ⟨_, same⟩ := Option.ite_none_right_eq_some.mp reads
      cases same
      rw [blank, ← List.isEmpty_iff, ← Bool.and_eq_true]
      exact ⟨Iff.rfl, rfl⟩
  | none =>
      rw [parts] at reads blank
      obtain ⟨_, same⟩ := Option.ite_none_right_eq_some.mp reads
      cases same
      rw [blank, ← List.isEmpty_iff, ← Bool.and_eq_true]
      exact ⟨Iff.rfl, rfl⟩

private theorem exists_readLine_of_blank (s : HeaderLoop) (blank : Blank text) : ∃ t, s.readLine text = some t := by
  have empty := (blank_iff text).mp blank
  rw [HeaderLoop.readLine]
  cases parts : separate text with
  | some pair =>
      rw [parts] at empty
      obtain ⟨noName, noValue⟩ := List.append_eq_nil_iff.mp empty
      exact ⟨_, if_pos (by simp [noName, noValue])⟩
  | none =>
      rw [parts] at empty
      exact ⟨_, if_pos (by simp [empty])⟩

/-- Where there is memory, a line that ends without a fault ends with both strings in place. -/
theorem ends_of_endLine {result : Status × HeaderLoop} (returns : s.endLine (fun _ => true) = some result) :
    ∃ key value, s.Ends key value := by
  rw [HeaderLoop.endLine] at returns
  obtain ⟨content, stores, returns⟩ := Option.bind_eq_some_iff.mp returns
  obtain ⟨room, same⟩ := Option.ite_none_right_eq_some.mp stores
  cases same
  dsimp only at returns
  rw [if_neg (by decide)] at returns
  obtain ⟨key, keyIs, returns⟩ := Option.bind_eq_some_iff.mp returns
  obtain ⟨value, valueIs, _⟩ := Option.bind_eq_some_iff.mp returns
  exact ⟨key, value, room, keyIs, valueIs⟩

/-- The parser gets through these lines, and the declared length is there. -/
def Finishes (malloc : Malloc) (data : Bytes) (s : HeaderLoop) : Prop :=
  ∃ rc rest after, headerLoop malloc data s = some (rc, rest, after) ∧
    (rc = .ok → malloc after.calls = true → 0 ≤ after.contentLength ∧ after.contentLength.toNat ≤ rest.length)

theorem Readable.finishes {data : Bytes} (readable : Readable first held data) (malloc : Malloc) (s : HeaderLoop)
    (tracks : Tracks s first held) : Finishes malloc data s := by
  induction readable generalizing s with
  | @line first held after line data noLf goesOn reads _ ih =>
      obtain ⟨t, key, value, readsLine, ends, again⟩ := reads.ends tracks
      have goesOn : ¬ t.isEscape = true := by
        rw [(isEscape_readLine readsLine).1, tracks.isEscape]
        rintro ⟨later, blank⟩
        rcases goesOn with rfl | notBlank
        · cases later
        · exact notBlank blank
      rw [Finishes, headerLoop_newline tracks.starts noLf, readsLine, Option.bind_some, if_neg goesOn]
      by_cases provided : Provided malloc t.calls
      · rw [ends.endLine provided, Option.bind_some]
        exact ih _ again
      · obtain ⟨left, fails⟩ := ends.endLine_fails provided
        rw [fails, Option.bind_some]
        exact ⟨.noMemory, data, left, if_pos (by simp), fun ok => by cases ok⟩
  | @done held line data noLf blank low high =>
      obtain ⟨t, readsLine⟩ := exists_readLine_of_blank s blank
      obtain ⟨escape, length⟩ := isEscape_readLine readsLine
      have stops : t.isEscape = true := escape.mpr ⟨tracks.isEscape, blank⟩
      rw [Finishes, headerLoop_newline tracks.starts noLf, readsLine, Option.bind_some, if_pos stops]
      rw [tracks.length] at length
      exact ⟨.ok, data, t, rfl, fun _ _ => length.symm ▸ ⟨low, high⟩⟩

theorem readable_of_finishes {data : Bytes} (tracks : Tracks s first held) (finishes : Finishes (fun _ => true) data s) :
    Readable first held data := by
  induction size : data.length using Nat.strong_induction_on generalizing s first held data with
  | _ n ih =>
      obtain ⟨rc, rest, last, runs, enough⟩ := finishes
      by_cases newline : 10 ∈ data
      · obtain ⟨line, data, rfl, noLf⟩ := List.eq_append_cons_of_mem newline
        rw [headerLoop_newline tracks.starts noLf] at runs
        obtain ⟨t, readsLine, runs⟩ := Option.bind_eq_some_iff.mp runs
        obtain ⟨escape, length⟩ := isEscape_readLine readsLine
        split at runs
        · next stops =>
          cases runs
          obtain ⟨later, blank⟩ := escape.mp stops
          rw [tracks.isEscape] at later
          cases first with
          | true => cases later
          | false =>
              obtain ⟨low, high⟩ := enough rfl rfl
              rw [length, tracks.length] at low high
              exact .done noLf blank low high
        · next goesOn =>
          obtain ⟨result, returns, runs⟩ := Option.bind_eq_some_iff.mp runs
          obtain ⟨_, _, anyEnds⟩ := ends_of_endLine returns
          obtain ⟨after, reads⟩ := Held.Reads.of_ends tracks readsLine anyEnds
          obtain ⟨t', key, value, readsAgain, ends, again⟩ := reads.ends tracks
          cases readsLine.symm.trans readsAgain
          rw [ends.endLine ⟨rfl, rfl, rfl⟩] at returns
          cases returns
          have goesOn : first = true ∨ ¬ Blank (bare line) := by
            cases first with
            | true => exact .inl rfl
            | false => exact .inr fun blank => goesOn (escape.mpr ⟨tracks.isEscape, blank⟩)
          have shorter : data.length < n := by
            rw [← size, List.length_append, List.length_cons]
            omega
          exact .line noLf goesOn reads (ih data.length shorter again ⟨rc, rest, last, runs, enough⟩ rfl)
      · rw [headerLoop_no_newline newline] at runs
        cases runs

end Steps

section Responses

variable {malloc : Malloc} {len : Nat} {needle : Byte} {text des : Bytes}

theorem Ended.cons {rest : Bytes} {c : Byte} (ended : Ended len needle text rest) (stops : c ≠ needle)
    (passes : Passes c) : Ended (len + 1) needle (c :: text) rest := by
  cases ended with
  | @field field d _ others ends =>
      apply @Ended.field (len + 1) needle (c :: field) d rest
      · exact List.forall_mem_cons.mpr ⟨⟨stops, passes⟩, others⟩
      · exact ends.imp (And.imp_right Nat.succ_le_succ) (congrArg (· + 1))

theorem Refused.cons {c : Byte} (refused : Refused len needle text) (stops : c ≠ needle) (passes : Passes c) :
    Refused (len + 1) needle (c :: text) := by
  cases refused with
  | @field field d rest others short differs strange =>
      apply @Refused.field _ _ (c :: field) d rest
      · exact List.forall_mem_cons.mpr ⟨⟨stops, passes⟩, others⟩
      · exact Nat.succ_lt_succ short
      · exact differs
      · exact strange

/-- A field is passed over, refused, or left unfinished at the end of the response. -/
theorem field_cases (len : Nat) (needle : Byte) (text : Bytes) :
    (∃ rest, Ended len needle text rest) ∨ Refused len needle text ∨
      (∀ c ∈ text, c ≠ needle ∧ Passes c) ∧ text.length ≤ len := by
  have nothing : ∀ c ∈ ([] : Bytes), c ≠ needle ∧ Passes c := fun c member => absurd member List.not_mem_nil
  induction text generalizing len with
  | nil => exact .inr (.inr ⟨nothing, Nat.zero_le len⟩)
  | cons c text ih =>
      by_cases stops : c = needle
      · exact .inl ⟨text, @Ended.field _ _ [] c text nothing (.inl ⟨stops, Nat.zero_le len⟩)⟩
      · cases len with
        | zero => exact .inl ⟨text, @Ended.field _ _ [] c text nothing (.inr rfl)⟩
        | succ len =>
            by_cases passes : Passes c
            · rcases ih len with ⟨rest, ended⟩ | refused | ⟨all, short⟩
              · exact .inl ⟨rest, ended.cons stops passes⟩
              · exact .inr (.inl (refused.cons stops passes))
              · exact .inr (.inr ⟨List.forall_mem_cons.mpr ⟨⟨stops, passes⟩, all⟩, Nat.succ_le_succ short⟩)
            · exact .inr (.inl (@Refused.field _ _ [] c text nothing (Nat.succ_pos len) stops passes))

private theorem cpySession_cases (needle : Byte) (front text : Bytes) (size : len ≤ des.length) (srcLen : Nat) :
    (∃ field d rest, text = field ++ d :: rest ∧ field.length ≤ len ∧ Ended len needle text rest ∧
        cpySession des len (front ++ text) srcLen front.length needle =
          some (.ok, stored des 0 field, (front ++ field ++ [d]).length)) ∨
      (Refused len needle text ∧ ∃ after offset,
        cpySession des len (front ++ text) srcLen front.length needle = some (.dataCorrupt, after, offset)) ∨
      ((∀ c ∈ text, c ≠ needle ∧ Passes c) ∧ text.length ≤ len ∧
        cpySession des len (front ++ text) srcLen front.length needle = none) := by
  rcases field_cases len needle text with ⟨rest, ended⟩ | refused | ⟨passes, short⟩
  · left
    cases ended with
    | @field field d _ passes ends =>
        have fits : field.length ≤ len := ends.elim And.right Nat.le_of_eq
        refine ⟨field, d, rest, rfl, fits, .field passes ends, ?_⟩
        rw [cpySession_ends passes (Nat.le_trans fits size) ends]
        simp only [List.length_append, List.length_singleton]
  · right
    left
    refine ⟨refused, ?_⟩
    cases refused with
    | @field field d rest passes short differs strange =>
        exact ⟨_, _, cpySession_refuses passes (Nat.le_trans (Nat.le_of_lt short) size) short differs strange⟩
  · right
    right
    exact ⟨passes, short, cpySession_faults passes (Nat.le_trans short size) short⟩

/-- A call shows how much of a text it passes over. -/
theorem Ended.session {rest : Bytes} (ended : Ended len needle text rest) : ∃ after offset,
    cpySession (List.replicate len 0) len text 0 0 needle = some (.ok, after, offset) ∧ rest = text.drop offset := by
  cases ended with
  | @field field d _ passes ends =>
      have fits : field.length ≤ (List.replicate len (0 : Byte)).length := by
        rw [List.length_replicate]
        exact ends.elim And.right Nat.le_of_eq
      have session : cpySession (List.replicate len 0) len ([] ++ (field ++ d :: rest)) 0 ([] : Bytes).length needle = _ :=
        cpySession_ends passes fits ends
      refine ⟨_, _, session, ?_⟩
      simp

theorem Ended.unique {rest other : Bytes} (ended : Ended len needle text rest) (again : Ended len needle text other) :
    rest = other := by
  obtain ⟨after, offset, session, rfl⟩ := ended.session
  obtain ⟨after', offset', session', rfl⟩ := again.session
  cases session.symm.trans session'
  rfl

theorem Refused.session (refused : Refused len needle text) : ∃ after offset,
    cpySession (List.replicate len 0) len text 0 0 needle = some (.dataCorrupt, after, offset) := by
  cases refused with
  | @field field d rest passes short differs strange =>
      have fits : field.length ≤ (List.replicate len (0 : Byte)).length := by
        rw [List.length_replicate]
        exact Nat.le_of_lt short
      have session : cpySession (List.replicate len 0) len ([] ++ (field ++ d :: rest)) 0 ([] : Bytes).length needle = _ :=
        cpySession_refuses passes fits short differs strange
      exact ⟨_, _, session⟩

private theorem Ended.not_refused {rest : Bytes} (ended : Ended len needle text rest) : ¬ Refused len needle text := by
  intro refused
  obtain ⟨_, _, session, _⟩ := ended.session
  obtain ⟨_, _, session'⟩ := refused.session
  cases session.symm.trans session'

private theorem safeField_of_ended {next : Bytes → Prop} {rest : Bytes} (ended : Ended len needle text rest) :
    SafeField len needle next text ↔ next rest := by
  constructor
  · rintro (refused | ⟨other, again, safe⟩)
    · exact absurd refused ended.not_refused
    · exact ended.unique again ▸ safe
  · exact fun safe => .inr ⟨rest, ended, safe⟩

theorem not_safeField {next : Bytes → Prop} (passes : ∀ c ∈ text, c ≠ needle ∧ Passes c) (short : text.length ≤ len) :
    ¬ SafeField len needle next text := by
  have session : cpySession (List.replicate len 0) len ([] ++ text) 0 ([] : Bytes).length needle = none :=
    cpySession_faults passes (List.length_replicate.symm ▸ short) short
  rintro (refused | ⟨rest, ended, _⟩)
  · obtain ⟨_, _, session'⟩ := refused.session
    cases session.symm.trans session'
  · obtain ⟨_, _, session', _⟩ := ended.session
    cases session.symm.trans session'

private theorem getElem?_stored {field : Bytes} {j k : Nat} (behind : j + field.length ≤ k) :
    (stored des j field)[k]? = des[k]? := by
  induction field generalizing des j with
  | nil => rfl
  | cons c field ih =>
      rw [List.length_cons] at behind
      rw [stored, ih (by omega)]
      split
      · exact List.getElem?_set_ne (by omega)
      · rfl

private theorem exists_cString {array : Bytes} (ends : 0 ∈ array) : ∃ str, cString array = some str := by
  induction array with
  | nil => exact absurd ends List.not_mem_nil
  | cons c array ih =>
      rw [cString]
      split
      · exact ⟨[], rfl⟩
      · next good =>
        obtain ⟨str, rest⟩ := ih ((List.mem_cons.mp ends).resolve_left (Ne.symm good))
        exact ⟨c :: str, by rw [rest, Option.map_some]⟩

private theorem exists_cString_stored {field : Bytes} (fits : field.length ≤ 9) :
    ∃ digits, cString (stored (List.replicate 10 0) 0 field) = some digits := by
  apply exists_cString
  apply List.mem_of_getElem?
  exact getElem?_stored (k := 9) (by omega)

private theorem parseStatusLine_cases (next : Bytes → Prop) (src : Bytes) (srcLen : Nat) :
    ((∃ after offset, parseStatusLine src srcLen = some (.dataCorrupt, after, offset)) ∧
        SafeField 9 32 (SafeField 9 32 (SafeField 63 10 next)) src) ∨
      (parseStatusLine src srcLen = none ∧ ¬ SafeField 9 32 (SafeField 9 32 (SafeField 63 10 next)) src) ∨
      ∃ http i, parseStatusLine src srcLen = some (.ok, http, i) ∧ http.headers = [] ∧
        (SafeField 9 32 (SafeField 9 32 (SafeField 63 10 next)) src ↔ next (src.drop i)) := by
  have size : 9 ≤ (List.replicate 10 (0 : Byte)).length := by decide
  have sizeReason : 63 ≤ (List.replicate 64 (0 : Byte)).length := by decide
  rcases cpySession_cases 32 [] src size srcLen with
    ⟨version, d, rest, rfl, _, ended, first⟩ | ⟨refused, after, offset, first⟩ | ⟨passes, short, first⟩
  · rw [List.nil_append, List.length_nil, List.nil_append] at first
    rw [safeField_of_ended ended]
    rw [List.append_cons] at first ⊢
    rcases cpySession_cases 32 (version ++ [d]) rest size srcLen with
      ⟨code, e, rest, rfl, fits, ended, second⟩ | ⟨refused, after, offset, second⟩ | ⟨passes, short, second⟩
    · obtain ⟨digits, number⟩ := exists_cString_stored fits
      rw [safeField_of_ended ended]
      rw [← List.append_assoc, List.append_cons _ e rest] at first second ⊢
      rcases cpySession_cases 10 (version ++ [d] ++ code ++ [e]) rest sizeReason srcLen with
        ⟨reason, f, rest, rfl, _, ended, third⟩ | ⟨refused, after, offset, third⟩ | ⟨passes, short, third⟩
      · right
        right
        refine ⟨_, _, parseStatusLine_apply first second number third, rfl, ?_⟩
        rw [safeField_of_ended ended, ← List.append_assoc, List.append_cons _ f rest, List.drop_left]
      · left
        refine ⟨?_, .inl refused⟩
        simp only [parseStatusLine, Response.new, first, second, third, number, Option.bind_eq_bind, Option.bind_some]
        exact ⟨_, _, rfl⟩
      · right
        left
        refine ⟨?_, not_safeField passes short⟩
        simp only [parseStatusLine, Response.new, first, second, third, number, Option.bind_eq_bind, Option.bind_some]
        rfl
    · left
      refine ⟨?_, .inl refused⟩
      simp only [parseStatusLine, Response.new, first, second, Option.bind_eq_bind, Option.bind_some]
      exact ⟨_, _, rfl⟩
    · right
      left
      refine ⟨?_, not_safeField passes short⟩
      simp only [parseStatusLine, Response.new, first, second, Option.bind_eq_bind, Option.bind_some]
      rfl
  · left
    rw [List.nil_append, List.length_nil] at first
    refine ⟨?_, .inl refused⟩
    simp only [parseStatusLine, Response.new, first, Option.bind_eq_bind, Option.bind_some]
    exact ⟨_, _, rfl⟩
  · right
    left
    rw [List.nil_append, List.length_nil] at first
    refine ⟨?_, not_safeField passes short⟩
    simp only [parseStatusLine, Response.new, first, Option.bind_eq_bind, Option.bind_none]

private theorem tracks_new (calls : Nat) : Tracks (HeaderLoop.new [] calls) true ⟨[], none, 0⟩ where
  starts := starts_new [] calls
  isEscape := rfl
  key := rfl
  keyFits := Nat.zero_le 128
  value := rfl
  fresh := fun _ => ⟨rfl, rfl⟩
  length := rfl

private theorem atol_le (str : Bytes) : atol str ≤ 2147483647 := by
  rw [atol]
  split
  dsimp only
  split
  · omega
  · omega

private theorem contentLength_char {s after : HeaderLoop} {c : Byte} (reads : s.char c = some after) :
    after.contentLength = s.contentLength := by
  rw [HeaderLoop.char] at reads
  split at reads
  · split at reads
    · obtain ⟨key, _, same⟩ := Option.bind_eq_some_iff.mp reads
      cases same
      rfl
    · cases reads
      rfl
  · split at reads
    · obtain ⟨key, _, same⟩ := Option.bind_eq_some_iff.mp reads
      cases same
      rfl
    · obtain ⟨content, _, same⟩ := Option.bind_eq_some_iff.mp reads
      cases same
      rfl

theorem contentLength_endLine {s : HeaderLoop} {result : Status × HeaderLoop} (small : s.contentLength ≤ 2147483647)
    (returns : s.endLine malloc = some result) : result.2.contentLength ≤ 2147483647 := by
  rw [HeaderLoop.endLine] at returns
  obtain ⟨content, _, returns⟩ := Option.bind_eq_some_iff.mp returns
  dsimp only at returns
  split at returns
  · cases returns
    exact small
  · obtain ⟨key, _, returns⟩ := Option.bind_eq_some_iff.mp returns
    obtain ⟨value, _, returns⟩ := Option.bind_eq_some_iff.mp returns
    split at returns
    · cases returns
      exact small
    · cases returns
      dsimp only
      split
      · exact atol_le value
      · exact small

private theorem contentLength_headerLoop {data rest : Bytes} {s after : HeaderLoop} {rc : Status}
    (small : s.contentLength ≤ 2147483647) (runs : headerLoop malloc data s = some (rc, rest, after)) :
    after.contentLength ≤ 2147483647 := by
  induction data generalizing s with
  | nil => cases runs
  | cons c data ih =>
      rw [headerLoop] at runs
      split at runs
      · exact ih small runs
      · split at runs
        · split at runs
          · cases runs
            exact small
          · obtain ⟨⟨code, later⟩, returns, runs⟩ := Option.bind_eq_some_iff.mp runs
            have still := contentLength_endLine small returns
            dsimp only at runs
            split at runs
            · cases runs
              exact still
            · exact ih still runs
        · obtain ⟨later, reads, runs⟩ := Option.bind_eq_some_iff.mp runs
          exact ih (contentLength_char reads ▸ small) runs

private theorem parseResponseHeader_returns {http : Response} {calls : Nat} {data : Bytes}
    (finishes : Finishes malloc data (HeaderLoop.new http.headers calls)) :
    ∃ result, parseResponseHeader malloc calls http data = some result := by
  obtain ⟨rc, rest, after, runs, enough⟩ := finishes
  have small := contentLength_headerLoop (show (0 : Int) ≤ 2147483647 by decide) runs
  by_cases ok : rc = .ok
  · subst ok
    cases memory : malloc after.calls with
    | false =>
        rw [parseResponseHeader, runs, Option.bind_eq_bind, Option.bind_some]
        simp only [memory, ne_eq, not_true_eq_false, if_true, if_false]
        exact ⟨_, rfl⟩
    | true =>
        obtain ⟨low, high⟩ := enough rfl memory
        rw [parseResponseHeader_ok runs memory low (by omega), if_pos high]
        exact ⟨_, rfl⟩
  · rw [parseResponseHeader, runs, Option.bind_eq_bind, Option.bind_some]
    exact ⟨_, if_pos ok⟩

private theorem finishes_of_returns {http : Response} {calls : Nat} {data : Bytes} {result : Status × Response}
    (returns : parseResponseHeader malloc calls http data = some result) :
    Finishes malloc data (HeaderLoop.new http.headers calls) := by
  rw [parseResponseHeader] at returns
  obtain ⟨⟨rc, rest, after⟩, runs, returns⟩ := Option.bind_eq_some_iff.mp returns
  refine ⟨rc, rest, after, runs, ?_⟩
  rintro rfl memory
  dsimp only at returns
  rw [if_neg (by simp), if_neg (by simp [memory])] at returns
  obtain ⟨bytes, reads, returns⟩ := Option.bind_eq_some_iff.mp returns
  obtain ⟨body, _, returns⟩ := Option.bind_eq_some_iff.mp returns
  obtain ⟨⟨low, high⟩, _⟩ := Option.ite_none_right_eq_some.mp returns
  have inside := (le_of_read reads).2
  have word := natCast_unsigned after.contentLength
  have next := natCast_unsigned (after.contentLength + 1)
  omega

/-- A response is read without a fault, whatever the allocations do, exactly if it is safe. -/
theorem parseResponse_returns_iff (received : Bytes) :
    (∀ malloc, ∃ result, parseResponse malloc received = some result) ↔ Safe received := by
  have cases' := parseStatusLine_cases (Readable true ⟨[], none, 0⟩) (received ++ [0]) received.length
  rcases cases' with ⟨⟨after, offset, refuses⟩, safe⟩ | ⟨faults, notSafe⟩ | ⟨http, i, passes, noHeaders, safe⟩
  · refine iff_of_true (fun malloc => ?_) safe
    rw [parseResponse]
    split
    · exact ⟨_, rfl⟩
    · rw [refuses, Option.bind_eq_bind, Option.bind_some]
      exact ⟨_, if_pos (by simp)⟩
  · refine iff_of_false (fun returns => ?_) notSafe
    obtain ⟨result, same⟩ := returns fun _ => true
    rw [parseResponse, if_neg (by decide), faults] at same
    cases same
  · have runs : ∀ malloc, malloc 0 = true → ((∃ result, parseResponse malloc received = some result) ↔
        ∃ result, parseResponseHeader malloc 1 http ((received ++ [0]).drop i) = some result) := by
      intro malloc first
      rw [parseResponse, if_neg (by simp [first]), passes, Option.bind_eq_bind, Option.bind_some]
      dsimp only
      rw [if_neg (by simp)]
      cases parses : parseResponseHeader malloc 1 http ((received ++ [0]).drop i) with
      | none => simp
      | some result =>
          rw [Option.bind_eq_bind, Option.bind_some]
          refine iff_of_true ?_ ⟨result, rfl⟩
          split
          · exact ⟨_, rfl⟩
          · exact ⟨_, rfl⟩
    rw [Safe, safe]
    constructor
    · intro returns
      obtain ⟨result, header⟩ := (runs (fun _ => true) rfl).mp (returns fun _ => true)
      have finishes := finishes_of_returns header
      rw [noHeaders] at finishes
      exact readable_of_finishes (tracks_new 1) finishes
    · intro readable malloc
      cases first : malloc 0 with
      | false =>
          rw [parseResponse, if_pos first]
          exact ⟨_, rfl⟩
      | true =>
          apply (runs malloc first).mpr
          apply parseResponseHeader_returns
          rw [noHeaders]
          exact readable.finishes malloc _ (tracks_new 1)

end Responses

/-- `HTTP/1.1 200 OK` and `A: b`, without an empty line. -/
def endlessResponse : Bytes :=
  [72, 84, 84, 80, 47, 49, 46, 49, 32, 50, 48, 48, 32, 79, 75, 13, 10, 65, 58, 32, 98, 13, 10]

/-- The parser looks for the end of the headers behind the response. -/
theorem endlessResponse_faults : ¬ ∀ malloc, ∃ result, parseResponse malloc endlessResponse = some result := by
  intro returns
  obtain ⟨result, same⟩ := returns fun _ => true
  have faults : parseResponse (fun _ => true) endlessResponse = none := by decide +kernel
  cases faults.symm.trans same

end GbfLibrary.Enet.Http
