import GbfLibrary.Enet.HttpHeaders
import Mathlib.Order.Basic

/-!
# The status line

`enet_http_cpy_session` of `enet_tools.c`, and its three calls in `enet_http_parse_response`. What is read
behind the response, or stored behind a field, is a fault.
-/

set_option autoImplicit false

namespace GbfLibrary.Enet.Http

open Memory

/-- `isprint` in the C locale. -/
def isprint (c : Byte) : Bool := 32 ≤ c.toNat && c.toNat ≤ 126

/-- A string in an array, up to its terminating byte. -/
def cString : Bytes → Option Bytes
  | [] => none
  | c :: array => if c = 0 then some [] else (cString array).map (c :: ·)

def isdigit (c : Byte) : Bool := 48 ≤ c.toNat && c.toNat ≤ 57

def isspace (c : Byte) : Bool := c = 32 || (9 ≤ c.toNat && c.toNat ≤ 13)

/-- The number that some digits make up. -/
def decimal (digits : Bytes) : Nat := digits.foldl (fun n c => 10 * n + (c.toNat - 48)) 0

/-- `atol`, whose result is the nearest `long`. -/
def atol (str : Bytes) : Int :=
  let str := str.dropWhile isspace
  let (negative, str) := match str with
    | 45 :: digits => (true, digits)
    | 43 :: digits => (false, digits)
    | digits => (false, digits)
  let n := decimal (str.takeWhile isdigit)
  if negative then max (-2147483648) (-(n : Int)) else min 2147483647 (n : Int)

/-- The copying loop of `enet_http_cpy_session`, with `left` bytes of the target left. -/
def cpyLoop (src : Bytes) (needle : Byte) : Nat → Nat → Bytes → Nat → Option (Status × Nat × Bytes × Nat)
  | 0, j, des, offset => some (.ok, j, des, offset)
  | left + 1, j, des, offset => do
      let c ← src[offset]?
      if c = needle then return (.ok, j, des, offset)
      else if isprint c then
        if j < des.length then cpyLoop src needle left (j + 1) (des.set j c) (offset + 1) else none
      else if c = 13 ∨ c = 10 then cpyLoop src needle left (j + 1) des (offset + 1)
      else return (.dataCorrupt, j, des, offset)

/-- The second loop, which goes on where the needle is. -/
def skipLoop (src : Bytes) (needle : Byte) : Nat → Nat → Option Nat
  | 0, offset => some offset
  | left + 1, offset => do
      let c ← src[offset]?
      if c = needle then skipLoop src needle left (offset + 1) else return offset

/-- `enet_http_cpy_session`: the status, what is in `des`, and the offset. -/
def cpySession (des : Bytes) (desLen : Nat) (src : Bytes) (srcLen offset : Nat) (needle : Byte) :
    Option (Status × Bytes × Nat) := do
  let (rc, j, des, offset) ← cpyLoop src needle desLen 0 des offset
  if rc ≠ .ok then return (rc, des, offset)
  else if j = desLen then do
    let c ← src[offset]?
    let offset ← if c ≠ needle then skipLoop src needle (srcLen - offset) offset else some offset
    return (.ok, des, offset + 1)
  else return (.ok, des, offset + 1)

/-- `enet_http_response_t`. -/
structure Response where
  version : Bytes
  statusStr : Bytes
  status : Int
  resDes : Bytes
  headers : List Header
  body : Option Bytes
  bodySize : Int
  deriving DecidableEq, Repr

/-- A response that `calloc` made. -/
def Response.new : Response :=
  ⟨List.replicate 10 0, List.replicate 10 0, 0, List.replicate 64 0, [], none, 0⟩

/-- The three calls in `enet_http_parse_response`. -/
def parseStatusLine (src : Bytes) (srcLen : Nat) : Option (Status × Response × Nat) := do
  let response := Response.new
  let (rc, version, i) ← cpySession response.version 9 src srcLen 0 32
  let response := { response with version }
  if rc ≠ .ok then return (rc, response, i)
  else do
    let (rc, statusStr, i) ← cpySession response.statusStr 9 src srcLen i 32
    let response := { response with statusStr }
    if rc ≠ .ok then return (rc, response, i)
    else do
      let digits ← cString response.statusStr
      let response := { response with status := atol digits }
      let (rc, resDes, i) ← cpySession response.resDes 63 src srcLen i 10
      return (rc, { response with resDes }, i)

/-- What the loop passes over besides the needle. -/
def Passes (c : Byte) : Prop := isprint c = true ∨ c = 13 ∨ c = 10

instance (c : Byte) : Decidable (Passes c) := inferInstanceAs (Decidable (_ ∨ _))

/-- The array after the loop has passed over a field. -/
def stored : Bytes → Nat → Bytes → Bytes
  | des, _, [] => des
  | des, j, c :: field => stored (if isprint c = true then des.set j c else des) (j + 1) field

section Sessions

variable {front field rest des : Bytes} {needle d : Byte} {left j desLen srcLen : Nat}

@[simp] theorem length_stored (des : Bytes) (j : Nat) (field : Bytes) : (stored des j field).length = des.length := by
  induction field generalizing des j with
  | nil => rfl
  | cons c field ih =>
      rw [stored, ih]
      split
      · exact List.length_set
      · rfl

theorem getElem?_front (front : Bytes) (d : Byte) (rest : Bytes) : (front ++ d :: rest)[front.length]? = some d := by
  rw [List.getElem?_append_right (Nat.le_refl _), Nat.sub_self]
  rfl

private theorem cpyLoop_field (passes : ∀ c ∈ field, c ≠ needle ∧ Passes c) (fits : j + field.length ≤ des.length) :
    cpyLoop (front ++ (field ++ rest)) needle (field.length + left) j des front.length =
      cpyLoop (front ++ (field ++ rest)) needle left (j + field.length) (stored des j field)
        (front.length + field.length) := by
  induction field generalizing front j des with
  | nil => simp [stored]
  | cons c field ih =>
      obtain ⟨⟨differs, passed⟩, others⟩ := List.forall_mem_cons.mp passes
      simp only [List.length_cons] at fits
      have steps : (c :: field).length + left = field.length + left + 1 := by
        simp only [List.length_cons]
        omega
      have room : j + 1 + field.length ≤ (if isprint c = true then des.set j c else des).length := by
        split
        · rw [List.length_set]
          omega
        · omega
      have next : cpyLoop (front ++ [c] ++ (field ++ rest)) needle (field.length + left) (j + 1)
          (if isprint c = true then des.set j c else des) (front ++ [c]).length = _ := ih others room
      rw [List.append_assoc, List.singleton_append, List.length_append, List.length_singleton] at next
      rw [steps, cpyLoop, List.cons_append, getElem?_front, Option.bind_eq_bind, Option.bind_some, if_neg differs]
      have later : j + 1 + field.length = j + (c :: field).length ∧
          front.length + 1 + field.length = front.length + (c :: field).length := by
        simp only [List.length_cons]
        omega
      rw [later.1, later.2] at next
      cases printable : isprint c with
      | true =>
          rw [if_pos rfl, if_pos (by omega), stored, printable]
          rwa [printable] at next
      | false =>
          have ending : c = 13 ∨ c = 10 := passed.resolve_left (by simp [printable])
          rw [if_neg Bool.false_ne_true, if_pos ending, stored, printable]
          rwa [printable] at next

private theorem cpyLoop_start (front rest : Bytes) (left : Nat) (passes : ∀ c ∈ field, c ≠ needle ∧ Passes c)
    (room : field.length ≤ des.length) :
    cpyLoop (front ++ (field ++ rest)) needle (field.length + left) 0 des front.length =
      cpyLoop (front ++ (field ++ rest)) needle left field.length (stored des 0 field)
        (front.length + field.length) := by
  rw [cpyLoop_field passes (by rwa [Nat.zero_add]), Nat.zero_add]

private theorem getElem?_front_field (front field : Bytes) (d : Byte) (rest : Bytes) :
    (front ++ (field ++ d :: rest))[front.length + field.length]? = some d := by
  rw [← List.append_assoc, ← List.length_append]
  exact getElem?_front _ d rest

/-- A field ends at the needle, or where the target is full. The byte behind it is left out either way. -/
theorem cpySession_ends (passes : ∀ c ∈ field, c ≠ needle ∧ Passes c) (room : field.length ≤ des.length)
    (ends : d = needle ∧ field.length ≤ desLen ∨ field.length = desLen) :
    cpySession des desLen (front ++ (field ++ d :: rest)) srcLen front.length needle =
      some (.ok, stored des 0 field, front.length + field.length + 1) := by
  have fits : field.length ≤ desLen := ends.elim And.right Nat.le_of_eq
  obtain ⟨left, rfl⟩ := Nat.exists_eq_add_of_le fits
  have loop := cpyLoop_start front (d :: rest) left passes room
  have here := getElem?_front_field front field d rest
  rw [cpySession, loop]
  cases left with
  | zero =>
      simp only [cpyLoop, here, Nat.add_zero, Option.bind_eq_bind, Option.bind_some, if_true, ne_eq, not_true_eq_false,
        if_false]
      by_cases same : d = needle
      · rw [if_neg (not_not.mpr same)]
        rfl
      · have skips : skipLoop (front ++ (field ++ d :: rest)) needle (srcLen - (front.length + field.length))
            (front.length + field.length) = some (front.length + field.length) := by
          cases srcLen - (front.length + field.length) with
          | zero => rfl
          | succ left =>
              rw [skipLoop, here, Option.bind_eq_bind, Option.bind_some, if_neg same]
              rfl
        rw [if_pos same, skips]
        rfl
  | succ left =>
      have same : d = needle := (ends.resolve_right (by omega)).1
      have early : field.length ≠ field.length + (left + 1) := by omega
      simp only [cpyLoop, here, Option.bind_eq_bind, Option.bind_some, if_pos same, if_neg early, Option.pure_def,
        ne_eq, not_true_eq_false, if_false]

/-- Any other byte inside the target is refused. -/
theorem cpySession_refuses (passes : ∀ c ∈ field, c ≠ needle ∧ Passes c) (room : field.length ≤ des.length)
    (short : field.length < desLen) (differs : d ≠ needle) (strange : ¬ Passes d) :
    cpySession des desLen (front ++ (field ++ d :: rest)) srcLen front.length needle =
      some (.dataCorrupt, stored des 0 field, front.length + field.length) := by
  obtain ⟨left, rfl⟩ := Nat.exists_eq_add_of_lt short
  have loop := cpyLoop_start front (d :: rest) (left + 1) passes room
  have here := getElem?_front_field front field d rest
  simp only [Passes, not_or] at strange
  have refused : ¬ isprint d = true ∧ ¬ (d = 13 ∨ d = 10) := ⟨strange.1, not_or.mpr strange.2⟩
  rw [cpySession, Nat.add_assoc, loop]
  simp only [cpyLoop, here, Option.bind_eq_bind, Option.bind_some, if_neg differs, if_neg refused.1, if_neg refused.2,
    Option.pure_def, ne_eq, reduceCtorEq, not_false_eq_true, if_true]

theorem cpySession_faults (passes : ∀ c ∈ field, c ≠ needle ∧ Passes c) (room : field.length ≤ des.length)
    (fits : field.length ≤ desLen) :
    cpySession des desLen (front ++ field) srcLen front.length needle = none := by
  obtain ⟨left, rfl⟩ := Nat.exists_eq_add_of_le fits
  have loop := cpyLoop_start front [] left passes room
  have behind : (front ++ field)[front.length + field.length]? = none :=
    List.getElem?_eq_none (Nat.le_of_eq List.length_append)
  rw [List.append_nil] at loop
  rw [cpySession, loop]
  cases left with
  | zero =>
      simp only [cpyLoop, behind, Nat.add_zero, Option.bind_eq_bind, Option.bind_some, Option.bind_none, ne_eq,
        not_true_eq_false, if_true, if_false]
  | succ left => simp only [cpyLoop, behind, Option.bind_eq_bind, Option.bind_none]

/-- A field that is too long is cut, and one more byte of it is left out. -/
theorem cpySession_cut (passes : ∀ c ∈ field, c ≠ needle ∧ Passes c) (room : desLen ≤ des.length)
    (long : desLen < field.length) (rest : Bytes) :
    cpySession des desLen (front ++ (field ++ rest)) srcLen front.length needle =
      some (.ok, stored des 0 (field.take desLen), front.length + desLen + 1) := by
  have cut : field.take desLen ++ field[desLen] :: (field.drop (desLen + 1) ++ rest) = field ++ rest := by
    rw [← List.cons_append, ← List.drop_eq_getElem_cons, ← List.append_assoc, List.take_append_drop]
  have length : (field.take desLen).length = desLen := List.length_take_of_le (Nat.le_of_lt long)
  have session : cpySession des desLen (front ++ (field.take desLen ++ field[desLen] :: (field.drop (desLen + 1) ++ rest)))
      srcLen front.length needle = _ :=
    cpySession_ends (fun c member => passes c (List.mem_of_mem_take member)) (by rwa [length]) (.inr length)
  rwa [cut, length] at session

end Sessions

/-- An array that starts with a string, and is zero behind it. -/
def padded (size : Nat) (field : Bytes) : Bytes := field ++ List.replicate (size - field.length) 0

section Padded

variable {field front : Bytes} {size : Nat}

private theorem stored_zeros (printable : ∀ c ∈ field, isprint c = true) (fits : field.length ≤ size) :
    stored (front ++ List.replicate size 0) front.length field = front ++ padded size field := by
  induction field generalizing front size with
  | nil => rfl
  | cons c field ih =>
      obtain ⟨here, others⟩ := List.forall_mem_cons.mp printable
      obtain ⟨size, rfl⟩ := Nat.exists_eq_add_of_le' (Nat.le_trans (Nat.le_add_left 1 _) fits)
      have less : field.length ≤ size := Nat.le_of_succ_le_succ fits
      have set : (front ++ List.replicate (size + 1) 0).set front.length c = front ++ [c] ++ List.replicate size 0 := by
        rw [List.set_append_right _ _ (Nat.le_refl _), Nat.sub_self, List.replicate_succ, List.set_cons_zero,
          List.append_assoc, List.singleton_append]
      have next : stored (front ++ [c] ++ List.replicate size 0) (front ++ [c]).length field = _ := ih others less
      rw [stored, if_pos here, set]
      rw [List.length_append, List.length_singleton] at next
      rw [next, padded, padded, List.length_cons, Nat.add_sub_add_right, List.append_assoc, List.singleton_append,
        List.cons_append]

private theorem stored_new (printable : ∀ c ∈ field, isprint c = true) (fits : field.length ≤ size) :
    stored (List.replicate size 0) 0 field = padded size field := by
  have stores : stored ([] ++ List.replicate size 0) ([] : Bytes).length field = _ := stored_zeros printable fits
  rwa [List.nil_append, List.nil_append] at stores

private theorem stored_snoc (des : Bytes) (j : Nat) (field : Bytes) {c : Byte} (strange : isprint c = false) :
    stored des j (field ++ [c]) = stored des j field := by
  induction field generalizing des j with
  | nil => simp [stored, strange]
  | cons d field ih => rw [List.cons_append, stored, ih, stored]

theorem cString_padded (good : 0 ∉ field) (fits : field.length < size) : cString (padded size field) = some field := by
  induction field generalizing size with
  | nil =>
      obtain ⟨size, rfl⟩ := Nat.exists_eq_add_of_le' fits
      rfl
  | cons c field ih =>
      obtain ⟨size, rfl⟩ := Nat.exists_eq_add_of_le' (Nat.le_of_lt (Nat.lt_of_le_of_lt (Nat.le_add_left 1 _) fits))
      rw [List.mem_cons, not_or] at good
      have rest := ih good.2 (Nat.lt_of_succ_lt_succ fits)
      rw [padded] at rest ⊢
      rw [List.length_cons, Nat.add_sub_add_right, List.cons_append, cString, if_neg (Ne.symm good.1), rest,
        Option.map_some]

private theorem takeWhile_padded (good : 0 ∉ field) (size : Nat) : (padded size field).takeWhile (· ≠ 0) = field := by
  have zeros : (List.replicate (size - field.length) (0 : Byte)).takeWhile (· ≠ 0) = [] := by
    cases size - field.length with
    | zero => rfl
    | succ n => rfl
  rw [padded, List.takeWhile_append_of_pos, zeros, List.append_nil]
  intro c member
  exact decide_eq_true fun zero => good (zero ▸ member)

theorem padded_inj {other : Bytes} (good : 0 ∉ field) (otherGood : 0 ∉ other)
    (same : padded size field = padded size other) : field = other := by
  rw [← takeWhile_padded good size, same, takeWhile_padded otherGood]

private theorem noNul_of_printable (printable : ∀ c ∈ field, isprint c = true) : 0 ∉ field :=
  fun member => absurd (printable 0 member) (by decide)

private theorem noNul_take {n : Nat} (printable : ∀ c ∈ field, isprint c = true) : 0 ∉ field.take n :=
  fun member => noNul_of_printable printable (List.mem_of_mem_take member)

end Padded

/-- The fields of a status line. -/
structure StatusLine where
  version : Bytes
  code : Bytes
  reason : Bytes
  plainVersion : ∀ c ∈ version, isprint c = true ∧ c ≠ 32
  plainCode : ∀ c ∈ code, isprint c = true ∧ c ≠ 32
  plainReason : ∀ c ∈ reason, isprint c = true

def StatusLine.text (line : StatusLine) : Bytes :=
  line.version ++ 32 :: (line.code ++ 32 :: (line.reason ++ [13, 10]))

/-- The fields are stored as far as they fit, and the offset is behind the line. -/
structure Copied (line : StatusLine) (response : Response) (offset : Nat) : Prop where
  version : response.version = padded 10 (line.version.take 9)
  statusStr : response.statusStr = padded 10 (line.code.take 9)
  resDes : response.resDes = padded 64 (line.reason.take 63)
  offset : offset = line.text.length

section Lines

variable {front word words rest : Bytes} {srcLen : Nat}

/-- What is left behind a word, of which nine bytes and one more are read at most. -/
def afterWord (word rest : Bytes) : Bytes := if word.length ≤ 9 then rest else word.drop 10 ++ 32 :: rest

private theorem cpySession_word (plain : ∀ c ∈ word, isprint c = true ∧ c ≠ 32) (front rest : Bytes) (srcLen : Nat) :
    ∃ read, front ++ (word ++ 32 :: rest) = read ++ afterWord word rest ∧
      cpySession (List.replicate 10 0) 9 (front ++ (word ++ 32 :: rest)) srcLen front.length 32 =
        some (.ok, padded 10 (word.take 9), read.length) := by
  have passes : ∀ c ∈ word, c ≠ 32 ∧ Passes c := fun c member => ⟨(plain c member).2, .inl (plain c member).1⟩
  have fits : (word.take 9).length ≤ 10 := Nat.le_trans (List.length_take_le 9 word) (Nat.le_succ 9)
  have stores : stored (List.replicate 10 0) 0 (word.take 9) = padded 10 (word.take 9) :=
    stored_new (fun c member => (plain c (List.mem_of_mem_take member)).1) fits
  by_cases short : word.length ≤ 9
  · refine ⟨front ++ word ++ [32], ?_, ?_⟩
    · rw [afterWord, if_pos short, List.append_assoc, List.append_assoc, List.singleton_append]
    · have room : word.length ≤ (List.replicate 10 (0 : Byte)).length := Nat.le_succ_of_le short
      rw [← stores, List.take_of_length_le short, cpySession_ends passes room (.inl ⟨rfl, short⟩)]
      simp only [List.length_append, List.length_singleton]
  · have long : 9 < word.length := Nat.lt_of_not_le short
    refine ⟨front ++ word.take 10, ?_, ?_⟩
    · rw [afterWord, if_neg short, List.append_assoc, ← List.append_assoc (word.take 10), List.take_append_drop]
    · rw [← stores, cpySession_cut passes (by rw [List.length_replicate]; decide) long, List.length_append,
        List.length_take_of_le long]

private theorem cpySession_reason (plain : ∀ c ∈ words, isprint c = true) (front rest : Bytes) (srcLen : Nat) :
    cpySession (List.replicate 64 0) 63 (front ++ (words ++ 13 :: 10 :: rest)) srcLen front.length 10 =
      some (.ok, padded 64 (words.take 63), front.length + (if words.length ≤ 62 then words.length + 2 else 64)) := by
  have passes : ∀ c ∈ words ++ [13], c ≠ 10 ∧ Passes c := by
    intro c member
    rcases List.mem_append.mp member with inWords | here
    · refine ⟨?_, .inl (plain c inWords)⟩
      rintro rfl
      exact absurd (plain _ inWords) (by decide)
    · obtain rfl := List.mem_singleton.mp here
      exact ⟨by decide, .inr (.inl rfl)⟩
  have fits : (words.take 63).length ≤ 64 := Nat.le_trans (List.length_take_le 63 words) (Nat.le_succ 63)
  have stores : stored (List.replicate 64 0) 0 (words.take 63) = padded 64 (words.take 63) :=
    stored_new (fun c member => plain c (List.mem_of_mem_take member)) fits
  have text : words ++ 13 :: 10 :: rest = words ++ [13] ++ 10 :: rest := by
    rw [List.append_assoc, List.singleton_append]
  have length : (words ++ [13]).length = words.length + 1 := by rw [List.length_append, List.length_singleton]
  rw [text]
  by_cases short : words.length ≤ 62
  · have room : (words ++ [13]).length ≤ 63 := by omega
    have fits : (words ++ [13]).length ≤ (List.replicate 64 (0 : Byte)).length := Nat.le_succ_of_le room
    rw [cpySession_ends passes fits (.inl ⟨rfl, room⟩), if_pos short, stored_snoc _ _ _ (by decide), ← stores,
      List.take_of_length_le (Nat.le_succ_of_le short), length]
    rfl
  · have long : 63 < (words ++ [13]).length := by omega
    have taken : (words ++ [13]).take 63 = words.take 63 := List.take_append_of_le_length (by omega)
    rw [cpySession_cut passes (by rw [List.length_replicate]; decide) long, taken, stores, if_neg short]

theorem parseStatusLine_apply {src version statusStr digits resDes : Bytes} {i j k : Nat}
    (first : cpySession (List.replicate 10 0) 9 src srcLen 0 32 = some (.ok, version, i))
    (second : cpySession (List.replicate 10 0) 9 src srcLen i 32 = some (.ok, statusStr, j))
    (number : cString statusStr = some digits)
    (third : cpySession (List.replicate 64 0) 63 src srcLen j 10 = some (.ok, resDes, k)) :
    parseStatusLine src srcLen = some (.ok, ⟨version, statusStr, atol digits, resDes, [], none, 0⟩, k) := by
  simp only [parseStatusLine, Response.new, first, second, number, third, Option.bind_eq_bind, Option.bind_some, ne_eq,
    not_true_eq_false, if_false, Option.pure_def]

theorem printable_words (plainWord : ∀ c ∈ word, isprint c = true) (plainWords : ∀ c ∈ words, isprint c = true) :
    ∀ c ∈ word ++ 32 :: words, isprint c = true := by
  intro c member
  rcases List.mem_append.mp member with inWord | inRest
  · exact plainWord c inWord
  · rcases List.mem_cons.mp inRest with rfl | inWords
    · decide
    · exact plainWords c inWords

/-- The second word and what is read as the reason, wherever the first call left off. -/
theorem parseStatusLine_word {src version read tail : Bytes}
    (first : cpySession (List.replicate 10 0) 9 src srcLen 0 32 = some (.ok, version, read.length))
    (left : src = read ++ (word ++ 32 :: (tail ++ 13 :: 10 :: rest)))
    (plainWord : ∀ c ∈ word, isprint c = true ∧ c ≠ 32) (plainTail : ∀ c ∈ tail, isprint c = true) :
    ∃ words : Bytes, ∃ start, (∀ c ∈ words, isprint c = true) ∧
      start + words.length = read.length + word.length + 1 + tail.length ∧
      parseStatusLine src srcLen = some (.ok,
        ⟨version, padded 10 (word.take 9), atol (word.take 9), padded 64 (words.take 63), [], none, 0⟩,
        start + if words.length ≤ 62 then words.length + 2 else 64) ∧
      (if word.length ≤ 9 then words = tail else tail.length < words.length) := by
  subst left
  obtain ⟨passed, split, second⟩ := cpySession_word plainWord read (tail ++ 13 :: 10 :: rest) srcLen
  have plainTaken : ∀ c ∈ word.take 9, isprint c = true :=
    fun c member => (plainWord c (List.mem_of_mem_take member)).1
  have number : cString (padded 10 (word.take 9)) = some (word.take 9) :=
    cString_padded (noNul_of_printable plainTaken) (Nat.lt_succ_of_le (List.length_take_le 9 word))
  have lengths := congrArg List.length split
  by_cases short : word.length ≤ 9
  · rw [afterWord, if_pos short] at split lengths
    have third := cpySession_reason plainTail passed rest srcLen
    rw [← split] at third
    refine ⟨tail, passed.length, plainTail, ?_, parseStatusLine_apply first second number third, ?_⟩
    · simp only [List.length_append, List.length_cons] at lengths
      omega
    · rw [if_pos short]
  · rw [afterWord, if_neg short] at split lengths
    have plain : ∀ c ∈ word.drop 10 ++ 32 :: tail, isprint c = true :=
      printable_words (fun c member => (plainWord c (List.mem_of_mem_drop member)).1) plainTail
    have third := cpySession_reason plain passed rest srcLen
    rw [List.append_assoc, List.cons_append, ← split] at third
    refine ⟨_, passed.length, plain, ?_, parseStatusLine_apply first second number third, ?_⟩
    · simp only [List.length_append, List.length_cons] at lengths ⊢
      omega
    · rw [if_neg short, List.length_append, List.length_cons]
      omega

/-- What is read as the reason: more than the reason, unless the other fields fit. -/
theorem parseStatusLine_eq (line : StatusLine) (block : Bytes) (srcLen : Nat) :
    ∃ words statusStr : Bytes, ∃ start, (∀ c ∈ words, isprint c = true) ∧ start + words.length + 2 = line.text.length ∧
      parseStatusLine (line.text ++ block) srcLen = some (.ok,
        ⟨padded 10 (line.version.take 9), padded 10 (statusStr.take 9), atol (statusStr.take 9),
          padded 64 (words.take 63), [], none, 0⟩,
        start + if words.length ≤ 62 then words.length + 2 else 64) ∧
      (if line.version.length ≤ 9 ∧ line.code.length ≤ 9 then words = line.reason ∧ statusStr = line.code
        else line.reason.length < words.length) := by
  obtain ⟨version, code, reason, plainVersion, plainCode, plainReason⟩ := line
  have text : StatusLine.text ⟨version, code, reason, plainVersion, plainCode, plainReason⟩ ++ block =
      version ++ 32 :: (code ++ 32 :: (reason ++ 13 :: 10 :: block)) := by simp [StatusLine.text]
  have size : (StatusLine.text ⟨version, code, reason, plainVersion, plainCode, plainReason⟩).length =
      version.length + 1 + code.length + 1 + reason.length + 2 := by
    simp only [StatusLine.text, List.length_append, List.length_cons, List.length_nil]
    omega
  obtain ⟨read, split, first⟩ := cpySession_word plainVersion [] (code ++ 32 :: (reason ++ 13 :: 10 :: block)) srcLen
  rw [List.nil_append] at split first
  have lengths := congrArg List.length split
  rw [text, size]
  by_cases short : version.length ≤ 9
  · rw [afterWord, if_pos short] at split lengths
    obtain ⟨words, start, plain, ends, parses, exactly⟩ := parseStatusLine_word first split plainCode plainReason
    refine ⟨words, code, start, plain, ?_, parses, ?_⟩
    · simp only [List.length_append, List.length_cons] at lengths
      omega
    · by_cases shortCode : code.length ≤ 9
      · rw [if_pos ⟨short, shortCode⟩]
        rw [if_pos shortCode] at exactly
        exact ⟨exactly, rfl⟩
      · rw [if_neg fun both => shortCode both.2]
        rwa [if_neg shortCode] at exactly
  · rw [afterWord, if_neg short] at split lengths
    have plainWord : ∀ c ∈ version.drop 10, isprint c = true ∧ c ≠ 32 :=
      fun c member => plainVersion c (List.mem_of_mem_drop member)
    have plainTail : ∀ c ∈ code ++ 32 :: reason, isprint c = true :=
      printable_words (fun c member => (plainCode c member).1) plainReason
    have same : version ++ 32 :: (code ++ 32 :: (reason ++ 13 :: 10 :: block)) =
        read ++ (version.drop 10 ++ 32 :: (code ++ 32 :: reason ++ 13 :: 10 :: block)) := by simpa using split
    obtain ⟨words, start, plain, ends, parses, exactly⟩ := parseStatusLine_word first same plainWord plainTail
    refine ⟨words, version.drop 10, start, plain, ?_, parses, ?_⟩
    · simp only [List.length_append, List.length_cons] at lengths ends
      omega
    · have more : reason.length < (code ++ 32 :: reason).length := by
        rw [List.length_append, List.length_cons]
        omega
      rw [if_neg fun both => short both.1]
      split at exactly
      · rwa [exactly]
      · exact Nat.lt_trans more exactly

/-- The line is copied, and its end found, exactly if no field is too long. -/
theorem copied_iff (line : StatusLine) (block : Bytes) (srcLen : Nat) :
    (∃ response offset, parseStatusLine (line.text ++ block) srcLen = some (.ok, response, offset) ∧
      Copied line response offset) ↔
    line.version.length ≤ 9 ∧ line.code.length ≤ 9 ∧ line.reason.length ≤ 62 := by
  obtain ⟨words, statusStr, start, printable, length, parses, exactly⟩ := parseStatusLine_eq line block srcLen
  constructor
  · intro ⟨response, offset, same, copied⟩
    cases parses.symm.trans same
    have ends : start + (if words.length ≤ 62 then words.length + 2 else 64) = line.text.length := copied.offset
    have short : words.length ≤ 62 := by
      by_contra long
      rw [if_neg long] at ends
      omega
    have lengths : (words.take 63).length = (line.reason.take 63).length :=
      congrArg List.length (padded_inj (noNul_take printable) (noNul_take line.plainReason) copied.resDes)
    rw [List.length_take, List.length_take] at lengths
    have fits : line.version.length ≤ 9 ∧ line.code.length ≤ 9 := by
      by_contra long
      rw [if_neg long] at exactly
      omega
    omega
  · intro ⟨shortVersion, shortCode, shortReason⟩
    rw [if_pos ⟨shortVersion, shortCode⟩] at exactly
    obtain ⟨rfl, rfl⟩ := exactly
    refine ⟨_, _, parses, rfl, rfl, rfl, ?_⟩
    rw [if_pos shortReason]
    omega

end Lines

/-- `HTTP/1.1 200` and a reason of `63` characters. -/
def longLine : StatusLine :=
  ⟨[72, 84, 84, 80, 47, 49, 46, 49], [50, 48, 48], List.replicate 63 97, by decide, by decide, by decide⟩

/-- The headers are read from the line feed on. -/
theorem longLine_not_copied : ¬ ∃ response offset,
    parseStatusLine (longLine.text ++ [0]) longLine.text.length = some (.ok, response, offset) ∧
      Copied longLine response offset := by
  intro ⟨response, offset, parses, copied⟩
  have ends : (parseStatusLine (longLine.text ++ [0]) longLine.text.length).map (·.2.2) =
      some (longLine.text.length - 1) := by decide +kernel
  rw [parses, Option.map_some, copied.offset] at ends
  have length : longLine.text.length ≠ longLine.text.length - 1 := by decide
  exact length (Option.some.inj ends)

end GbfLibrary.Enet.Http
