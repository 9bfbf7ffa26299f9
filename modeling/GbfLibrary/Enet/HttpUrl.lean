import GbfLibrary.Enet.HttpFields
import GbfLibrary.Enet.HttpObject
import GbfLibrary.Memory.Occurrence

/-!
# URLs

`enet_http_load_url` and `enet_name_to_ip` of `enet_tools.c`.
-/

set_option autoImplicit false

namespace GbfLibrary.Enet.Http

open Memory

/-- `gethostbyname`: the addresses of a name, each of four bytes. -/
abbrev Resolver := Bytes → Option (List (BitVec 32))

/-- `enet_name_to_ip`, whose loop copies one address over another. -/
def nameToIp (gethostbyname : Resolver) (name : Bytes) : BitVec 32 :=
  if name = [] then 0
  else
    match gethostbyname name with
    | none => 0
    | some addrList => addrList.foldl (fun _ ip => ip) 0

/-- The scheme. -/
def http : Bytes := [104, 116, 116, 112]

def escapeScheme (p : Bytes) : Bytes := if http.isPrefixOf p then p.drop 4 else p

def isSeparator (c : Byte) : Bool := c = 58 || c = 47

def isSlash (c : Byte) : Bool := c = 47

/-- The loops that copy the name and the port into an array, from its index `j` on. -/
def copyUntil (stop : Byte → Bool) (array : Bytes) : Nat → Bytes → Option (Bytes × Bytes)
  | _, [] => some (array, [])
  | j, c :: p =>
      if stop c = true then some (array, c :: p)
      else if j < array.length then copyUntil stop (array.set j c) (j + 1) p
      else none

/-- A copy into an array of zeros, and the string that `strlen`, `strcpy` and `atol` find there. -/
def copyString (stop : Byte → Bool) (size : Nat) (p : Bytes) : Option (Bytes × Bytes) := do
  let (array, p) ← copyUntil stop (List.replicate size 0) 0 p
  let str ← cString array
  return (str, p)

/-- The part of `enet_http_load_url` behind the name: the port as a string and as a number, and what is left. -/
def copyPort : Bytes → Option (Bytes × Int × Bytes)
  | 58 :: p => do
      let (port, p) ← copyString isSlash 32 p
      return (port, atol port, p)
  | p => some ([], 80, p)

/-- `enet_http_load_url`. The old `url` and `uri` are freed, but not the old `host`. -/
def loadUrl (malloc : Malloc) (gethostbyname : Resolver) (url : Bytes) (obj : HttpObj) :
    Option (Status × HttpObj) :=
  let len := url.length % 4294967296
  let block : Buffer := Buffer.alloc ((len + 1) % 4294967296)
  let obj := { obj with
    url := if malloc 0 = true then some block else none
    uri := if malloc 1 = true then some block else none }
  if malloc 0 = false ∨ malloc 1 = false then some (.noMemory, obj)
  else do
    let _ ← block.strcpy url
    let lowered := lowercase url len
    let p := (escapeScheme lowered).dropWhile isSeparator
    let (www, p) ← copyString isSeparator 512 p
    let (port, number, p) ← copyPort p
    let obj := { obj with url := some (block.filled (lowered ++ [0])), port := number }
    if malloc 2 = false then return (.noMemory, { obj with url := none, uri := none, host := none })
    else do
      let uri ← block.strcpy p
      let host ← (Buffer.alloc (www.length + 2 + port.length)).strcpy (www ++ 58 :: port)
      return (.ok, { obj with uri := some uri, host := some host, addr := nameToIp gethostbyname www })

section Copying

variable {stop : Byte → Bool} {front p : Bytes} {n : Nat}

private theorem copyUntil_zeros (stop : Byte → Bool) (front p : Bytes) (n : Nat) :
    copyUntil stop (front ++ List.replicate n 0) front.length p =
      if (p.takeWhile (!stop ·)).length ≤ n then
        some (front ++ padded n (p.takeWhile (!stop ·)), p.dropWhile (!stop ·))
      else none := by
  induction p generalizing front n with
  | nil => simp [copyUntil, padded]
  | cons c p ih =>
      rw [copyUntil]
      by_cases stops : stop c = true
      · simp [stops, padded]
      · have goes : (!stop c) = true := by simpa using stops
        rw [if_neg stops, List.takeWhile_cons, List.dropWhile_cons, if_pos goes, if_pos goes, List.length_cons]
        cases n with
        | zero => simp
        | succ n =>
            have stored : (front ++ List.replicate (n + 1) 0).set front.length c = front ++ [c] ++ List.replicate n 0 := by
              rw [List.set_append_right _ _ (Nat.le_refl _), Nat.sub_self, List.replicate_succ, List.set_cons_zero,
                List.append_assoc, List.singleton_append]
            have next := ih (front ++ [c]) n
            rw [List.length_append, List.length_singleton] at next
            have inside : front.length < (front ++ List.replicate (n + 1) (0 : Byte)).length := by simp
            have same : front ++ [c] ++ padded n (p.takeWhile (!stop ·)) =
                front ++ padded (n + 1) (c :: p.takeWhile (!stop ·)) := by
              simp [padded]
            rw [if_pos inside, stored, next, same]
            simp only [Nat.add_le_add_iff_right]

private theorem copyUntil_new (stop : Byte → Bool) (p : Bytes) (n : Nat) :
    copyUntil stop (List.replicate n 0) 0 p =
      if (p.takeWhile (!stop ·)).length ≤ n then
        some (padded n (p.takeWhile (!stop ·)), p.dropWhile (!stop ·))
      else none :=
  copyUntil_zeros stop [] p n

private theorem cString_eq_none {array : Bytes} (good : 0 ∉ array) : cString array = none := by
  induction array with
  | nil => rfl
  | cons c array ih =>
      rw [List.mem_cons, not_or] at good
      rw [cString, if_neg (Ne.symm good.1), ih good.2, Option.map_none]

/-- A string needs room for the byte that terminates it. -/
theorem copyString_eq (good : 0 ∉ p) (stop : Byte → Bool) (n : Nat) : copyString stop n p =
    if (p.takeWhile (!stop ·)).length < n then some (p.takeWhile (!stop ·), p.dropWhile (!stop ·)) else none := by
  have noNul : 0 ∉ p.takeWhile (!stop ·) := fun member => good ((List.takeWhile_prefix _).subset member)
  rw [copyString, copyUntil_new]
  rcases Nat.lt_trichotomy (p.takeWhile (!stop ·)).length n with less | exact' | more
  · rw [if_pos less.le, if_pos less, Option.bind_eq_bind, Option.bind_some]
    dsimp only
    rw [cString_padded noNul less]
    rfl
  · have full : padded n (p.takeWhile (!stop ·)) = p.takeWhile (!stop ·) := by
      rw [padded, exact', Nat.sub_self, List.replicate_zero, List.append_nil]
    rw [if_pos exact'.le, if_neg exact'.not_lt, Option.bind_eq_bind, Option.bind_some, full]
    dsimp only
    rw [cString_eq_none noNul]
    rfl
  · rw [if_neg more.not_ge, if_neg more.not_gt]
    rfl

/-- A field up to something that stops the copy. -/
theorem copied {field rest : Bytes} (goes : ∀ c ∈ field, stop c = false) (ends : ∀ c ∈ rest.head?, stop c = true) :
    (field ++ rest).takeWhile (!stop ·) = field ∧ (field ++ rest).dropWhile (!stop ·) = rest := by
  have passed : ∀ c ∈ field, (!stop c) = true := fun c member => by rw [goes c member]; rfl
  rw [List.takeWhile_append_of_pos passed, List.dropWhile_append_of_pos passed]
  cases rest with
  | nil => simp
  | cons c rest => simp [ends c rfl]

end Copying

/-- What is left of a URL at the name of the host. -/
def fromName (url : Bytes) : Bytes := (escapeScheme (url.map lower)).dropWhile isSeparator

def nameOf (p : Bytes) : Bytes := p.takeWhile (!isSeparator ·)

def afterName (p : Bytes) : Bytes := p.dropWhile (!isSeparator ·)

/-- The port behind a name. -/
def portOf : Bytes → Option Bytes
  | 58 :: p => some (p.takeWhile (!isSlash ·))
  | _ => none

/-- The path behind a name and perhaps a port. -/
def pathOf : Bytes → Bytes
  | 58 :: p => p.dropWhile (!isSlash ·)
  | p => p

section Loading

variable {gethostbyname : Resolver} {obj after : HttpObj} {url p : Bytes}

private theorem copyPort_eq (good : 0 ∉ p) : copyPort p =
    if ((portOf p).getD []).length < 32 then some ((portOf p).getD [], (portOf p).elim 80 atol, pathOf p)
    else none := by
  unfold copyPort portOf pathOf
  split
  · next p =>
    have rest : 0 ∉ p := fun member => good (List.mem_cons_of_mem _ member)
    rw [copyString_eq rest]
    simp only [Option.getD_some, Option.elim_some]
    split
    · rfl
    · rfl
  · exact (if_pos (show (0 : Nat) < 32 by decide)).symm

private theorem suffix_fromName (url : Bytes) : fromName url <:+ url.map lower := by
  refine (List.dropWhile_suffix _).trans ?_
  rw [escapeScheme]
  split
  · exact List.drop_suffix 4 _
  · exact List.suffix_refl _

/-- The URLs that fit: one that is too long for an `unsigned`, a name, or a port that does not fit its array, is
written or read outside. -/
def Fits (url : Bytes) : Prop :=
  url.length + 1 < 4294967296 ∧ (nameOf (fromName url)).length < 512 ∧
    ((portOf (afterName (fromName url))).getD []).length < 32

private theorem suffix_afterName (p : Bytes) : afterName p <:+ p := List.dropWhile_suffix _

private theorem suffix_pathOf (p : Bytes) : pathOf p <:+ p := by
  unfold pathOf
  split
  · exact (List.dropWhile_suffix _).trans (List.suffix_cons _ _)
  · exact List.suffix_refl _

/-- What an object holds of a URL. -/
structure Loaded (obj : HttpObj) (host : Bytes) (port : Int) (uri : Bytes) : Prop where
  host : textOf obj.host = some host
  port : obj.port = port
  uri : textOf obj.uri = some uri

private theorem noNul_name (good : 0 ∉ p) : 0 ∉ nameOf p :=
  fun member => good ((List.takeWhile_prefix _).subset member)

private theorem noNul_port (good : 0 ∉ p) : 0 ∉ (portOf p).getD [] := by
  unfold portOf
  split
  · next p => exact fun member => good (List.mem_cons_of_mem _ ((List.takeWhile_prefix _).subset member))
  · exact List.not_mem_nil

theorem loadUrl_apply (gethostbyname : Resolver) (obj : HttpObj) (good : 0 ∉ url) (fits : Fits url) :
    ∃ after, loadUrl (fun _ => true) gethostbyname url obj = some (.ok, after) ∧
      Loaded after (nameOf (fromName url) ++ 58 :: (portOf (afterName (fromName url))).getD [])
        ((portOf (afterName (fromName url))).elim 80 atol) (pathOf (afterName (fromName url))) := by
  obtain ⟨size, nameRoom, portRoom⟩ := fits
  have len : url.length % 4294967296 = url.length := Nat.mod_eq_of_lt (Nat.lt_of_succ_lt size)
  have goodName : 0 ∉ fromName url := fun member => noNul_lower good ((suffix_fromName url).subset member)
  have goodRest : 0 ∉ afterName (fromName url) := fun member => goodName ((suffix_afterName _).subset member)
  have goodPath : 0 ∉ pathOf (afterName (fromName url)) := fun member => goodRest ((suffix_pathOf _).subset member)
  have name : copyString isSeparator 512 (fromName url) = some (nameOf (fromName url), afterName (fromName url)) :=
    (copyString_eq goodName isSeparator 512).trans (if_pos nameRoom)
  have port := (copyPort_eq goodRest).trans (if_pos portRoom)
  have shorter : (pathOf (afterName (fromName url))).length ≤ url.length := by
    have all := ((suffix_pathOf _).trans ((suffix_afterName _).trans (suffix_fromName url))).length_le
    rwa [List.length_map] at all
  have urlStored : (Buffer.alloc (url.length + 1)).strcpy url = some _ := Buffer.strcpy_apply (by simp)
  have uriStored : (Buffer.alloc (url.length + 1)).strcpy (pathOf (afterName (fromName url))) = some _ :=
    Buffer.strcpy_apply (by simpa using Nat.lt_succ_of_le shorter)
  have hostStored : (Buffer.alloc ((nameOf (fromName url)).length + 2 +
      ((portOf (afterName (fromName url))).getD []).length)).strcpy
        (nameOf (fromName url) ++ 58 :: (portOf (afterName (fromName url))).getD []) = some _ :=
    Buffer.strcpy_apply (by
      rw [Buffer.length_alloc, List.length_append, List.length_cons]
      omega)
  have goodHost : 0 ∉ nameOf (fromName url) ++ 58 :: (portOf (afterName (fromName url))).getD [] := by
    rw [List.mem_append, List.mem_cons, not_or, not_or]
    exact ⟨noNul_name goodName, by decide, noNul_port goodRest⟩
  rw [fromName] at name port uriStored hostStored ⊢
  refine Exists.intro ?after (And.intro ?loads ?loaded)
  case loads =>
    simp only [loadUrl, len, Nat.mod_eq_of_lt size, lowercase_eq, name, port, urlStored, uriStored, hostStored,
      Bool.true_eq_false, or_self, if_false, Option.bind_eq_bind, Option.bind_some]
    rfl
  case loaded =>
    constructor
    · exact Buffer.textOf_strcpy goodHost _
    · rfl
    · exact Buffer.textOf_strcpy goodPath _

theorem loadUrl_eq_none (gethostbyname : Resolver) (obj : HttpObj) (good : 0 ∉ url) (long : ¬ Fits url) :
    loadUrl (fun _ => true) gethostbyname url obj = none := by
  have goodName : 0 ∉ fromName url := fun member => noNul_lower good ((suffix_fromName url).subset member)
  have goodRest : 0 ∉ afterName (fromName url) := fun member => goodName ((suffix_afterName _).subset member)
  by_cases size : url.length + 1 < 4294967296
  · have len : url.length % 4294967296 = url.length := Nat.mod_eq_of_lt (Nat.lt_of_succ_lt size)
    have urlStored : (Buffer.alloc (url.length + 1)).strcpy url = some _ := Buffer.strcpy_apply (by simp)
    by_cases nameRoom : (nameOf (fromName url)).length < 512
    · have name : copyString isSeparator 512 (fromName url) = some (nameOf (fromName url), afterName (fromName url)) :=
        (copyString_eq goodName isSeparator 512).trans (if_pos nameRoom)
      have port : copyPort (afterName (fromName url)) = none :=
        (copyPort_eq goodRest).trans (if_neg fun portRoom => long ⟨size, nameRoom, portRoom⟩)
      rw [fromName] at name port
      simp only [loadUrl, len, Nat.mod_eq_of_lt size, lowercase_eq, urlStored, name, port,
        Bool.true_eq_false, or_self, if_false, Option.bind_eq_bind, Option.bind_some, Option.bind_none]
    · have name : copyString isSeparator 512 (fromName url) = none :=
        (copyString_eq goodName isSeparator 512).trans (if_neg nameRoom)
      rw [fromName] at name
      simp only [loadUrl, len, Nat.mod_eq_of_lt size, lowercase_eq, urlStored, name,
        Bool.true_eq_false, or_self, if_false, Option.bind_eq_bind, Option.bind_some, Option.bind_none]
  · have urlLost : (Buffer.alloc ((url.length % 4294967296 + 1) % 4294967296)).strcpy url = none :=
      Buffer.strcpy_eq_none (by
        rw [Buffer.length_alloc]
        omega)
    simp only [loadUrl, urlLost, Bool.true_eq_false, or_self, if_false, Option.bind_eq_bind, Option.bind_none]

theorem Loaded.unique {host other uri again : Bytes} {port number : Int} (loaded : Loaded obj host port uri)
    (also' : Loaded obj other number again) : host = other ∧ port = number ∧ uri = again :=
  ⟨Option.some.inj (loaded.host.symm.trans also'.host), loaded.port.symm.trans also'.port,
    Option.some.inj (loaded.uri.symm.trans also'.uri)⟩

/-- The parts of what was taken apart are not longer than the whole. -/
theorem length_parts_le (p : Bytes) : (nameOf p).length +
    ((portOf (afterName p)).elim [] fun port => 58 :: port).length + (pathOf (afterName p)).length ≤ p.length := by
  have whole : (nameOf p).length + (afterName p).length = p.length := by
    rw [← List.length_append, nameOf, afterName, List.takeWhile_append_dropWhile]
  have rest : ((portOf (afterName p)).elim [] fun port => 58 :: port).length + (pathOf (afterName p)).length ≤
      (afterName p).length := by
    unfold portOf pathOf
    split
    · next _ q same =>
      have both := congrArg List.length (List.takeWhile_append_dropWhile (p := (!isSlash ·)) (l := q))
      rw [List.length_append] at both
      simp only [same, Option.elim_some, List.length_cons]
      omega
    · simp
  omega

end Loading

/-- A character of the name of a host. -/
def HostChar (c : Byte) : Prop := (97 ≤ c.toNat ∧ c.toNat ≤ 122) ∨ isdigit c = true ∨ c = 46 ∨ c = 45

instance (c : Byte) : Decidable (HostChar c) := inferInstanceAs (Decidable (_ ∨ _))

/-- The URLs `[http://]host[:port][path]`. -/
structure Url where
  scheme : Bool
  host : Bytes
  port : Option Bytes
  path : Bytes
  hostSize : 1 ≤ host.length ∧ host.length ≤ 511
  hostPlain : ∀ c ∈ host, HostChar c
  portDigits : ∀ digits ∈ port, ∀ c ∈ digits, isdigit c = true
  portRange : ∀ digits ∈ port, 1 ≤ decimal digits ∧ decimal digits ≤ 65535
  pathStarts : ∀ c ∈ path.head?, c = 47
  pathGood : 0 ∉ path

namespace Url

variable {url : Url} {c : Byte}

def schemeText (url : Url) : Bytes := if url.scheme = true then http ++ [58, 47, 47] else []

def portText (url : Url) : Bytes := url.port.elim [] fun digits => 58 :: digits

def text (url : Url) : Bytes := url.schemeText ++ (url.host ++ (url.portText ++ url.path))

/-- What the object is to hold. -/
def Held (url : Url) (obj : HttpObj) : Prop :=
  Loaded obj (url.host ++ 58 :: url.port.getD []) (url.port.elim 80 fun digits => (decimal digits : Int)) url.path

/-- The path has no upper-case letters, a host without a scheme does not start like one, the port fits its array,
and the length an `unsigned`. -/
structure Kept (url : Url) : Prop where
  path : ∀ c ∈ url.path, ¬ IsUpper c
  scheme : url.scheme = true ∨ ¬ http <+: url.host
  port : ∀ digits ∈ url.port, digits.length < 32
  size : url.text.length + 1 < 4294967296

private theorem not_isUpper_host (member : c ∈ url.host) : ¬ IsUpper c := by
  have plain := url.hostPlain c member
  rw [HostChar, isdigit, Bool.and_eq_true, decide_eq_true_eq, decide_eq_true_eq] at plain
  rw [IsUpper]
  rcases plain with small | digit | rfl | rfl
  · omega
  · omega
  · decide
  · decide

private theorem not_separator_host (member : c ∈ url.host) : isSeparator c = false := by
  have plain := url.hostPlain c member
  rw [HostChar, isdigit, Bool.and_eq_true, decide_eq_true_eq, decide_eq_true_eq] at plain
  rw [isSeparator, Bool.or_eq_false_iff, decide_eq_false_iff_not, decide_eq_false_iff_not]
  constructor
  · rintro rfl
    revert plain
    decide
  · rintro rfl
    revert plain
    decide

private theorem not_isUpper_port {digits : Bytes} (given : digits ∈ url.port) (member : c ∈ digits) : ¬ IsUpper c := by
  have plain := url.portDigits digits given c member
  rw [isdigit, Bool.and_eq_true, decide_eq_true_eq, decide_eq_true_eq] at plain
  rw [IsUpper]
  omega

private theorem portText_lower (url : Url) : url.portText.map lower = url.portText := by
  rw [map_lower_eq_self_iff, portText]
  cases given : url.port with
  | none => simp
  | some digits =>
      intro c member
      rcases List.mem_cons.mp member with rfl | inDigits
      · decide
      · exact not_isUpper_port given inDigits

private theorem text_lower (url : Url) :
    url.text.map lower = url.schemeText ++ (url.host ++ (url.portText ++ url.path.map lower)) := by
  have scheme : url.schemeText.map lower = url.schemeText := by
    rw [schemeText]
    split
    · decide
    · rfl
  have host : url.host.map lower = url.host := map_lower_eq_self_iff.mpr fun c => not_isUpper_host
  rw [text, List.map_append, List.map_append, List.map_append, scheme, host, portText_lower]

private theorem path_starts (url : Url) : ∀ c ∈ (url.path.map lower).head?, c = 47 := by
  intro c first
  rw [List.head?_map, Option.mem_def, Option.map_eq_some_iff] at first
  obtain ⟨d, starts, rfl⟩ := first
  rw [url.pathStarts d starts]
  decide

/-- What stands behind a host starts with a separator. -/
theorem tail_starts (url : Url) : ∀ c ∈ (url.portText ++ url.path.map lower).head?, isSeparator c = true := by
  intro c first
  rw [portText] at first
  cases given : url.port with
  | none =>
      rw [given] at first
      rw [url.path_starts c first]
      decide
  | some digits =>
      rw [given] at first
      cases first
      decide

private theorem exists_host (url : Url) : ∃ c host, url.host = c :: host :=
  List.exists_cons_of_ne_nil fun empty => absurd url.hostSize.1 (by rw [empty]; decide)

theorem dropWhile_host (url : Url) (tail : Bytes) : (url.host ++ tail).dropWhile isSeparator = url.host ++ tail := by
  obtain ⟨c, host, starts⟩ := url.exists_host
  have plain := url.not_separator_host (starts ▸ List.mem_cons_self : c ∈ url.host)
  rw [starts, List.cons_append, List.dropWhile_cons_of_neg (by simp [plain])]

private theorem isPrefix_host {tail : Bytes} (starts : ∀ c ∈ tail.head?, isSeparator c = true)
    (here : http <+: url.host ++ tail) : http <+: url.host := by
  cases tail with
  | nil => rwa [List.append_nil] at here
  | cons c tail =>
      have separates := starts c rfl
      rw [isSeparator, Bool.or_eq_true, decide_eq_true_eq, decide_eq_true_eq] at separates
      refine isPrefix_of_notMem ?_ here
      rcases separates with rfl | rfl
      · decide
      · decide

private theorem fromName_text (plain : url.scheme = true ∨ ¬ http <+: url.host) :
    fromName url.text = url.host ++ (url.portText ++ url.path.map lower) := by
  rw [fromName, text_lower, schemeText]
  by_cases scheme : url.scheme = true
  · rw [if_pos scheme, escapeScheme, List.append_assoc, if_pos (List.isPrefixOf_iff_prefix.mpr (List.prefix_append _ _))]
    exact url.dropWhile_host _
  · have noScheme : ¬ http <+: url.host ++ (url.portText ++ url.path.map lower) :=
      fun here => (plain.resolve_left scheme) (isPrefix_host url.tail_starts here)
    rw [if_neg scheme, List.nil_append, escapeScheme, if_neg (mt List.isPrefixOf_iff_prefix.mp noScheme)]
    exact url.dropWhile_host _

private theorem copied_host {tail : Bytes} (starts : ∀ c ∈ tail.head?, isSeparator c = true) :
    nameOf (url.host ++ tail) = url.host ∧ afterName (url.host ++ tail) = tail :=
  copied (fun _ member => url.not_separator_host member) starts

private theorem copied_port (url : Url) : portOf (url.portText ++ url.path.map lower) = url.port ∧
    pathOf (url.portText ++ url.path.map lower) = url.path.map lower := by
  have starts := url.path_starts
  generalize url.path.map lower = path at *
  rw [portText]
  cases given : url.port with
  | none =>
      rw [Option.elim_none, List.nil_append]
      cases path with
      | nil => exact ⟨rfl, rfl⟩
      | cons c path =>
          obtain rfl := starts c rfl
          exact ⟨rfl, rfl⟩
  | some digits =>
      have goes : ∀ c ∈ digits, isSlash c = false := by
        intro c member
        have digit := url.portDigits digits given c member
        rw [isSlash, decide_eq_false_iff_not]
        rintro rfl
        exact absurd digit (by decide)
      have ends : ∀ c ∈ path.head?, isSlash c = true := fun c first => decide_eq_true (starts c first)
      obtain ⟨front, back⟩ := copied goes ends
      exact ⟨congrArg some front, back⟩

private theorem port_ne_nil {digits : Bytes} (given : digits ∈ url.port) : digits ≠ [] := by
  rintro rfl
  exact absurd (url.portRange [] given).1 (by decide)

theorem portNumber (url : Url) : url.port.elim 80 atol = url.port.elim 80 fun digits => (decimal digits : Int) := by
  cases given : url.port with
  | none => rfl
  | some digits =>
      obtain ⟨low, high⟩ := url.portRange digits given
      have nonempty := url.port_ne_nil given
      rw [Option.elim_some, Option.elim_some, atol_digits (url.portDigits digits given) nonempty]
      exact Int.min_eq_right (by omega)

private theorem text_good (url : Url) : 0 ∉ url.text := by
  have scheme : 0 ∉ url.schemeText := by
    rw [schemeText]
    split
    · decide
    · exact List.not_mem_nil
  have host : 0 ∉ url.host := fun member => absurd (url.hostPlain 0 member) (by unfold HostChar; decide)
  have port : 0 ∉ url.portText := by
    rw [portText]
    cases given : url.port with
    | none => exact List.not_mem_nil
    | some digits =>
        rw [Option.elim_some, List.mem_cons, not_or]
        exact ⟨by decide, fun member => absurd (url.portDigits digits given 0 member) (by decide)⟩
  simp only [text, List.mem_append, not_or]
  exact ⟨scheme, host, port, url.pathGood⟩

private theorem noColon_host (url : Url) : 58 ∉ url.host :=
  fun member => absurd (url.not_separator_host member) (by decide)

private theorem noColon_port (url : Url) : 58 ∉ url.port.getD [] := by
  cases given : url.port with
  | none => exact List.not_mem_nil
  | some digits => exact fun member => absurd (url.portDigits digits given 58 member) (by decide)

private theorem length_portText_le {port : Option Bytes} (same : url.port.getD [] = port.getD []) :
    url.portText.length ≤ (port.elim [] fun digits => 58 :: digits).length := by
  rw [portText]
  cases given : url.port with
  | none => exact Nat.zero_le _
  | some digits =>
      rw [given] at same
      cases port with
      | none => exact absurd same (url.port_ne_nil given)
      | some other => exact (congrArg (fun digits : Bytes => (58 :: digits).length) same).le

/-- A host without a scheme that starts like one loses its start. -/
theorem length_fromName_lt (noScheme : ¬ (url.scheme = true ∨ ¬ http <+: url.host)) :
    (fromName url.text).length < url.host.length + url.portText.length + url.path.length := by
  rw [not_or, not_not] at noScheme
  have here : http <+: url.host ++ (url.portText ++ url.path.map lower) := noScheme.2.trans (List.prefix_append _ _)
  have long := here.length_le
  have dropped := (List.dropWhile_suffix (l := (url.host ++ (url.portText ++ url.path.map lower)).drop 4)
    isSeparator).length_le
  rw [fromName, text_lower, schemeText, if_neg noScheme.1, List.nil_append, escapeScheme,
    if_pos (List.isPrefixOf_iff_prefix.mpr here)]
  simp only [List.length_drop, List.length_append, List.length_map, http, List.length_cons, List.length_nil] at *
  omega

/-- What `enet_http_load_url` gets out of a URL. -/
theorem load (gethostbyname : Resolver) (obj : HttpObj) (fits : Fits url.text)
    (plain : url.scheme = true ∨ ¬ http <+: url.host) :
    ∃ after, loadUrl (fun _ => true) gethostbyname url.text obj = some (.ok, after) ∧
      Loaded after (url.host ++ 58 :: url.port.getD []) (url.port.elim 80 fun digits => (decimal digits : Int))
        (url.path.map lower) := by
  obtain ⟨after, loads, loaded⟩ := loadUrl_apply gethostbyname obj url.text_good fits
  obtain ⟨name, rest⟩ := url.copied_host url.tail_starts
  obtain ⟨port, path⟩ := url.copied_port
  rw [fromName_text plain, name, rest, port, path, portNumber] at loaded
  exact ⟨after, loads, loaded⟩

private theorem fits_iff (plain : url.scheme = true ∨ ¬ http <+: url.host) :
    Fits url.text ↔ url.text.length + 1 < 4294967296 ∧ ∀ digits ∈ url.port, digits.length < 32 := by
  obtain ⟨name, rest⟩ := url.copied_host url.tail_starts
  obtain ⟨port, _⟩ := url.copied_port
  have short : url.host.length < 512 := Nat.lt_succ_of_le url.hostSize.2
  rw [Fits, fromName_text plain, name, rest, port]
  cases url.port with
  | none => simp [short]
  | some digits => simp [short]

/-- The object holds the host, the port and the path exactly of these URLs. -/
theorem held_iff (url : Url) (gethostbyname : Resolver) (obj : HttpObj) :
    (∃ after, loadUrl (fun _ => true) gethostbyname url.text obj = some (.ok, after) ∧ url.Held after) ↔
      url.Kept := by
  constructor
  · rintro ⟨after, loads, held⟩
    have fits : Fits url.text := by
      by_contra long
      rw [loadUrl_eq_none gethostbyname obj url.text_good long] at loads
      cases loads
    have plain : url.scheme = true ∨ ¬ http <+: url.host := by
      by_contra noScheme
      obtain ⟨again, loadsAgain, loaded⟩ := loadUrl_apply gethostbyname obj url.text_good fits
      cases loads.symm.trans loadsAgain
      obtain ⟨host, _, path⟩ := held.unique loaded
      have short := length_fromName_lt noScheme
      have parts := length_parts_le (fromName url.text)
      obtain ⟨name, _, port⟩ := (List.append_cons_inj_of_notMem url.noColon_host url.noColon_port).mp host
      have portShort := url.length_portText_le port
      rw [← name, ← path] at parts
      omega
    obtain ⟨again, loadsAgain, loaded⟩ := url.load gethostbyname obj fits plain
    cases loads.symm.trans loadsAgain
    obtain ⟨_, _, path⟩ := held.unique loaded
    obtain ⟨size, port⟩ := (fits_iff plain).mp fits
    exact ⟨map_lower_eq_self_iff.mp path.symm, plain, port, size⟩
  · rintro ⟨path, plain, port, size⟩
    obtain ⟨after, loads, loaded⟩ := url.load gethostbyname obj ((fits_iff plain).mpr ⟨size, port⟩) plain
    rw [map_lower_eq_self_iff.mpr path] at loaded
    exact ⟨after, loads, loaded⟩

/-- `http://host/Index`. -/
def capital : Url where
  scheme := true
  host := [104, 111, 115, 116]
  port := none
  path := [47, 73, 110, 100, 101, 120]
  hostSize := by decide
  hostPlain := by decide
  portDigits := by simp
  portRange := by simp
  pathStarts := by decide
  pathGood := by decide

/-- The path of that URL loses its capital. -/
theorem capital_not_held : ¬ ∀ gethostbyname obj, ∃ after,
    loadUrl (fun _ => true) gethostbyname capital.text obj = some (.ok, after) ∧ capital.Held after := by
  intro holds
  obtain ⟨after, loads, held⟩ := holds (fun _ => none) HttpObj.new
  have plain : capital.scheme = true ∨ ¬ http <+: capital.host := .inl rfl
  have fits : Fits capital.text := (fits_iff plain).mpr ⟨by decide, by simp [capital]⟩
  obtain ⟨again, loadsAgain, loaded⟩ := capital.load (fun _ => none) HttpObj.new fits plain
  cases loads.symm.trans loadsAgain
  exact absurd (held.unique loaded).2.2 (by decide)

end Url

end GbfLibrary.Enet.Http
