import GbfLibrary.Errno
import GbfLibrary.Maps.Bindings
import GbfLibrary.Memory.Block

/-!
# The header list

`enet_http_insert_header` and `enet_http_find_header` of `enet_tools.c`. A string is its bytes before the
terminating one. No two nodes share anything, so that a list of nodes is a list.
-/

set_option autoImplicit false

namespace GbfLibrary.Enet.Http

open Memory Maps

/-- `enet_http_header_t`. -/
structure Header where
  key : Bytes
  content : Bytes
  deriving DecidableEq, Repr

/-- Whether each call of `malloc` succeeds, by its number. -/
abbrev Malloc := Nat → Bool

/-- What `lowercase` does to one character. -/
def lower (c : Byte) : Byte := if 65 ≤ c.toNat ∧ c.toNat ≤ 90 then c + 32 else c

/-- `lowercase`, which starts at the end. -/
def lowercase (str : Bytes) : Nat → Bytes
  | 0 => str
  | len + 1 => lowercase (str.modify len lower) len

/-- `enet_http_find_header`. -/
def findHeader (key : Bytes) : List Header → Option Header
  | [] => none
  | node :: next => if node.key = key then some node else findHeader key next

/-- The walk of `enet_http_insert_header`: the node of the key gets the new content, or a new last node is made. -/
def insertNode (header : Header) : List Header → List Header
  | [] => [header]
  | root :: next =>
      if root.key = header.key then { root with content := header.content } :: next
      else root :: insertNode header next

/-- `enet_http_insert_header`. The number is that of the calls of `malloc` so far. -/
def insertHeader (malloc : Malloc) (calls : Nat) (key value : Bytes) (headers : List Header) :
    Status × List Header × Nat :=
  if malloc calls = false then (.noMemory, headers, calls + 1)
  else if malloc (calls + 1) = false ∨ malloc (calls + 2) = false then (.noMemory, headers, calls + 3)
  else (.ok, insertNode ⟨lowercase key key.length, value⟩ headers, calls + 3)

/-- Names and values that are inserted one after another into an empty list. -/
def insertHeaders (malloc : Malloc) (fields : List (Bytes × Bytes)) : List Header × Nat :=
  fields.foldl (fun list field => (insertHeader malloc list.2 field.1 field.2 list.1).2) ([], 0)

section Lowercase

variable {c : Byte} {str : Bytes}

/-- An upper-case letter. -/
def IsUpper (c : Byte) : Prop := 65 ≤ c.toNat ∧ c.toNat ≤ 90

instance (c : Byte) : Decidable (IsUpper c) := inferInstanceAs (Decidable (_ ∧ _))

private theorem toNat_shift (upper : IsUpper c) : (c + 32).toNat = c.toNat + 32 := by
  rw [BitVec.toNat_add]
  have small := upper.2
  exact Nat.mod_eq_of_lt (show c.toNat + 32 < 256 by omega)

private theorem not_isUpper_lower (c : Byte) : ¬ IsUpper (lower c) := by
  rw [lower, IsUpper]
  split
  · next upper =>
    have shifted := toNat_shift upper
    omega
  · next plain => exact plain

private theorem lower_eq_self_iff : lower c = c ↔ ¬ IsUpper c := by
  constructor
  · intro same
    rw [← same]
    exact not_isUpper_lower c
  · exact fun plain => if_neg plain

theorem map_lower_eq_self_iff : str.map lower = str ↔ ∀ c ∈ str, ¬ IsUpper c := by
  have pointwise : str.map lower = str.map id ↔ ∀ c ∈ str, lower c = id c := List.map_inj_left
  rw [List.map_id] at pointwise
  exact pointwise.trans (forall₂_congr fun c _ => lower_eq_self_iff)

theorem map_lower_map_lower (str : Bytes) : (str.map lower).map lower = str.map lower := by
  rw [map_lower_eq_self_iff]
  intro c member
  obtain ⟨d, _, rfl⟩ := List.mem_map.mp member
  exact not_isUpper_lower d

private theorem modify_append (front back : Bytes) (c : Byte) (f : Byte → Byte) :
    (front ++ c :: back).modify front.length f = front ++ f c :: back := by
  induction front with
  | nil => rfl
  | cons d front ih => rw [List.cons_append, List.length_cons, List.modify_succ_cons, ih, List.cons_append]

private theorem lowercase_append (front back : Bytes) :
    lowercase (front ++ back) front.length = front.map lower ++ back := by
  induction front using List.reverseRecOn generalizing back with
  | nil => rfl
  | append_singleton front c ih =>
      rw [List.length_append, List.length_singleton, lowercase, List.append_assoc, List.singleton_append,
        modify_append, ih, List.map_append, List.append_assoc]
      rfl

theorem lowercase_eq (str : Bytes) : lowercase str str.length = str.map lower := by
  simpa using lowercase_append str []

theorem noNul_lower (good : 0 ∉ str) : 0 ∉ str.map lower := by
  intro member
  obtain ⟨d, inStr, zero⟩ := List.mem_map.mp member
  rw [lower] at zero
  split at zero
  · next upper =>
    have shifted := toNat_shift upper
    rw [zero] at shifted
    exact absurd shifted (by simp)
  · exact good (zero ▸ inStr)

end Lowercase

section Lists

variable {malloc : Malloc} {headers : List Header} {key : Bytes}

def Header.entry (node : Header) : Bytes × Bytes := (node.key, node.content)

@[simp] theorem Header.entry_fst (node : Header) : node.entry.1 = node.key := rfl

theorem entries_insertNode (header : Header) (headers : List Header) :
    (insertNode header headers).map Header.entry =
      upsert header.key header.content (headers.map Header.entry) := by
  induction headers with
  | nil => rfl
  | cons root next ih =>
      rw [insertNode, List.map_cons, upsert, Header.entry_fst]
      split
      · next same => rw [List.map_cons, Header.entry, same]
      · next differs => rw [List.map_cons, ih]

private theorem findHeader_eq (key : Bytes) (headers : List Header) :
    findHeader key headers = ((headers.map Header.entry).find? fun entry => entry.1 = key).map fun entry =>
      ⟨entry.1, entry.2⟩ := by
  induction headers with
  | nil => rfl
  | cons node next ih =>
      rw [findHeader, List.map_cons, List.find?_cons, ih]
      by_cases same : node.key = key
      · subst same
        simp [Header.entry]
      · simp [same]

/-- The three allocations of `enet_http_insert_header` succeed. -/
def Provided (malloc : Malloc) (calls : Nat) : Prop :=
  malloc calls = true ∧ malloc (calls + 1) = true ∧ malloc (calls + 2) = true

instance (malloc : Malloc) (calls : Nat) : Decidable (Provided malloc calls) := inferInstanceAs (Decidable (_ ∧ _))

theorem insertHeader_provided {calls : Nat} (provided : Provided malloc calls) (key value : Bytes)
    (headers : List Header) : insertHeader malloc calls key value headers =
      (.ok, insertNode ⟨key.map lower, value⟩ headers, calls + 3) := by
  simp [insertHeader, provided.1, provided.2.1, provided.2.2, lowercase_eq]

theorem insertHeader_fails {calls : Nat} (missing : ¬ Provided malloc calls) (key value : Bytes)
    (headers : List Header) : (insertHeader malloc calls key value headers).1 = .noMemory := by
  rw [insertHeader]
  split
  · rfl
  · next first =>
    rw [if_pos]
    by_contra both
    rw [not_or, Bool.not_eq_false, Bool.not_eq_false] at both
    exact missing ⟨Bool.not_eq_false _ ▸ first, both⟩

/-- Some fields under their names in lower case. -/
def lowered (fields : List (Bytes × Bytes)) : List (Bytes × Bytes) :=
  fields.map fun field => (field.1.map lower, field.2)

private theorem entries_insertHeaders (succeeds : ∀ call, malloc call = true) (fields : List (Bytes × Bytes)) :
    (insertHeaders malloc fields).1.map Header.entry = upserts (lowered fields) := by
  induction fields using List.reverseRecOn with
  | nil => rfl
  | append_singleton fields field ih =>
      rw [insertHeaders, List.foldl_append, List.foldl_cons, List.foldl_nil,
        insertHeader_provided ⟨succeeds _, succeeds _, succeeds _⟩, lowered,
        List.map_append, List.map_singleton, upserts_snoc, entries_insertNode]
      exact congrArg _ ih

theorem isUpper_of_mem_lowered {fields : List (Bytes × Bytes)} {field : Bytes × Bytes} (member : field ∈ lowered fields) :
    ∀ c ∈ field.1, ¬ IsUpper c := by
  obtain ⟨plain, _, rfl⟩ := List.mem_map.mp member
  exact map_lower_eq_self_iff.mp (map_lower_map_lower plain.1)

/-- What was last inserted under a name, in any spelling. -/
def lastInserted (fields : List (Bytes × Bytes)) (key : Bytes) : Option Header :=
  (latest (lowered fields) (key.map lower)).map (Header.mk (key.map lower))

private theorem lastInserted_eq_none_iff (fields : List (Bytes × Bytes)) (key : Bytes) :
    lastInserted fields key = none ↔ ∀ field ∈ fields, field.1.map lower ≠ key.map lower := by
  rw [lastInserted, Option.map_eq_none_iff, latest_eq_none_iff]
  constructor
  · intro absent field member same
    have lowerField := List.mem_map_of_mem (f := fun field => (field.1.map lower, field.2)) member
    exact absent _ lowerField same
  · intro absent field member
    obtain ⟨plain, inserted, rfl⟩ := List.mem_map.mp member
    exact absent plain inserted

/-- The header list after some insertions, and the search for one spelling of a name in it. -/
structure Registered (fields : List (Bytes × Bytes)) (spelling : Bytes) (headers : List Header) : Prop where
  distinct : (headers.map Header.key).Nodup
  lowerCase : ∀ node ∈ headers, ∀ c ∈ node.key, ¬ IsUpper c
  order : headers.map Header.key = (fields.map fun field => field.1.map lower).eraseDups
  found : findHeader spelling headers = lastInserted fields spelling

private theorem findHeader_insertHeaders (succeeds : ∀ call, malloc call = true) (fields : List (Bytes × Bytes))
    (key : Bytes) : findHeader key (insertHeaders malloc fields).1 =
      (latest (lowered fields) key).map (Header.mk key) := by
  rw [findHeader_eq, entries_insertHeaders succeeds, (binds_upserts (lowered fields)).find, Option.map_map]
  rfl

private theorem findHeader_eq_lastInserted_iff (succeeds : ∀ call, malloc call = true) (fields : List (Bytes × Bytes))
    (key : Bytes) : findHeader key (insertHeaders malloc fields).1 = lastInserted fields key ↔
      (∀ c ∈ key, ¬ IsUpper c) ∨ ∀ field ∈ fields, field.1.map lower ≠ key.map lower := by
  rw [findHeader_insertHeaders succeeds]
  by_cases plain : ∀ c ∈ key, ¬ IsUpper c
  · have same : key.map lower = key := map_lower_eq_self_iff.mpr plain
    rw [lastInserted, same]
    exact ⟨fun _ => .inl plain, fun _ => rfl⟩
  · have missing : latest (lowered fields) key = none := by
      apply latest_eq_none_iff.mpr
      intro field member same
      subst same
      exact plain (isUpper_of_mem_lowered member)
    rw [missing, Option.map_none, eq_comm, lastInserted_eq_none_iff]
    exact ⟨.inr, fun either => either.resolve_left plain⟩

private theorem keys_insertHeaders (succeeds : ∀ call, malloc call = true) (fields : List (Bytes × Bytes)) :
    (insertHeaders malloc fields).1.map Header.key = (upserts (lowered fields)).map Prod.fst := by
  rw [← entries_insertHeaders succeeds, List.map_map]
  rfl

/-- A search for a name finds what was last inserted under it exactly if it is spelled in lower case, or was
never inserted. -/
theorem registered_iff (succeeds : ∀ call, malloc call = true) (fields : List (Bytes × Bytes)) (spelling : Bytes) :
    Registered fields spelling (insertHeaders malloc fields).1 ↔
      (∀ c ∈ spelling, ¬ IsUpper c) ∨ ∀ field ∈ fields, field.1.map lower ≠ spelling.map lower := by
  rw [← findHeader_eq_lastInserted_iff succeeds]
  constructor
  · exact Registered.found
  · intro found
    constructor
    · rw [keys_insertHeaders succeeds]
      exact nodup_keys_upserts _
    · intro node member
      have entry : node.entry ∈ upserts (lowered fields) := by
        rw [← entries_insertHeaders succeeds]
        exact List.mem_map_of_mem member
      have last := (binds_upserts (lowered fields)).present entry
      exact isUpper_of_mem_lowered (mem_of_latest last)
    · rw [keys_insertHeaders succeeds]
      have names : (lowered fields).map Prod.fst = fields.map fun field => field.1.map lower := List.map_map
      rw [← names]
      convert keys_upserts (lowered fields) using 2
      exact lawful_beq_subsingleton _ _
    · exact found

end Lists

/-- `Host`. -/
def hostKey : Bytes := [72, 111, 115, 116]

theorem registered_iff_host :
    Registered [(hostKey, [97]), (hostKey.map lower, [98])] (hostKey.map lower)
      (insertHeaders (fun _ => true) [(hostKey, [97]), (hostKey.map lower, [98])]).1 := by
  apply (registered_iff (fun _ => rfl) _ _).mpr
  left
  decide

/-- A name is not found as it was inserted. -/
theorem host_not_found :
    ¬ Registered [(hostKey, [97])] hostKey (insertHeaders (fun _ => true) [(hostKey, [97])]).1 := by
  intro registered
  have missing : findHeader hostKey (insertHeaders (fun _ => true) [(hostKey, [97])]).1 = none := by decide +kernel
  have expected : lastInserted [(hostKey, [97])] hostKey ≠ none := by decide +kernel
  exact expected (registered.found.symm.trans missing)

end GbfLibrary.Enet.Http
