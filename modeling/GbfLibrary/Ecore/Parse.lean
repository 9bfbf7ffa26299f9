import GbfLibrary.Ecore.Bounds

/-!
# Items of a configuration

The text of a list of modules, and what `parse_config_next_item` makes of it.
-/

set_option autoImplicit false

namespace GbfLibrary.Ecore

open Memory

/-- A name or a path that fits its buffer with the end of its line, and that no key occurs in. -/
structure Plain (field : Bytes) : Prop where
  short : field.length ≤ 258
  noNul : 0 ∉ field
  noCr : 13 ∉ field
  noLf : 10 ∉ field
  noKey : ∀ key ∈ [nameKey, pathKey, modeKey, typeKey], ¬ key <:+: field

structure ModuleItem where
  name : Bytes
  path : Bytes
  mode : Fin 10
  type : Fin 10
  plainName : Plain name
  plainPath : Plain path

/-- The end of a line, with or without a carriage return. -/
def lineEnd (carriage : Bool) : Bytes := if carriage then [13, 10] else [10]

def digit (d : Fin 10) : Byte := BitVec.ofNat 8 (48 + d)

/-- An item and how its four lines end. -/
structure Group where
  item : ModuleItem
  nameEnd : Bool
  pathEnd : Bool
  modeEnd : Bool
  typeEnd : Bool

/-- The lines of an item up to the digit of its type. -/
def Group.front (group : Group) : Bytes :=
  nameKey ++ (group.item.name ++ lineEnd group.nameEnd ++ (pathKey ++ (group.item.path ++
    lineEnd group.pathEnd ++ (modeKey ++ ([digit group.item.mode] ++ lineEnd group.modeEnd ++ typeKey)))))

/-- The end of the last line, from the digit on. -/
def Group.back (group : Group) : Bytes := [digit group.item.type] ++ lineEnd group.typeEnd

def Group.text (group : Group) : Bytes := group.front ++ group.back

def configText (groups : List Group) : Bytes := groups.flatMap Group.text

section Keys

/-- One of the four keys. -/
def IsKey (key : Bytes) : Prop := key ∈ [nameKey, pathKey, modeKey, typeKey]

theorem IsKey.good {key : Bytes} (isKey : IsKey key) :
    key.length = 5 ∧ 0 ∉ key ∧ 13 ∉ key ∧ 10 ∉ key := by
  have all : ∀ key ∈ [nameKey, pathKey, modeKey, typeKey],
      key.length = 5 ∧ 0 ∉ key ∧ 13 ∉ key ∧ 10 ∉ key := by decide
  exact all key isKey

variable {key field rest : Bytes}

/-- The search for a key passes over a line that the key does not occur in. -/
theorem fromFirst_line (isKey : IsKey key) (nowhere : ¬ key <:+: field) (carriage : Bool) (rest : Bytes) :
    fromFirst key (field ++ lineEnd carriage ++ rest) = fromFirst key rest := by
  obtain ⟨length, _, noCr, noLf⟩ := isKey.good
  cases carriage with
  | false => simpa [lineEnd] using fromFirst_skip noLf nowhere rest
  | true =>
      have empty : ¬ key <:+: [] := by
        rw [List.infix_nil]
        rintro rfl
        cases length
      have second := fromFirst_skip noLf empty rest
      have first := fromFirst_skip noCr nowhere (10 :: rest)
      rw [List.nil_append] at second
      rw [second] at first
      simpa [lineEnd] using first

private theorem IsKey.not_infix (isKey : IsKey key) (c : Byte) : ¬ key <:+: [c] := by
  intro inside
  have short := inside.length_le
  rw [isKey.good.1] at short
  simp at short

/-- A string whose length is an `unsigned`. -/
structure IsText (text : Bytes) : Prop where
  noNul : 0 ∉ text
  short : text.length < 4294967296

theorem IsText.of_append {front back : Bytes} (isText : IsText (front ++ back)) : IsText back where
  noNul inBack := isText.noNul (List.mem_append_right front inBack)
  short := by
    have short := isText.short
    rw [List.length_append] at short
    omega

/-- What `findKey` does on a string. -/
theorem findKey_eq {text : Bytes} (isKey : IsKey key) (isText : IsText text) :
    findKey key (text ++ [0]) =
      some (((fromFirst key text).filter fun found => key.length < found.length).map
        fun found => (found ++ [0]).drop 5) := by
  obtain ⟨good, short⟩ := isText
  obtain ⟨length, noNul, _, _⟩ := isKey.good
  have nonempty : key ≠ [] := by
    rintro rfl
    cases length
  have size : unsigned (unsigned text.length + 1) = unsigned (text.length + 1) := by
    simp only [unsigned]
    omega
  rw [findKey, ecoreStrlen_eq good, Option.bind_eq_bind, Option.bind_some, size,
    ecoreStrstr_eq nonempty noNul good short]
  simp [Function.comp_def]

/-- The next key is found behind the lines before it. -/
theorem findKey_here {skipped : Bytes} (isKey : IsKey key)
    (skips : fromFirst key (skipped ++ (key ++ rest)) = fromFirst key (key ++ rest))
    (isText : IsText (skipped ++ (key ++ rest))) (more : rest ≠ []) :
    findKey key (skipped ++ (key ++ rest) ++ [0]) = some (some (rest ++ [0])) := by
  have longer : key.length < (key ++ rest).length := by
    have := List.length_pos_of_ne_nil more
    rw [List.length_append]
    omega
  rw [findKey_eq isKey isText, skips, fromFirst_here, Option.filter_some, if_pos (by simpa using longer),
    Option.map_some, List.append_assoc, ← isKey.good.1, List.drop_left]

private theorem findKey_none {skipped : Bytes} (isKey : IsKey key)
    (skips : fromFirst key (skipped ++ []) = fromFirst key []) (isText : IsText skipped) :
    findKey key (skipped ++ [0]) = some none := by
  have length := isKey.good.1
  have nonempty : key ≠ [] := by
    rintro rfl
    cases length
  rw [List.append_nil] at skips
  rw [findKey_eq isKey isText, skips, fromFirst, if_neg nonempty]
  rfl

end Keys

section Items

/-- A field is copied up to the end of its line. -/
theorem confStrcpyEndWithChar_eq {field dst : Bytes} {size : Nat} (noNul : 0 ∉ field) (noCr : 13 ∉ field)
    (noLf : 10 ∉ field) (room : field.length + 2 ≤ size) (inside : size ≤ dst.length) (carriage : Bool)
    (rest : Bytes) :
    confStrcpyEndWithChar 10 13 size dst (field ++ lineEnd carriage ++ rest) =
      some (field ++ 0 :: dst.drop (field.length + 1)) := by
  have plain : ∀ x ∈ field, ¬ Stops 10 13 x := by
    rintro x member (rfl | rfl | rfl)
    · exact noNul member
    · exact noLf member
    · exact noCr member
  rw [List.append_assoc]
  cases carriage with
  | false => exact confStrcpyEndWithChar_fits plain (.inr (.inl rfl)) room inside rest
  | true => exact confStrcpyEndWithChar_fits plain (.inr (.inr rfl)) room inside ([10] ++ rest)

private theorem digitAt_digit (d : Fin 10) (rest : Bytes) : digitAt (digit d :: rest) = some d.val := by
  have all : ∀ d : Fin 10, unsigned ((digit d).toInt - 48) = d.val := by decide
  rw [digitAt, List.head?_cons, Option.map_some, all]

private theorem zero_notMem_lineEnd (carriage : Bool) : 0 ∉ lineEnd carriage := by
  cases carriage <;> decide

private theorem zero_ne_digit (d : Fin 10) : (0 : Byte) ≠ digit d := by
  revert d
  decide

theorem Group.zero_notMem_front (group : Group) : 0 ∉ group.front := by
  have name := group.item.plainName.noNul
  have path := group.item.plainPath.noNul
  have keys : 0 ∉ nameKey ∧ 0 ∉ pathKey ∧ 0 ∉ modeKey ∧ 0 ∉ typeKey := by decide
  simp only [Group.front, List.mem_append, List.mem_singleton, not_or]
  exact ⟨keys.1, ⟨name, zero_notMem_lineEnd _⟩, keys.2.1, ⟨path, zero_notMem_lineEnd _⟩, keys.2.2.1,
    ⟨zero_ne_digit _, zero_notMem_lineEnd _⟩, keys.2.2.2⟩

theorem Group.zero_notMem_back (group : Group) : 0 ∉ group.back := by
  simp only [Group.back, List.mem_append, List.mem_singleton, not_or]
  exact ⟨zero_ne_digit _, zero_notMem_lineEnd _⟩

/-- Text that the search for the next item passes over. -/
structure Passed (skipped : Bytes) : Prop where
  noNul : 0 ∉ skipped
  skips : ∀ rest, fromFirst nameKey (skipped ++ rest) = fromFirst nameKey rest

theorem Passed.nil : Passed [] := ⟨by simp, fun _ => rfl⟩

theorem Group.back_passed (group : Group) : Passed group.back where
  noNul := group.zero_notMem_back
  skips rest := by
    have isKey : IsKey nameKey := List.mem_cons_self
    exact fromFirst_line isKey (isKey.not_infix _) group.typeEnd rest

/-- A buffer after a field has been copied there. -/
def filled (field buffer : Bytes) : Bytes := field ++ 0 :: buffer.drop (field.length + 1)

/-- The next item is parsed up to the digit of its type. -/
theorem parseConfigNextItem_eq {skipped name path rest : Bytes} (passed : Passed skipped) (group : Group)
    (nameRoom : name.length = ECORE_MODULE_NAME_LEN) (pathRoom : path.length = ECORE_MODULE_PATH_LEN)
    (isText : IsText (skipped ++ (group.text ++ rest))) :
    parseConfigNextItem (skipped ++ (group.text ++ rest) ++ [0]) name path =
      some (some ⟨group.back ++ rest ++ [0], filled group.item.name name, filled group.item.path path,
        group.item.mode, group.item.type⟩) := by
  obtain ⟨item, nameEnd, pathEnd, modeEnd, typeEnd⟩ := group
  obtain ⟨itemName, itemPath, mode, type, plainName, plainPath⟩ := item
  let fourth := [digit type] ++ lineEnd typeEnd ++ rest
  let third := [digit mode] ++ lineEnd modeEnd ++ (typeKey ++ fourth)
  let second := itemPath ++ lineEnd pathEnd ++ (modeKey ++ third)
  let first := itemName ++ lineEnd nameEnd ++ (pathKey ++ second)
  have whole : (Group.text ⟨⟨itemName, itemPath, mode, type, plainName, plainPath⟩, nameEnd, pathEnd,
      modeEnd, typeEnd⟩ ++ rest) = nameKey ++ first := by
    simp [Group.text, Group.front, Group.back, first, second, third, fourth]
  rw [whole] at isText ⊢
  have inFirst : IsText first := isText.of_append.of_append
  have inSecond : IsText second := inFirst.of_append.of_append
  have inThird : IsText third := inSecond.of_append.of_append
  have isName : IsKey nameKey := by simp [IsKey]
  have isPath : IsKey pathKey := by simp [IsKey]
  have isMode : IsKey modeKey := by simp [IsKey]
  have isType : IsKey typeKey := by simp [IsKey]
  have keys : nameKey ≠ [] ∧ pathKey ≠ [] ∧ modeKey ≠ [] ∧ typeKey ≠ [] := by decide
  have findsName : findKey nameKey (skipped ++ (nameKey ++ first) ++ [0]) = some (some (first ++ [0])) :=
    findKey_here isName (passed.skips _) isText (by simp [first, keys])
  have findsPath : findKey pathKey (first ++ [0]) = some (some (second ++ [0])) :=
    findKey_here isPath (fromFirst_line isPath (plainName.noKey _ isPath) nameEnd _) inFirst
      (by simp [second, keys])
  have findsMode : findKey modeKey (second ++ [0]) = some (some (third ++ [0])) :=
    findKey_here isMode (fromFirst_line isMode (plainPath.noKey _ isMode) pathEnd _) inSecond
      (by simp [third])
  have findsType : findKey typeKey (third ++ [0]) = some (some (fourth ++ [0])) :=
    findKey_here isType (fromFirst_line isType (isType.not_infix _) modeEnd _) inThird
      (by simp [fourth])
  have copiesName : confStrcpyEndWithChar 10 13 ECORE_MODULE_NAME_LEN name (first ++ [0]) =
      some (filled itemName name) := by
    have short := plainName.short
    rw [List.append_assoc]
    exact confStrcpyEndWithChar_eq plainName.noNul plainName.noCr plainName.noLf
      (by rw [ECORE_MODULE_NAME_LEN]; omega) (Nat.le_of_eq nameRoom.symm) nameEnd _
  have copiesPath : confStrcpyEndWithChar 10 13 ECORE_MODULE_PATH_LEN path (second ++ [0]) =
      some (filled itemPath path) := by
    have short := plainPath.short
    rw [List.append_assoc]
    exact confStrcpyEndWithChar_eq plainPath.noNul plainPath.noCr plainPath.noLf
      (by rw [ECORE_MODULE_PATH_LEN]; omega) (Nat.le_of_eq pathRoom.symm) pathEnd _
  have readsMode : digitAt (third ++ [0]) = some mode.val := digitAt_digit mode _
  have readsType : digitAt (fourth ++ [0]) = some type.val := digitAt_digit type _
  simp only [parseConfigNextItem, findsName, findsPath, findsMode, findsType, copiesName, copiesPath,
    readsMode, readsType, Option.bind_eq_bind, Option.bind_some]
  rfl

/-- Behind the last item there is nothing to parse. -/
theorem parseConfigNextItem_none {skipped : Bytes} (passed : Passed skipped) (isText : IsText skipped)
    (name path : Bytes) : parseConfigNextItem (skipped ++ [0]) name path = some none := by
  have isName : IsKey nameKey := List.mem_cons_self
  simp only [parseConfigNextItem, findKey_none isName (passed.skips []) isText, Option.bind_eq_bind,
    Option.bind_some]
  rfl

end Items

end GbfLibrary.Ecore
