import GbfLibrary.Maps.Bindings
import GbfLibrary.Rbtree.Model

/-!
# The tree as a map

What the calls do to a finite map from keys to data. The check of the parameters
of an insertion is that of `rbt_insert`; the rest is said in terms of the map.
-/

set_option autoImplicit false

namespace GbfLibrary.Rbtree

abbrev Contents := Word → Option Word

namespace Contents

def empty : Contents := fun _ => none

/-- An insertion that may replace data needs a place for the old data, and is
refused without one, whether the key is there or not. -/
def insert (contents : Contents) (key data : Word) (isUpdate oldData : Bool) :
    (Code × Option Word) × Contents :=
  if isUpdate && !oldData then ((.invParam, none), contents)
  else
    match contents key with
    | none => ((.ok, none), Function.update contents key (some data))
    | some old =>
        if isUpdate then ((.ok, some old), Function.update contents key (some data))
        else ((.alreadyExist, none), contents)

def remove (contents : Contents) (key : Word) (out : Bool) : (Code × Option Word) × Contents :=
  match contents key with
  | none => ((.notFound, none), contents)
  | some data => ((.ok, if out then some data else none), Function.update contents key none)

def search (contents : Contents) (key : Word) : Option (Word × Word) :=
  (contents key).map fun data => (key, data)

end Contents

/-- The reply to a call, and the contents after it. -/
def Call.meaning : Call → Contents → Reply × Contents
  | .insert key data isUpdate oldData, contents =>
      let result := contents.insert key data isUpdate oldData
      (.inserted result.1.1 result.1.2, result.2)
  | .remove key out, contents =>
      let result := contents.remove key out
      (.removed result.1.1 result.1.2, result.2)
  | .search key, contents => (.searched (contents.search key), contents)

/-- The replies to a sequence of calls, and the contents after it. -/
def meaning : List Call → Contents → List Reply × Contents
  | [], contents => ([], contents)
  | call :: calls, contents =>
      let first := call.meaning contents
      let rest := meaning calls first.2
      (first.1 :: rest.1, rest.2)

end GbfLibrary.Rbtree
