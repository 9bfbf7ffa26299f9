import GbfLibrary.Enet.HttpParser

/-!
# HTTP objects

`enet_http_obj` of `enet_tools.c`. Only its owner points to a block, so that a pointer is the block it leads
to, or null; what was not stored yet is not known. The response is one of the buffers of a heap of its own.
-/

set_option autoImplicit false

namespace GbfLibrary.Enet.Http

open Memory

/-- `enet_http_obj`. -/
structure HttpObj where
  method : Int
  addr : BitVec 32
  port : Int
  headers : List Header
  url : Option Buffer
  host : Option Buffer
  uri : Option Buffer
  body : Option Buffer
  bodySize : Int
  response : Option Nat
  resSize : Nat
  parsedRes : Option Response
  deriving DecidableEq

/-- An object as `enet_http_new_handle` makes it, with the method `ENET_HTTP_RAW`. -/
def HttpObj.new : HttpObj := ⟨-1, 0, 0, [], none, none, none, none, 0, none, 0, none⟩

/-- What `malloc` returns. -/
def Buffer.alloc (size : Nat) : Buffer := List.replicate size none

/-- `strcpy`. -/
def Buffer.strcpy (buffer : Buffer) (str : Bytes) : Option Buffer :=
  if str.length < buffer.length then some (buffer.filled (str ++ [0])) else none

/-- The string that a pointer leads to. -/
def textOf (pointer : Option Buffer) : Option Bytes := pointer.bind Buffer.string

namespace Buffer

variable {buffer : Buffer} {str : Bytes}

@[simp] theorem length_alloc (size : Nat) : (alloc size).length = size := List.length_replicate

theorem strcpy_apply (fits : str.length < buffer.length) : buffer.strcpy str = some (buffer.filled (str ++ [0])) :=
  if_pos fits

theorem strcpy_eq_none (full : buffer.length ≤ str.length) : buffer.strcpy str = none :=
  if_neg (Nat.not_lt.mpr full)

theorem textOf_strcpy (good : 0 ∉ str) (buffer : Buffer) : textOf (some (buffer.filled (str ++ [0]))) = some str := by
  rw [textOf, Option.bind_some, string_filled, cut_eq_self good]

end Buffer

end GbfLibrary.Enet.Http
