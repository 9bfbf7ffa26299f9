import GbfLibrary.Hash.Context
import GbfLibrary.Streams.Rounds

/-!
# SHA-1

`sha1.c` as it is built on a little-endian machine. The 80 statements of `hash_sha1_hash` are the table
`hashSha1Statements`.
-/

set_option autoImplicit false

namespace GbfLibrary.Hash

open Memory Stdlbs Streams

namespace Sha1

/-- The variables of `hash_sha1_hash`. -/
inductive Register where
  | a | b | c | d | e
  deriving DecidableEq

/-- The macros of the rounds. -/
inductive Operation where
  | R0 | R1 | R2 | R3 | R4
  deriving DecidableEq

end Sha1

/-- `state` of `SHA1_CTX`. -/
@[ext]
structure Sha1State where
  a : Word
  b : Word
  c : Word
  d : Word
  e : Word
  deriving DecidableEq

namespace Sha1State

def get (s : Sha1State) : Sha1.Register → Word
  | .a => s.a
  | .b => s.b
  | .c => s.c
  | .d => s.d
  | .e => s.e

def set (s : Sha1State) (register : Sha1.Register) (word : Word) : Sha1State :=
  match register with
  | .a => { s with a := word }
  | .b => { s with b := word }
  | .c => { s with c := word }
  | .d => { s with d := word }
  | .e => { s with e := word }

end Sha1State

namespace Sha1

def rol (value : Word) (bits : Nat) : Word := (value <<< bits) ||| (value >>> (32 - bits))

/-- `block->l` after `blk0(i)`. -/
def blk0 (l : List Word) (i : Nat) : List Word :=
  l.set i ((rol (l.getD i 0) 24 &&& 0xFF00FF00) ||| (rol (l.getD i 0) 8 &&& 0x00FF00FF))

/-- `block->l` after `blk(i)`. -/
def blk (l : List Word) (i : Nat) : List Word :=
  l.set (i % 16) (rol (l.getD ((i + 13) % 16) 0 ^^^ l.getD ((i + 8) % 16) 0 ^^^ l.getD ((i + 2) % 16) 0 ^^^
    l.getD (i % 16) 0) 1)

/-- A statement of `hash_sha1_hash`. -/
structure Statement where
  operation : Operation
  v : Register
  w : Register
  x : Register
  y : Register
  z : Register
  i : Nat
  deriving DecidableEq

def Operation.mix : Operation → Word → Word → Word → Word
  | .R0, w, x, y => (w &&& (x ^^^ y)) ^^^ y
  | .R1, w, x, y => (w &&& (x ^^^ y)) ^^^ y
  | .R2, w, x, y => w ^^^ x ^^^ y
  | .R3, w, x, y => ((w ||| x) &&& y) ||| (w &&& x)
  | .R4, w, x, y => w ^^^ x ^^^ y

def Operation.constant : Operation → Word
  | .R0 => 0x5A827999
  | .R1 => 0x5A827999
  | .R2 => 0x6ED9EBA1
  | .R3 => 0x8F1BBCDC
  | .R4 => 0xCA62C1D6

/-- What a macro does to the variables, `blk` being the value of `blk0(i)` or `blk(i)` in it. -/
def Statement.vars (line : Statement) (blk : Word) (vars : Sha1State) : Sha1State :=
  let vars := vars.set line.z (vars.get line.z +
    (line.operation.mix (vars.get line.w) (vars.get line.x) (vars.get line.y) + blk + line.operation.constant +
      rol (vars.get line.v) 5))
  vars.set line.w (rol (vars.get line.w) 30)

/-- What the macros `R0` to `R4` do to the variables and `block->l`. -/
def Statement.run (line : Statement) : Sha1State × List Word → Sha1State × List Word
  | (vars, l) =>
      let l := if line.operation = .R0 then blk0 l line.i else blk l line.i
      (line.vars (l.getD (line.i % 16) 0) vars, l)

def R0 : Register → Register → Register → Register → Register → Nat → Statement := .mk .R0
def R1 : Register → Register → Register → Register → Register → Nat → Statement := .mk .R1
def R2 : Register → Register → Register → Register → Register → Nat → Statement := .mk .R2
def R3 : Register → Register → Register → Register → Register → Nat → Statement := .mk .R3
def R4 : Register → Register → Register → Register → Register → Nat → Statement := .mk .R4

open Register in
def hashSha1Statements : List Statement :=
  [R0 a b c d e 0, R0 e a b c d 1, R0 d e a b c 2, R0 c d e a b 3,
   R0 b c d e a 4, R0 a b c d e 5, R0 e a b c d 6, R0 d e a b c 7,
   R0 c d e a b 8, R0 b c d e a 9, R0 a b c d e 10, R0 e a b c d 11,
   R0 d e a b c 12, R0 c d e a b 13, R0 b c d e a 14, R0 a b c d e 15,
   R1 e a b c d 16, R1 d e a b c 17, R1 c d e a b 18, R1 b c d e a 19,
   R2 a b c d e 20, R2 e a b c d 21, R2 d e a b c 22, R2 c d e a b 23,
   R2 b c d e a 24, R2 a b c d e 25, R2 e a b c d 26, R2 d e a b c 27,
   R2 c d e a b 28, R2 b c d e a 29, R2 a b c d e 30, R2 e a b c d 31,
   R2 d e a b c 32, R2 c d e a b 33, R2 b c d e a 34, R2 a b c d e 35,
   R2 e a b c d 36, R2 d e a b c 37, R2 c d e a b 38, R2 b c d e a 39,
   R3 a b c d e 40, R3 e a b c d 41, R3 d e a b c 42, R3 c d e a b 43,
   R3 b c d e a 44, R3 a b c d e 45, R3 e a b c d 46, R3 d e a b c 47,
   R3 c d e a b 48, R3 b c d e a 49, R3 a b c d e 50, R3 e a b c d 51,
   R3 d e a b c 52, R3 c d e a b 53, R3 b c d e a 54, R3 a b c d e 55,
   R3 e a b c d 56, R3 d e a b c 57, R3 c d e a b 58, R3 b c d e a 59,
   R4 a b c d e 60, R4 e a b c d 61, R4 d e a b c 62, R4 c d e a b 63,
   R4 b c d e a 64, R4 a b c d e 65, R4 e a b c d 66, R4 d e a b c 67,
   R4 c d e a b 68, R4 b c d e a 69, R4 a b c d e 70, R4 e a b c d 71,
   R4 d e a b c 72, R4 c d e a b 73, R4 b c d e a 74, R4 a b c d e 75,
   R4 e a b c d 76, R4 d e a b c 77, R4 c d e a b 78, R4 b c d e a 79]

end Sha1

open Sha1

/-- `hash_sha1_hash`. The union of its block lays the bytes out as words, the lowest byte first. -/
def hashSha1Hash (state : Sha1State) (buffer : Bytes) : Sha1State :=
  let l := (List.range 16).map fun i => wordAt buffer (4 * i)
  let (vars, _) := hashSha1Statements.foldl (fun work line => line.run work) (state, l)
  ⟨state.a + vars.a, state.b + vars.b, state.c + vars.c, state.d + vars.d, state.e + vars.e⟩

/-- `hash_sha1_init`, which leaves the buffer as it is. -/
def hashSha1Init (context : Context Sha1State) : Context Sha1State :=
  { context with
    state := ⟨0x67452301, 0xEFCDAB89, 0x98BADCFE, 0x10325476, 0xC3D2E1F0⟩, count0 := 0, count1 := 0 }

/-- `hash_sha1_process`. -/
def hashSha1Process (context : Context Sha1State) (data : Bytes) (len : Word) : Option (Context Sha1State) :=
  let j := context.count0
  let count0 := context.count0 + (len <<< 3)
  let count1 := (if count0 < j then context.count1 + 1 else context.count1) + (len >>> 29)
  let j := (j >>> 3) &&& 63
  takeIn hashSha1Hash (decide (j + len > 63)) j data len { context with count0, count1 }

/-- The loop of `hash_sha1_final` that pads with zeros. Without `fuel` it has not ended. -/
def hashSha1Pad : Nat → Context Sha1State → Option (Context Sha1State)
  | 0, _ => none
  | fuel + 1, context =>
      if context.count0 &&& 504 ≠ 448 then do
        let context ← hashSha1Process context [0x00] 1
        hashSha1Pad fuel context
      else some context

/-- `hash_sha1_final`: the digest and the context, which is wiped. -/
def hashSha1Final (context : Context Sha1State) : Option (Bytes × Context Sha1State) := do
  let finalcount : Bytes := (List.range 8).map fun i =>
    (((if i ≥ 4 then context.count0 else context.count1) >>> ((3 - i % 4) * 8)) &&& 255).setWidth 8
  let context ← hashSha1Process context [0x80] 1
  let context ← hashSha1Pad 64 context
  let context ← hashSha1Process context finalcount 8
  let state := [context.state.a, context.state.b, context.state.c, context.state.d, context.state.e]
  let digest := (List.range 20).map fun i => ((state.getD (i / 4) 0 >>> ((3 - i % 4) * 8)) &&& 255).setWidth 8
  return (digest, { state := ⟨0, 0, 0, 0, 0⟩, count0 := 0, count1 := 0, buffer := List.replicate 64 0 })

end GbfLibrary.Hash
