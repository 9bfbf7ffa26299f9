import GbfLibrary.Hash.Context
import GbfLibrary.Streams.Rounds

/-!
# MD5

`md5.c`. The 64 statements of `hash_md5_transform` are the table `hashMd5Statements`.
-/

set_option autoImplicit false

namespace GbfLibrary.Hash

open Memory Stdlbs Streams

namespace Md5

/-- The variables of `hash_md5_transform`. -/
inductive Register where
  | a | b | c | d
  deriving DecidableEq

/-- The macros of the four rounds. -/
inductive Basic where
  | F | G | H | I
  deriving DecidableEq

end Md5

/-- `state` of `MD5_CTX`. -/
@[ext]
structure Md5State where
  a : Word
  b : Word
  c : Word
  d : Word
  deriving DecidableEq

namespace Md5State

def get (s : Md5State) : Md5.Register → Word
  | .a => s.a
  | .b => s.b
  | .c => s.c
  | .d => s.d

def set (s : Md5State) (register : Md5.Register) (word : Word) : Md5State :=
  match register with
  | .a => { s with a := word }
  | .b => { s with b := word }
  | .c => { s with c := word }
  | .d => { s with d := word }

end Md5State

namespace Md5

def Basic.apply : Basic → Word → Word → Word → Word
  | .F, x, y, z => (x &&& y) ||| (~~~x &&& z)
  | .G, x, y, z => (x &&& z) ||| (y &&& ~~~z)
  | .H, x, y, z => x ^^^ y ^^^ z
  | .I, x, y, z => y ^^^ (x ||| ~~~z)

/-- `ROTATE_LEFT`. -/
def rotateLeft (x : Word) (n : Nat) : Word := (x <<< n) ||| (x >>> (32 - n))

/-- A statement of `hash_md5_transform`: `x` is the index into the block's words. -/
structure Statement where
  basic : Basic
  a : Register
  b : Register
  c : Register
  d : Register
  x : Nat
  s : Nat
  ac : Word
  deriving DecidableEq

/-- What the macros `FF`, `GG`, `HH` and `II` do. -/
def Statement.run (x : List Word) (line : Statement) (vars : Md5State) : Md5State :=
  let vars := vars.set line.a (vars.get line.a +
    (line.basic.apply (vars.get line.b) (vars.get line.c) (vars.get line.d) + x.getD line.x 0 + line.ac))
  let vars := vars.set line.a (rotateLeft (vars.get line.a) line.s)
  vars.set line.a (vars.get line.a + vars.get line.b)

def FF : Register → Register → Register → Register → Nat → Nat → Word → Statement := .mk .F
def GG : Register → Register → Register → Register → Nat → Nat → Word → Statement := .mk .G
def HH : Register → Register → Register → Register → Nat → Nat → Word → Statement := .mk .H
def II : Register → Register → Register → Register → Nat → Nat → Word → Statement := .mk .I

def S11 : Nat := 7
def S12 : Nat := 12
def S13 : Nat := 17
def S14 : Nat := 22
def S21 : Nat := 5
def S22 : Nat := 9
def S23 : Nat := 14
def S24 : Nat := 20
def S31 : Nat := 4
def S32 : Nat := 11
def S33 : Nat := 16
def S34 : Nat := 23
def S41 : Nat := 6
def S42 : Nat := 10
def S43 : Nat := 15
def S44 : Nat := 21

open Register in
def hashMd5Statements : List Statement :=
  [FF a b c d 0 S11 0xd76aa478, FF d a b c 1 S12 0xe8c7b756,
   FF c d a b 2 S13 0x242070db, FF b c d a 3 S14 0xc1bdceee,
   FF a b c d 4 S11 0xf57c0faf, FF d a b c 5 S12 0x4787c62a,
   FF c d a b 6 S13 0xa8304613, FF b c d a 7 S14 0xfd469501,
   FF a b c d 8 S11 0x698098d8, FF d a b c 9 S12 0x8b44f7af,
   FF c d a b 10 S13 0xffff5bb1, FF b c d a 11 S14 0x895cd7be,
   FF a b c d 12 S11 0x6b901122, FF d a b c 13 S12 0xfd987193,
   FF c d a b 14 S13 0xa679438e, FF b c d a 15 S14 0x49b40821,
   GG a b c d 1 S21 0xf61e2562, GG d a b c 6 S22 0xc040b340,
   GG c d a b 11 S23 0x265e5a51, GG b c d a 0 S24 0xe9b6c7aa,
   GG a b c d 5 S21 0xd62f105d, GG d a b c 10 S22 0x2441453,
   GG c d a b 15 S23 0xd8a1e681, GG b c d a 4 S24 0xe7d3fbc8,
   GG a b c d 9 S21 0x21e1cde6, GG d a b c 14 S22 0xc33707d6,
   GG c d a b 3 S23 0xf4d50d87, GG b c d a 8 S24 0x455a14ed,
   GG a b c d 13 S21 0xa9e3e905, GG d a b c 2 S22 0xfcefa3f8,
   GG c d a b 7 S23 0x676f02d9, GG b c d a 12 S24 0x8d2a4c8a,
   HH a b c d 5 S31 0xfffa3942, HH d a b c 8 S32 0x8771f681,
   HH c d a b 11 S33 0x6d9d6122, HH b c d a 14 S34 0xfde5380c,
   HH a b c d 1 S31 0xa4beea44, HH d a b c 4 S32 0x4bdecfa9,
   HH c d a b 7 S33 0xf6bb4b60, HH b c d a 10 S34 0xbebfbc70,
   HH a b c d 13 S31 0x289b7ec6, HH d a b c 0 S32 0xeaa127fa,
   HH c d a b 3 S33 0xd4ef3085, HH b c d a 6 S34 0x4881d05,
   HH a b c d 9 S31 0xd9d4d039, HH d a b c 12 S32 0xe6db99e5,
   HH c d a b 15 S33 0x1fa27cf8, HH b c d a 2 S34 0xc4ac5665,
   II a b c d 0 S41 0xf4292244, II d a b c 7 S42 0x432aff97,
   II c d a b 14 S43 0xab9423a7, II b c d a 5 S44 0xfc93a039,
   II a b c d 12 S41 0x655b59c3, II d a b c 3 S42 0x8f0ccc92,
   II c d a b 10 S43 0xffeff47d, II b c d a 1 S44 0x85845dd1,
   II a b c d 8 S41 0x6fa87e4f, II d a b c 15 S42 0xfe2ce6e0,
   II c d a b 6 S43 0xa3014314, II b c d a 13 S44 0x4e0811a1,
   II a b c d 4 S41 0xf7537e82, II d a b c 11 S42 0xbd3af235,
   II c d a b 2 S43 0x2ad7d2bb, II b c d a 9 S44 0xeb86d391]

def PADDING : Bytes := 0x80 :: List.replicate 63 0

end Md5

open Md5

/-- `hash_md5_decode`. -/
def hashMd5Decode (input : Bytes) (len : Nat) : List Word :=
  (List.range (len / 4)).map fun i =>
    let j := 4 * i
    (input.getD j 0).setWidth 32 ||| ((input.getD (j + 1) 0).setWidth 32 <<< 8) |||
      ((input.getD (j + 2) 0).setWidth 32 <<< 16) ||| ((input.getD (j + 3) 0).setWidth 32 <<< 24)

/-- `hash_md5_encode`. -/
def hashMd5Encode (input : List Word) (len : Nat) : Bytes :=
  (List.range (len / 4)).flatMap fun i =>
    let word := input.getD i 0
    [(word &&& 0xff).setWidth 8, ((word >>> 8) &&& 0xff).setWidth 8, ((word >>> 16) &&& 0xff).setWidth 8,
      ((word >>> 24) &&& 0xff).setWidth 8]

/-- `hash_md5_transform`. -/
def hashMd5Transform (state : Md5State) (block : Bytes) : Md5State :=
  let x := hashMd5Decode block 64
  let vars := hashMd5Statements.foldl (fun vars line => line.run x vars) state
  ⟨state.a + vars.a, state.b + vars.b, state.c + vars.c, state.d + vars.d⟩

/-- `hash_md5_init`, which leaves the buffer as it is. -/
def hashMd5Init (context : Context Md5State) : Context Md5State :=
  { context with state := ⟨0x67452301, 0xefcdab89, 0x98badcfe, 0x10325476⟩, count0 := 0, count1 := 0 }

/-- `hash_md5_update`. -/
def hashMd5Update (context : Context Md5State) (input : Bytes) (inputLen : Word) : Option (Context Md5State) :=
  let index := (context.count0 >>> 3) &&& 0x3F
  let count0 := context.count0 + (inputLen <<< 3)
  let count1 := (if count0 < inputLen <<< 3 then context.count1 + 1 else context.count1) + (inputLen >>> 29)
  let partLen := 64 - index
  takeIn hashMd5Transform (decide (inputLen ≥ partLen)) index input inputLen { context with count0, count1 }

/-- `hash_md5_final`: the digest and the context, which is wiped. -/
def hashMd5Final (context : Context Md5State) : Option (Bytes × Context Md5State) := do
  let bits := hashMd5Encode [context.count0, context.count1] 8
  let index := (context.count0 >>> 3) &&& 0x3f
  let padLen := if index < 56 then 56 - index else 120 - index
  let context ← hashMd5Update context PADDING padLen
  let context ← hashMd5Update context bits 8
  let digest := hashMd5Encode [context.state.a, context.state.b, context.state.c, context.state.d] 16
  return (digest, { state := ⟨0, 0, 0, 0⟩, count0 := 0, count1 := 0, buffer := List.replicate 64 0 })

/-- `hash_md5_string`: the context is on the stack, and `string` is the block that its pointer leads into. -/
def hashMd5String (context : Context Md5State) (string : Bytes) : Option Bytes := do
  let len ← lbsStrlen string
  let context ← hashMd5Update (hashMd5Init context) string len
  let (digest, _) ← hashMd5Final context
  return digest

end GbfLibrary.Hash
