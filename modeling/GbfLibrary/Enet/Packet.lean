import GbfLibrary.Errno
import GbfLibrary.Memory.Block

/-!
# Packets on a stream

`enet_packet.c`: a packet is a head, the data and a tail. `unsigned` and `int` are 32 bits
wide, an assertion that does not hold is a fault, and so is every access outside the input,
below the size of the buffer or outside the output.
-/

set_option autoImplicit false

namespace GbfLibrary.Enet

open Memory

def ENET_DEFAULT_SOCKET_BUFFER : Nat := 64 * 1024

/-- `ENET_DATA_PACKET_HEAD`. -/
structure Head where
  magic : BitVec 32
  magicReverse : BitVec 32
  length : BitVec 32
  lengthReverse : BitVec 32
  deriving DecidableEq

/-- `ENET_DATA_PACKET_TAIL`. -/
structure Tail where
  magic : BitVec 32
  check : BitVec 32
  deriving DecidableEq

def HEAD_SIZE : Nat := 16
def TAIL_SIZE : Nat := 8

/-- The room behind a client object whose server uses packets. -/
def BUFFER_CAPACITY : Nat := HEAD_SIZE + TAIL_SIZE + ENET_DEFAULT_SOCKET_BUFFER

def Head.toBytes (head : Head) : Bytes :=
  ofWord head.magic ++ ofWord head.magicReverse ++ ofWord head.length ++ ofWord head.lengthReverse

def Head.ofBytes (bytes : Bytes) : Head :=
  ⟨wordAt bytes 0, wordAt bytes 4, wordAt bytes 8, wordAt bytes 12⟩

def Tail.toBytes (tail : Tail) : Bytes :=
  ofWord tail.magic ++ ofWord tail.check

def getPacketTailCheck (head : Head) (tail : Tail) : BitVec 32 :=
  head.magic ^^^ head.length ^^^ tail.magic

def isHeadValid (head : Head) : Bool :=
  head.magic == 0x3244 && head.magicReverse == head.magic ^^^ 0xffffffff &&
    head.lengthReverse == head.length ^^^ 0xffffffff

/-- `enet_pack_data`; `outSize` is the room for the packet, `int` sizes are positive. -/
def packData (input : Bytes) (outSize : Nat) : Option Bytes :=
  let magic : BitVec 32 := 0x3244
  let length := BitVec.ofNat 32 input.length
  let head : Head := ⟨magic, magic ^^^ 0xffffffff, length, length ^^^ 0xffffffff⟩
  let tailMagic := head.magic >>> 16 ||| head.magic <<< 16
  let tail : Tail := ⟨tailMagic, getPacketTailCheck head ⟨tailMagic, 0⟩⟩
  if outSize < HEAD_SIZE + input.length + TAIL_SIZE then none
  else some (head.toBytes ++ input ++ tail.toBytes)

/-- What `enet_unpack_data` leaves: what is stored through `out` and `out_size`, and the
bytes of the buffer up to `*buffer_size`. -/
structure Unpacked where
  status : Status
  out : Bytes
  outSize : Nat
  buffer : Bytes
  deriving DecidableEq

/-- `enet_unpack_data` once the buffer holds a head. The input is read from `base` on. -/
def unpackResumed (input : Bytes) (base size : Nat) (buffer : Bytes) (outSize : Nat) :
    Option Unpacked := do
  let bytes ← read buffer 0 HEAD_SIZE
  let length := (Head.ofBytes bytes).length.toNat
  if unsigned (size + buffer.length) < unsigned (length + HEAD_SIZE + TAIL_SIZE) then do
    let all ← read input base size
    let all ← fit BUFFER_CAPACITY buffer.length all
    return ⟨.uncompletePacket, [], 0, buffer ++ all⟩
  else do
    let i := signed (buffer.length - HEAD_SIZE)
    let j := signed (length - i)
    let k := signed (size - j - TAIL_SIZE)
    let out ← (if 0 < j then do
        let first ← read buffer HEAD_SIZE (unsigned i)
        let first ← fit outSize 0 first
        let second ← read input base (unsigned j)
        let second ← fit outSize (unsigned i) second
        return first ++ second
      else do
        let all ← read buffer HEAD_SIZE length
        fit outSize 0 all)
    if 0 < k then do
      let rest ← read input (base + j + TAIL_SIZE) (unsigned k)
      let rest ← fit BUFFER_CAPACITY 0 rest
      return ⟨.ok, out, length, rest⟩
    else return ⟨.ok, out, length, []⟩

/-- `enet_unpack_data`; `size` is the size of the input, `outSize` the room for the output. -/
def unpackData (input : Bytes) (size : Nat) (buffer : Bytes) (outSize : Nat) : Option Unpacked :=
  if buffer.length = 0 ∧ size = 0 then some ⟨.uncompletePacket, [], outSize, buffer⟩
  else if buffer.length = 0 then
    if HEAD_SIZE ≤ size then do
      let bytes ← read input 0 HEAD_SIZE
      let head := Head.ofBytes bytes
      let length := head.length.toNat
      if isHeadValid head = false then return ⟨.dataCorrupt, [], outSize, buffer⟩
      else if unsigned (length + HEAD_SIZE + TAIL_SIZE) ≤ size then
        if outSize < length then none
        else do
          let out ← read input HEAD_SIZE length
          if length < unsigned (size - HEAD_SIZE - TAIL_SIZE) then do
            let rest ← read input (HEAD_SIZE + length) (unsigned (size - HEAD_SIZE - length))
            let rest ← fit BUFFER_CAPACITY 0 rest
            return ⟨.ok, out, length, rest⟩
          else return ⟨.ok, out, length, buffer⟩
      else do
        let all ← read input 0 size
        let all ← fit BUFFER_CAPACITY 0 all
        return ⟨.uncompletePacket, [], 0, all⟩
    else do
      let all ← read input 0 size
      let all ← fit BUFFER_CAPACITY 0 all
      return ⟨.uncompletePacket, [], outSize, all⟩
  else if buffer.length < HEAD_SIZE then
    if unsigned (size + buffer.length) ≤ HEAD_SIZE then do
      let all ← read input 0 size
      let all ← fit BUFFER_CAPACITY buffer.length all
      return ⟨.uncompletePacket, [], outSize, buffer ++ all⟩
    else do
      let first ← read input 0 HEAD_SIZE
      let first ← fit BUFFER_CAPACITY buffer.length first
      unpackResumed input HEAD_SIZE (unsigned (size - HEAD_SIZE)) (buffer ++ first) outSize
  else unpackResumed input 0 size buffer outSize

end GbfLibrary.Enet
