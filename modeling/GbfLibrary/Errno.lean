import Mathlib.Init

/-!
# Status codes

The codes of `lbs_errno.h` that the modelled functions return.
-/

set_option autoImplicit false

namespace GbfLibrary

/-- `lbs_status_t`. -/
inductive Status where
  | ok
  | invParam
  | notFound
  | noMemory
  | alreadyExist
  | invKey
  | emptyTree
  | internalErr
  | invHandle
  | noTask
  | watcherNotReady
  | suspendByOthers
  | uncompletePacket
  | dataCorrupt
  | handleTypeMismatch
  | invFlag
  | bufferTooLarge
  | timeOut
  | sockError
  | winError
  | watcherExist
  | socketUnwritable
  | tooManySockets
  | bufferOverflow
  | networkIssue
  | remoteDisconnect
  | remoteRefused
  /-- A code of the system, or of a library that is not modelled. -/
  | system (code : Int)
  deriving DecidableEq, Repr

/-- The status that a number stands for. -/
def Status.ofCode (code : Int) : Status := if code = 0 then .ok else .system code

end GbfLibrary
