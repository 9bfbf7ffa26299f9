import Mathlib.Data.Option.Basic

/-!
# Read/write locks

`lbs_rwlock.c`, of which `thp_rwlock.c` is a copy. A critical section is a mutex
that its owner may enter again; `RecursionCount` counts the owner's entries.
-/

set_option autoImplicit false

namespace GbfLibrary.Lock

/-- `lbs_lock_t` for the threads `T`. -/
structure RwLock (T : Type) where
  owner : Option T
  recursionCount : Nat
  reader : Int
  writer : Nat

namespace RwLock

variable {T : Type} [DecidableEq T]

/-- `lbs_rwlock_init`. -/
def init : RwLock T := ⟨none, 0, 0, 0⟩

/-- `EnterCriticalSection`, which waits (`none`) while another thread is inside. -/
def enterCriticalSection (thread : T) (lock : RwLock T) : Option (RwLock T) :=
  if lock.owner = none ∨ lock.owner = some thread then
    some { lock with owner := some thread, recursionCount := lock.recursionCount + 1 }
  else none

def leaveCriticalSection (lock : RwLock T) : RwLock T :=
  if lock.recursionCount ≤ 1 then { lock with owner := none, recursionCount := 0 }
  else { lock with recursionCount := lock.recursionCount - 1 }

/-- `lbs_rwlock_rlock` and what it returns. -/
def rlock (thread : T) (lock : RwLock T) : Option (Nat × RwLock T) :=
  match lock.enterCriticalSection thread with
  | none => none
  | some lock =>
      if lock.writer ≠ 0 then some (1, lock.leaveCriticalSection)
      else some (0, { lock with reader := lock.reader + 1 }.leaveCriticalSection)

/-- `lbs_rwlock_wlock` up to its loop: the critical section is entered, and a
thread that is the writer already has what it wants. -/
def wlockEnter (thread : T) (lock : RwLock T) : Option (Bool × RwLock T) :=
  match lock.enterCriticalSection thread with
  | none => none
  | some lock => some (lock.writer ≠ 0, lock)

/-- The loop of `lbs_rwlock_wlock` waits for the readers. -/
def wlockGrant (lock : RwLock T) : Option (RwLock T) :=
  if lock.reader = 0 then some { lock with writer := 1 } else none

/-- `lbs_rwlock_unlock`. -/
def unlock (lock : RwLock T) : RwLock T :=
  if lock.writer = 0 then { lock with reader := lock.reader - 1 }
  else if lock.recursionCount = 1 then { lock with writer := 0 }.leaveCriticalSection
  else lock.leaveCriticalSection

end RwLock

end GbfLibrary.Lock
