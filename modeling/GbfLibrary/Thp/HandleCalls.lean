import GbfLibrary.Handles.World

/-!
# Locking pool handles

`thp_handle.c` as one thread runs it.
-/

set_option autoImplicit false

namespace GbfLibrary.Thp.Calls

open Lock Handles Call

/-- `thp_del_handle`, which takes no lock. -/
def delHandle (_handle : Nat) : Call Unit := return ()

def handleUnlock (handle : Nat) : Call Status := do
  if handle = 0 then return .invHandle
  let alive ← isAlive (.thp handle)
  Code.unlock (.thp handle)
  wlock .thpDb
  Code.change (.thp handle) Account.dropReference
  let left ← refcnt (.thp handle)
  whenever (alive = false ∧ left = 0) (delHandle handle)
  Code.unlock .thpDb
  return .ok

/-- What `thp_handle_rlock` and `thp_handle_wlock` do once they have the lock. -/
def handleCheck (handle : Nat) : Call Status := do
  let alive ← isAlive (.thp handle)
  if alive = false then do
    let _ ← handleUnlock handle
    return .invHandle
  else return .ok

def handleRlock (handle : Nat) : Call Status := do
  if handle = 0 then return .invHandle
  let found ← countHandle .thpDb (.thp handle)
  if found = false then return .invHandle
  rlock (.thp handle)
  handleCheck handle

def handleWlock (handle : Nat) : Call Status := do
  if handle = 0 then return .invParam
  let found ← countHandle .thpDb (.thp handle)
  if found = false then return .invHandle
  wlock (.thp handle)
  handleCheck handle

section Handles

variable {pre : Accounts → Prop} {handle : Nat}

/-- A handle is given back by a thread that has counted and locked it. -/
theorem handleUnlock_turns {add : Account → Account} (notNull : handle ≠ 0)
    (drops : ∀ accounts, pre accounts →
      (add (accounts (.thp handle)).addReference).drop = (accounts (.thp handle)).addReference) :
    Turns pre (Ledger.change (.thp handle) fun account => add account.addReference) (handleUnlock handle)
      fun _ => id := by
  have different : Lockable.thp handle ≠ .thpDb := by simp
  unfold handleUnlock
  rw [if_neg notNull]
  refine .bind (.ask _) fun alive => .bind (unlock_counted drops) fun _ => .bind (.wlock _) fun _ => ?_
  refine .bind (discount_inner different) fun _ => .bind (refcnt_turns _) fun left => ?_
  refine .bind (whenever_turns fun _ => .pure rfl) fun _ => ?_
  exact .bind (unlock_write .thpDb) fun _ => .pure rfl

/-- A lock that was taken is kept if the handle is alive, and given back if it is not. -/
theorem handleCheck_turns {add : Account → Account} (notNull : handle ≠ 0)
    (drops : ∀ accounts, pre accounts →
      (add (accounts (.thp handle)).addReference).drop = (accounts (.thp handle)).addReference) :
    Turns pre (Ledger.change (.thp handle) fun account => add account.addReference) (handleCheck handle)
      fun rc ledger => if rc = .ok then ledger.change (.thp handle) fun account => add account.addReference
        else ledger := by
  refine .bind (.ask _) fun alive => .ite (fun dead => ?_) fun _ => .pure rfl
  exact .bind (handleUnlock_turns notNull drops) fun _ => .pure rfl

theorem handleRlock_takes (idle : ∀ accounts, pre accounts → Idle (.thp handle) accounts) :
    Takes pre (reading .thp handle) (handleRlock handle) :=
  lockHandle_takes (by simp) (by simp) (rlock_counted idle) fun notNull =>
    handleCheck_turns notNull fun accounts allowed => Account.drop_addRead (idle accounts allowed)

theorem handleWlock_takes (handle : Nat) : Takes pre (writing .thp handle) (handleWlock handle) :=
  lockHandle_takes (by simp) (by simp) (wlock_counted _) fun notNull =>
    handleCheck_turns notNull fun _ _ => Account.drop_addWrite _

theorem handleUnlock_reading (idle : ∀ accounts, pre accounts → Idle (.thp handle) accounts) :
    Turns pre (reading .thp handle) (handleUnlock handle) fun _ => id := by
  by_cases null : handle = 0
  · rw [reading, if_pos null, handleUnlock, if_pos null]
    exact .pure rfl
  · rw [reading_of_ne null]
    exact handleUnlock_turns null fun ledger allowed => Account.drop_addRead (idle ledger allowed)

theorem handleUnlock_writing (handle : Nat) :
    Turns pre (writing .thp handle) (handleUnlock handle) fun _ => id := by
  by_cases null : handle = 0
  · rw [writing, if_pos null, handleUnlock, if_pos null]
    exact .pure rfl
  · rw [writing_of_ne null]
    exact handleUnlock_turns null fun ledger _ => Account.drop_addWrite _

/-- A handle is locked to write, and the code gives it back. -/
theorem writeLocked {α : Type} {failed : Status → α} {body : Call α}
    (turns : Turns pre (writing .thp handle) body fun _ => id) :
    Keeps pre (do
      let rc ← handleWlock handle
      if rc ≠ .ok then return failed rc
      body) :=
  (handleWlock_takes handle).keeps turns

/-- A handle is locked to read, and the code gives it back. -/
theorem readLocked {α : Type} {failed : Status → α} {body : Call α}
    (idle : ∀ accounts, pre accounts → Idle (.thp handle) accounts)
    (turns : Turns pre (reading .thp handle) body fun _ => id) :
    Keeps pre (do
      let rc ← handleRlock handle
      if rc ≠ .ok then return failed rc
      body) :=
  (handleRlock_takes idle).keeps turns

end Handles

end GbfLibrary.Thp.Calls
