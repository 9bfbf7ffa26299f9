import GbfLibrary.Handles.World

/-!
# Locking network handles

`enet_handle.c` as one thread runs it.
-/

set_option autoImplicit false

namespace GbfLibrary.Enet.Calls

open Lock Handles Call

/-- `enet_delete_handle`. The lock is given back, wherever the handle goes. -/
def deleteHandle (handle : Nat) : Call Unit := do
  if handle = 0 then return ()
  wlock (.enet handle)
  let _ ← isAlive (.enet handle)
  Code.unlock (.enet handle)

/-- What `enet_handle_unlock` does with `refcnt`. -/
def dropReferenced (handle : Nat) : Call Unit := do
  let referenced ← refcnt (.enet handle)
  whenever (referenced ≠ 0) (Code.change (.enet handle) Account.dropReference)

def handleUnlock (handle : Nat) : Call Status := do
  if handle = 0 then return .invHandle
  let alive ← isAlive (.enet handle)
  Code.unlock (.enet handle)
  wlock .enetDb
  dropReferenced handle
  let left ← refcnt (.enet handle)
  whenever (alive = false ∧ left = 0) (deleteHandle handle)
  Code.unlock .enetDb
  return .ok

/-- What `enet_handle_rlock` and `enet_handle_wlock` do once they have the lock. -/
def handleCheck (handle : Nat) : Call Status := do
  let alive ← isAlive (.enet handle)
  let object ← object handle
  if alive = false ∨ object = .null then do
    let _ ← handleUnlock handle
    return .invHandle
  else return .ok

def handleRlock (handle : Nat) : Call Status := do
  if handle = 0 then return .invHandle
  let found ← countHandle .enetDb (.enet handle)
  if found = false then return .invHandle
  rlock (.enet handle)
  handleCheck handle

def handleWlock (handle : Nat) : Call Status := do
  if handle = 0 then return .invParam
  let found ← countHandle .enetDb (.enet handle)
  if found = false then return .invHandle
  wlock (.enet handle)
  handleCheck handle

/-- `enet_new_handle`: null without memory. -/
def newHandle : Call Nat := do
  let location ← answer
  let out ← answer
  whenever (location ≠ 0) (do
    wlock .enetDb
    Code.unlock .enetDb)
  if out = 0 then return 0
  let rc ← (if location = 0 then answer else pure 0)
  if rc ≠ 0 then return 0
  wlock .enetDb
  Code.unlock .enetDb
  return out.toNat

section Handles

variable {pre : Accounts → Prop} {before : Accounts → Accounts} {handle : Nat}

theorem deleteHandle_turns (handle : Nat) : Turns pre before (deleteHandle handle) fun _ => before := by
  refine .ite (fun _ => .pure rfl) fun _ => .bind (.wlock _) fun _ => .bind (.ask _) fun _ => ?_
  exact unlock_write (.enet handle)

/-- A thread that has counted a handle finds that it is referenced. -/
theorem dropReferenced_turns (handle : Nat) :
    Turns pre (fun ledger => ((before ledger).change (.enet handle) Account.addReference).change .enetDb Account.addWrite)
      (dropReferenced handle) fun _ ledger => (before ledger).change .enetDb Account.addWrite := by
  have different : Lockable.enet handle ≠ .enetDb := by simp
  intro world thread _ thread' ledger allowed has runs
  have counted : (thread.ledger (.enet handle)).refs ≠ 0 := by
    simp only [has, Ledger.change_apply_of_ne different, Ledger.change_apply_self]
    exact Nat.succ_ne_zero _
  have referenced : (thread.ledger (.enet handle)).refs + world.others thread.clock (.enet handle) ≠ 0 := by omega
  obtain ⟨left, middle, looks, runs⟩ := Code.bind_eq_some runs
  cases looks
  rw [whenever, if_pos referenced] at runs
  exact discount_inner different world ⟨thread.ledger, thread.clock + 1⟩ _ thread' ledger allowed has runs

theorem handleUnlock_turns {add : Account → Account} (notNull : handle ≠ 0)
    (drops : ∀ accounts, pre accounts →
      (add (accounts (.enet handle)).addReference).drop = (accounts (.enet handle)).addReference) :
    Turns pre (Ledger.change (.enet handle) fun account => add account.addReference) (handleUnlock handle)
      fun _ => id := by
  unfold handleUnlock
  rw [if_neg notNull]
  refine .bind (.ask _) fun alive => .bind (unlock_counted drops) fun _ => .bind (.wlock _) fun _ => ?_
  refine .bind (dropReferenced_turns handle) fun _ => .bind (refcnt_turns _) fun left => ?_
  refine .bind (whenever_turns fun _ => deleteHandle_turns handle) fun _ => ?_
  exact .bind (unlock_write .enetDb) fun _ => .pure rfl

theorem handleCheck_turns {add : Account → Account} (notNull : handle ≠ 0)
    (drops : ∀ accounts, pre accounts →
      (add (accounts (.enet handle)).addReference).drop = (accounts (.enet handle)).addReference) :
    Turns pre (Ledger.change (.enet handle) fun account => add account.addReference) (handleCheck handle)
      fun rc ledger => if rc = .ok then ledger.change (.enet handle) fun account => add account.addReference
        else ledger := by
  refine .bind (.ask _) fun alive => .bind (.ask _) fun object => .ite (fun _ => ?_) fun _ => .pure rfl
  exact .bind (handleUnlock_turns notNull drops) fun _ => .pure rfl

theorem handleRlock_takes (idle : ∀ accounts, pre accounts → Idle (.enet handle) accounts) :
    Takes pre (reading .enet handle) (handleRlock handle) :=
  lockHandle_takes (by simp) (by simp) (rlock_counted idle) fun notNull =>
    handleCheck_turns notNull fun accounts allowed => Account.drop_addRead (idle accounts allowed)

theorem handleWlock_takes (handle : Nat) : Takes pre (writing .enet handle) (handleWlock handle) :=
  lockHandle_takes (by simp) (by simp) (wlock_counted _) fun notNull =>
    handleCheck_turns notNull fun _ _ => Account.drop_addWrite _

theorem handleUnlock_reading (idle : ∀ accounts, pre accounts → Idle (.enet handle) accounts) :
    Turns pre (reading .enet handle) (handleUnlock handle) fun _ => id := by
  by_cases null : handle = 0
  · rw [reading, if_pos null, handleUnlock, if_pos null]
    exact .pure rfl
  · rw [reading_of_ne null]
    exact handleUnlock_turns null fun ledger allowed => Account.drop_addRead (idle ledger allowed)

theorem handleUnlock_writing (handle : Nat) :
    Turns pre (writing .enet handle) (handleUnlock handle) fun _ => id := by
  by_cases null : handle = 0
  · rw [writing, if_pos null, handleUnlock, if_pos null]
    exact .pure rfl
  · rw [writing_of_ne null]
    exact handleUnlock_turns null fun ledger _ => Account.drop_addWrite _

theorem newHandle_keeps : Keeps pre newHandle := by
  refine .bind (.ask _) fun location => .bind (.ask _) fun out => .bind (whenever_turns fun _ => ?_) fun _ => ?_
  · exact .bind (.wlock _) fun _ => unlock_write .enetDb
  · refine .ite (fun _ => .pure rfl) fun _ => .bind (.ite (fun _ => .ask _) fun _ => .pure rfl) fun rc => ?_
    refine .ite (fun _ => .pure rfl) fun _ => .bind (.wlock _) fun _ => ?_
    exact .bind (unlock_write .enetDb) fun _ => .pure rfl

end Handles

end GbfLibrary.Enet.Calls
