import GbfLibrary.Errno
import GbfLibrary.Lock.Ledger

/-!
# A thread between handles

What a thread that calls the libraries finds out about handles, one look after the other. The
other threads may do anything between two looks.
-/

set_option autoImplicit false

namespace GbfLibrary.Handles

open Lock

/-- What can be locked: the registries of the two libraries, and their handles. -/
inductive Lockable where
  | enetDb
  | enet (handle : Nat)
  | thpDb
  | thp (handle : Nat)
  deriving DecidableEq

/-- What `obj` of a network handle points to. -/
inductive EnetObject where
  | null
  | tcpClient
  | tcpServer
  | udp
  deriving DecidableEq

/-- What the thread gets to see at each look. -/
structure World where
  /-- No other thread has the lock in the end. -/
  grants : Nat → Lockable → Bool
  /-- The handle is in the registry of its library. -/
  registered : Nat → Lockable → Bool
  alive : Nat → Lockable → Bool
  /-- The references of the other threads. -/
  others : Nat → Lockable → Nat
  /-- `obj` of a network handle. -/
  object : Nat → Nat → EnetObject
  /-- `task_server` and `thread_watcher` of a pool, if it has an object. -/
  pool : Nat → Nat → Option (Nat × Nat)
  /-- What the system answers, and all other data. -/
  answer : Nat → Int

abbrev Call (α : Type) := Code World Lockable α

abbrev Accounts := Ledger Lockable

namespace Call

/-- A statement behind an `if`. -/
def whenever (c : Prop) [Decidable c] (body : Call Unit) : Call Unit := if c then body else return ()

def rlock (n : Lockable) : Call Unit := Code.rlock World.grants n

def wlock (n : Lockable) : Call Unit := Code.wlock World.grants n

def isRegistered (n : Lockable) : Call Bool := Code.ask fun world clock => world.registered clock n

def isAlive (n : Lockable) : Call Bool := Code.ask fun world clock => world.alive clock n

/-- A look at `obj` of a network handle. -/
def object (handle : Nat) : Call EnetObject := Code.ask fun world clock => world.object clock handle

/-- `refcnt`. -/
def refcnt (n : Lockable) : Call Nat := do
  let others ← Code.ask fun world clock => world.others clock n
  let mine ← Code.account n
  return mine.refs + others

/-- A call of the system, or a look at data that no lock depends on. -/
def answer : Call Int := Code.ask World.answer

/-- A call that returns a status and takes no lock. -/
def outcome : Call Status := do
  let code ← answer
  return .ofCode code

/-- A field of the record behind a pointer. -/
def field (pointer : Int) : Call Int := do
  whenever (pointer = 0) Code.fault
  answer

/-- What both libraries do before they take the lock of a handle: if the handle is registered, it
is counted. -/
def countHandle (db n : Lockable) : Call Bool := do
  wlock db
  let found ← isRegistered n
  if found then do
    Code.change n Account.addReference
    Code.unlock db
    return true
  else do
    Code.unlock db
    return false

end Call

/-- The thread does not write this. -/
def Idle (n : Lockable) (accounts : Accounts) : Prop := (accounts n).hold.writes = 0

/-- The thread writes no handle. -/
def Settled (accounts : Accounts) : Prop :=
  ∀ handle, Idle (.enet handle) accounts ∧ Idle (.thp handle) accounts

/-- A handle is counted and read. Null is no handle. -/
def reading (kind : Nat → Lockable) (handle : Nat) : Accounts → Accounts :=
  if handle = 0 then id else Ledger.change (kind handle) fun account => account.addReference.addRead

/-- A handle is counted and written. -/
def writing (kind : Nat → Lockable) (handle : Nat) : Accounts → Accounts :=
  if handle = 0 then id else Ledger.change (kind handle) fun account => account.addReference.addWrite

theorem Idle.reading {kind : Nat → Lockable} {handle : Nat} {n : Lockable} {accounts : Accounts}
    (idle : Idle n accounts) : Idle n (reading kind handle accounts) := by
  unfold Handles.reading
  split
  · exact idle
  · by_cases same : n = kind handle
    · subst same
      rw [Idle, Ledger.change_apply_self]
      exact idle
    · rw [Idle, Ledger.change_apply_of_ne same]
      exact idle

theorem Settled.reading {kind : Nat → Lockable} {handle : Nat} {accounts : Accounts}
    (settled : Settled accounts) : Settled (reading kind handle accounts) :=
  fun other => ⟨(settled other).1.reading, (settled other).2.reading⟩

section Rules

variable {pre : Accounts → Prop} {before : Accounts → Accounts} {db n : Lockable}

theorem reading_of_ne {kind : Nat → Lockable} {handle : Nat} (notNull : handle ≠ 0) :
    reading kind handle = Ledger.change (kind handle) fun account => account.addReference.addRead :=
  if_neg notNull

theorem writing_of_ne {kind : Nat → Lockable} {handle : Nat} (notNull : handle ≠ 0) :
    writing kind handle = Ledger.change (kind handle) fun account => account.addReference.addWrite :=
  if_neg notNull

/-- A write lock that is taken last is given back first. -/
theorem unlock_write (n : Lockable) : Turns pre (fun ledger => (before ledger).change n Account.addWrite)
    (Code.unlock n : Call Unit) fun _ => before := by
  refine .congr (fun _ ledger _ => ?_) (.unlock n)
  rw [Ledger.change_change]
  exact Ledger.change_self (Account.drop_addWrite _)

theorem whenever_turns {c : Prop} [Decidable c] {body : Call Unit}
    (turns : c → Turns pre before body fun _ => before) :
    Turns pre before (Call.whenever c body) fun _ => before :=
  .ite turns fun _ => .pure rfl

theorem refcnt_turns (n : Lockable) : Turns pre before (Call.refcnt n) fun _ => before :=
  .bind (.ask _) fun _ => .account fun _ => .pure rfl

theorem outcome_turns : Turns pre before Call.outcome fun _ => before :=
  .bind (.ask _) fun _ => .pure rfl

theorem field_turns (pointer : Int) : Turns pre before (Call.field pointer) fun _ => before :=
  .bind (whenever_turns fun _ => .fault) fun _ => .ask _

/-- A reference that is counted under the lock of the registry. -/
theorem count_inner (different : n ≠ db) :
    Turns pre (fun ledger => (before ledger).change db Account.addWrite)
      (Code.change n Account.addReference : Call Unit)
      fun _ ledger => ((before ledger).change n Account.addReference).change db Account.addWrite := by
  refine .congr (fun _ ledger _ => ?_) (.change _ _)
  rw [Ledger.change_comm different.symm]

/-- A reference that is given back under the lock of the registry. -/
theorem discount_inner (different : n ≠ db) :
    Turns pre (fun ledger => ((before ledger).change n Account.addReference).change db Account.addWrite)
      (Code.change n Account.dropReference : Call Unit)
      fun _ ledger => (before ledger).change db Account.addWrite := by
  refine .congr (fun _ ledger _ => ?_) (.change _ _)
  have given : (before ledger).change n (Account.dropReference ∘ Account.addReference) = before ledger :=
    Ledger.change_self rfl
  rw [Ledger.change_comm different.symm, Ledger.change_change, given]

/-- The lock of a handle is given back, the reference is not yet. -/
theorem unlock_counted {add : Account → Account}
    (drops : ∀ ledger, pre ledger →
      (add (ledger n).addReference).drop = (ledger n).addReference) :
    Turns pre (Ledger.change n fun account => add account.addReference) (Code.unlock n : Call Unit)
      fun _ => Ledger.change n Account.addReference := by
  refine .congr (fun _ ledger allowed => ?_) (.unlock _)
  rw [Ledger.change_change]
  simp only [Ledger.change, Function.comp, drops ledger allowed]

private theorem countHandle_turns (different : n ≠ db) : Turns pre id (Call.countHandle db n) fun found ledger =>
    if found then ledger.change n Account.addReference else ledger := by
  refine .bind (.wlock _) fun _ => .bind (.ask _) fun found => .ite (fun _ => ?_) fun _ => ?_
  · refine .bind (count_inner different) fun _ => .bind (unlock_write db) fun _ => .pure ?_
    rfl
  · refine .bind (unlock_write db) fun _ => .pure ?_
    rfl

/-- Code that takes a lock on a handle, or fails and takes nothing. -/
def Takes (pre : Accounts → Prop) (taken : Accounts → Accounts) (code : Call Status) : Prop :=
  Turns pre id code fun rc ledger => if rc = .ok then taken ledger else ledger

/-- Both libraries lock a handle in the same way: it is counted, locked and checked. -/
theorem lockHandle_takes {kind : Nat → Lockable} {handle : Nat} {add : Account → Account} {lock : Call Unit}
    {check : Call Status} {null : Status} (different : kind handle ≠ db) (refused : null ≠ .ok)
    (locks : Turns pre (Ledger.change (kind handle) Account.addReference) lock
      fun _ => Ledger.change (kind handle) fun account => add account.addReference)
    (checks : handle ≠ 0 → Turns pre (Ledger.change (kind handle) fun account => add account.addReference) check
      fun rc ledger => if rc = .ok then ledger.change (kind handle) fun account => add account.addReference
        else ledger) :
    Takes pre (if handle = 0 then id else Ledger.change (kind handle) fun account => add account.addReference) (do
      if handle = 0 then return null
      let found ← Call.countHandle db (kind handle)
      if found = false then return .invHandle
      lock
      check) := by
  refine Turns.ite (fun _ => .pure (funext fun _ => if_neg refused)) fun notNull => ?_
  refine .bind (countHandle_turns different) fun found => .ite (fun missing => .pure (by simp [missing])) fun there => ?_
  rw [Bool.not_eq_false] at there
  subst there
  simp only [if_neg notNull, if_true]
  exact .bind locks fun _ => checks notNull

/-- A thread that does not write counts and locks. -/
theorem rlock_counted (idle : ∀ accounts, pre accounts → Idle n accounts) :
    Turns pre (Ledger.change n Account.addReference) (Call.rlock n)
      fun _ => Ledger.change n fun account => account.addReference.addRead := by
  refine .congr (fun _ ledger _ => Ledger.change_change _ _ _ ledger) (.rlock _ fun ledger allowed => ?_)
  rw [Ledger.change_apply_self]
  exact idle ledger allowed

theorem wlock_counted (n : Lockable) : Turns pre (Ledger.change n Account.addReference) (Call.wlock n)
    fun _ => Ledger.change n fun account => account.addReference.addWrite :=
  .congr (fun _ ledger _ => Ledger.change_change _ _ _ ledger) (.wlock _)

/-- A handle is locked, and the code gives it back. -/
theorem Takes.keeps {α : Type} {taken : Accounts → Accounts} {takes : Call Status} {failed : Status → α}
    {body : Call α} (first : Takes pre taken takes) (rest : Turns pre taken body fun _ => id) :
    Keeps pre (do
      let rc ← takes
      if rc ≠ .ok then return failed rc
      body) := by
  apply Turns.locking first
  · intro rc missed
    rw [if_pos missed]
    exact .pure rfl
  · intro rc got
    rw [if_neg (by simpa using got)]
    exact rest

theorem thenUnlock {α : Type} {unlock : Call Status} {a : α} (turns : Turns pre before unlock fun _ => id) :
    Turns pre before (do
      let _ ← unlock
      return a) fun _ => id :=
  .bind turns fun _ => .pure rfl

end Rules

end GbfLibrary.Handles
