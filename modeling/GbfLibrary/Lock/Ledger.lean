import GbfLibrary.Lock.RwLockRuns

/-!
# What a thread has taken

Code of one thread among others, and the locks and references it has afterwards. What it
reads of the shared memory and what the system answers is up to a world, which may answer the
same question differently each time.
-/

set_option autoImplicit false

namespace GbfLibrary.Lock

variable {W N α β : Type}

/-- The references a thread has counted and not given back, and its locks. -/
structure Account where
  refs : Nat
  hold : Hold
  deriving DecidableEq

def Account.nothing : Account := ⟨0, Hold.nothing⟩

def Account.addReference (account : Account) : Account := { account with refs := account.refs + 1 }

def Account.dropReference (account : Account) : Account := { account with refs := account.refs - 1 }

def Account.addRead (account : Account) : Account := { account with hold := account.hold.addRead }

def Account.addWrite (account : Account) : Account := { account with hold := account.hold.addWrite }

def Account.drop (account : Account) : Account := { account with hold := account.hold.drop }

abbrev Ledger (N : Type) := N → Account

/-- The clock counts the questions that the thread has asked. -/
structure ThreadState (N : Type) where
  ledger : Ledger N
  clock : Nat

/-- Code that does not return, because it crashes or waits for ever, is `none`. -/
abbrev Code (W N α : Type) := ReaderT W (StateT (ThreadState N) Option) α

namespace Code

def fault : Code W N α := fun _ _ => none

/-- Code that returns has gone through both of its halves. -/
theorem bind_eq_some {code : Code W N α} {next : α → Code W N β} {world : W} {thread thread' : ThreadState N}
    {b : β} (runs : (code >>= next) world thread = some (b, thread')) :
    ∃ a between, code world thread = some (a, between) ∧ next a world between = some (b, thread') := by
  obtain ⟨⟨a, between⟩, here, later⟩ := Option.bind_eq_some_iff.mp runs
  exact ⟨a, between, here, later⟩

def ask (question : W → Nat → α) : Code W N α := fun world thread =>
  some (question world thread.clock, { thread with clock := thread.clock + 1 })

section Locks

variable [DecidableEq N]

def account (n : N) : Code W N Account := fun _ thread => some (thread.ledger n, thread)

def change (n : N) (f : Account → Account) : Code W N Unit := fun _ thread =>
  some ((), { thread with ledger := Function.update thread.ledger n (f (thread.ledger n)) })

/-- `lbs_rwlock_rlock`. The writer itself is refused; another thread waits until no thread
writes. -/
def rlock (grants : W → Nat → N → Bool) (n : N) : Code W N Unit := do
  let granted ← ask fun world clock => grants world clock n
  let mine ← account n
  if mine.hold.writes ≠ 0 then return ()
  else if granted then change n Account.addRead
  else fault

/-- `lbs_rwlock_wlock`. The writer gets it again; a thread that reads waits for itself. -/
def wlock (grants : W → Nat → N → Bool) (n : N) : Code W N Unit := do
  let granted ← ask fun world clock => grants world clock n
  let mine ← account n
  if mine.hold.writes ≠ 0 then change n Account.addWrite
  else if mine.hold.reads ≠ 0 then fault
  else if granted then change n Account.addWrite
  else fault

/-- `lbs_rwlock_unlock`. -/
def unlock (n : N) : Code W N Unit := change n Account.drop

variable {world : W} {thread thread' : ThreadState N} {grants : W → Nat → N → Bool} {n : N} {u : Unit}

theorem rlock_clock (runs : rlock grants n world thread = some (u, thread')) : thread'.clock = thread.clock + 1 := by
  obtain ⟨granted, asked, asks, runs⟩ := bind_eq_some runs
  obtain ⟨mine, looked, looks, runs⟩ := bind_eq_some runs
  cases asks
  cases looks
  split at runs
  · cases runs
    rfl
  · split at runs
    · cases runs
      rfl
    · cases runs

theorem wlock_clock (runs : wlock grants n world thread = some (u, thread')) : thread'.clock = thread.clock + 1 := by
  obtain ⟨granted, asked, asks, runs⟩ := bind_eq_some runs
  obtain ⟨mine, looked, looks, runs⟩ := bind_eq_some runs
  cases asks
  cases looks
  split at runs
  · cases runs
    rfl
  split at runs
  · cases runs
  · split at runs
    · cases runs
      rfl
    · cases runs

end Locks

end Code

/-- Code that is run with what `before` makes of a ledger, and leaves what `after` makes of it
where it returns. -/
def Turns (pre : Ledger N → Prop) (before : Ledger N → Ledger N) (code : Code W N α)
    (after : α → Ledger N → Ledger N) : Prop :=
  ∀ world thread a thread' ledger, pre ledger → thread.ledger = before ledger →
    code world thread = some (a, thread') → thread'.ledger = after a ledger

/-- Where the code returns, the thread has what it had. -/
def Keeps (pre : Ledger N → Prop) (code : Code W N α) : Prop :=
  Turns pre id code fun _ => id

/-- Nothing is asked of the ledger. -/
def Anything : Ledger N → Prop := fun _ => True

namespace Turns

variable {pre pre' : Ledger N → Prop} {before between : Ledger N → Ledger N} {code : Code W N α}
  {next : α → Code W N β} {after : β → Ledger N → Ledger N}

theorem bind {between : α → Ledger N → Ledger N} (first : Turns pre before code between)
    (rest : ∀ a, Turns pre (between a) (next a) after) : Turns pre before (code >>= next) after := by
  intro world thread b thread' ledger allowed has runs
  obtain ⟨a, middle, here, later⟩ := Code.bind_eq_some runs
  exact rest a world middle b thread' ledger allowed (first world thread a middle ledger allowed has here) later

theorem pure {b : β} (done : after b = before) : Turns pre before (Pure.pure b : Code W N β) after := by
  intro world thread c thread' ledger _ has runs
  cases runs
  rw [has, done]

theorem fault : Turns pre before (Code.fault : Code W N β) after := by
  intro world thread b thread' ledger _ _ runs
  cases runs

theorem ask (question : W → Nat → α) : Turns pre before (Code.ask question) fun _ => before := by
  intro world thread a thread' ledger _ has runs
  cases runs
  exact has

theorem ite {c : Prop} [Decidable c] {yes no : Code W N β} (first : c → Turns pre before yes after)
    (second : ¬ c → Turns pre before no after) : Turns pre before (if c then yes else no) after := by
  split
  · next holds => exact first holds
  · next fails => exact second fails

theorem mono (implies : ∀ ledger, pre' ledger → pre ledger) {code : Code W N β} (turns : Turns pre before code after) :
    Turns pre' before code after := by
  intro world thread b thread' ledger allowed has runs
  exact turns world thread b thread' ledger (implies ledger allowed) has runs

/-- Code that keeps the ledger, with what `before` makes of it. -/
theorem keeps (keeps : Keeps pre' code) (allowed : ∀ ledger, pre ledger → pre' (before ledger)) :
    Turns pre before code fun _ => before := by
  intro world thread a thread' ledger holds has runs
  exact keeps world thread a thread' (before ledger) (allowed ledger holds) has runs

theorem frame (kept : Keeps Anything code) : Turns pre before code fun _ => before :=
  keeps kept fun _ _ => trivial

/-- A lock that may not be taken, and what is done in either case. -/
theorem locking {taking : α → Prop} [DecidablePred taking]
    (first : Turns pre before code fun a ledger => if taking a then between ledger else before ledger)
    (missed : ∀ a, ¬ taking a → Turns pre before (next a) after)
    (got : ∀ a, taking a → Turns pre between (next a) after) : Turns pre before (code >>= next) after := by
  refine bind first fun a => ?_
  by_cases takes : taking a
  · simpa only [if_pos takes] using got a takes
  · simpa only [if_neg takes] using missed a takes

theorem account {n : N} {next : Account → Code W N β} {after : β → Ledger N → Ledger N}
    (rest : ∀ mine, Turns (fun ledger => pre ledger ∧ before ledger n = mine) before (next mine) after) :
    Turns pre before (Code.account n >>= next) after := by
  intro world thread b thread' ledger allowed has runs
  exact rest (thread.ledger n) world thread b thread' ledger ⟨allowed, by rw [has]⟩ has runs

theorem congr {after' : β → Ledger N → Ledger N} {code : Code W N β}
    (same : ∀ b ledger, pre ledger → after b ledger = after' b ledger) (turns : Turns pre before code after) :
    Turns pre before code after' := by
  intro world thread b thread' ledger allowed has runs
  rw [turns world thread b thread' ledger allowed has runs, same b ledger allowed]

end Turns

/-!
## Locks
-/

section Locks

variable [DecidableEq N]

/-- One account is changed. -/
def Ledger.change (n : N) (f : Account → Account) (ledger : Ledger N) : Ledger N :=
  Function.update ledger n (f (ledger n))

theorem Ledger.change_change (n : N) (f g : Account → Account) (ledger : Ledger N) :
    (ledger.change n f).change n g = ledger.change n (g ∘ f) := by
  simp [Ledger.change]

theorem Ledger.change_comm {n m : N} (different : n ≠ m) (f g : Account → Account) (ledger : Ledger N) :
    (ledger.change n f).change m g = (ledger.change m g).change n f := by
  simp only [Ledger.change, Function.update_of_ne different.symm, Function.update_of_ne different]
  rw [Function.update_comm different]

theorem Ledger.change_self {n : N} {f : Account → Account} {ledger : Ledger N}
    (same : f (ledger n) = ledger n) : ledger.change n f = ledger := by
  rw [Ledger.change, same, Function.update_eq_self]

@[simp] theorem Ledger.change_apply_self (n : N) (f : Account → Account) (ledger : Ledger N) :
    ledger.change n f n = f (ledger n) := Function.update_self ..

@[simp] theorem Ledger.change_apply_of_ne {n m : N} (different : m ≠ n) (f : Account → Account)
    (ledger : Ledger N) : ledger.change n f m = ledger m := Function.update_of_ne different ..

theorem Account.drop_addWrite (account : Account) : account.addWrite.drop = account := by
  simp [addWrite, drop, Hold.addWrite, Hold.drop]

theorem Account.drop_addRead {account : Account} (settled : account.hold.writes = 0) :
    account.addRead.drop = account := by
  obtain ⟨refs, reads, writes, waiting⟩ := account
  obtain rfl : writes = 0 := settled
  rfl

variable {pre : Ledger N → Prop} {before : Ledger N → Ledger N} {grants : W → Nat → N → Bool}

theorem Turns.change (n : N) (f : Account → Account) :
    Turns pre before (Code.change n f : Code W N Unit) fun _ ledger => (before ledger).change n f := by
  intro world thread _ thread' ledger _ has runs
  cases runs
  show thread.ledger.change n f = (before ledger).change n f
  rw [has]

theorem Turns.unlock (n : N) :
    Turns pre before (Code.unlock n : Code W N Unit) fun _ ledger => (before ledger).change n Account.drop :=
  .change n Account.drop

theorem Turns.wlock (n : N) : Turns pre before (Code.wlock grants n) fun _ ledger =>
    (before ledger).change n Account.addWrite := by
  refine .bind (.ask _) fun granted => .account fun mine => ?_
  refine .ite (fun _ => .change n _) fun _ => .ite (fun _ => .fault) fun _ => ?_
  exact .ite (fun _ => .change n _) fun _ => .fault

/-- A thread that does not write gets a read lock, if it gets an answer. -/
theorem Turns.rlock (n : N) (settled : ∀ ledger, pre ledger → (before ledger n).hold.writes = 0) :
    Turns pre before (Code.rlock grants n) fun _ ledger => (before ledger).change n Account.addRead := by
  refine .bind (.ask _) fun granted => .account fun mine => ?_
  refine .ite (fun writes => ?_) fun _ => .ite (fun _ => .change n _) fun _ => .fault
  intro world thread _ thread' ledger allowed _ _
  obtain ⟨holds, rfl⟩ := allowed
  exact absurd (settled ledger holds) writes

end Locks

end GbfLibrary.Lock
