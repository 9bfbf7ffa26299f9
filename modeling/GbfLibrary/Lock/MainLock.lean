import GbfLibrary.Lock.RwLockRuns

/-!
# The main control lock

`lbs_mc_lock` and `lbs_mc_unlock` of `lbs_rwlock.c`. The thread that has the lock cannot
take it again: it waits for itself, inside the critical section.
-/

set_option autoImplicit false

namespace GbfLibrary.Lock

open Systems

/-- Where a thread is in `lbs_mc_lock` and `lbs_mc_unlock`. -/
inductive Place where
  | idle
  /-- Before `EnterCriticalSection`. -/
  | entering
  /-- At the test of the loop, with this `thread_ctrl`. -/
  | testing (threadCtrl : Bool)
  /-- Before `main_ctrl` is set. -/
  | taking
  /-- Before `LeaveCriticalSection`. -/
  | leaving
  deriving DecidableEq

/-- A thread has the lock from the return of `lbs_mc_lock` to its call of `lbs_mc_unlock`. -/
structure Member where
  has : Bool
  place : Place
  deriving DecidableEq

/-- A lock with its field `main_ctrl`, and the threads. -/
structure McLock (T : Type) where
  lock : RwLock T
  mainCtrl : Nat
  members : T → Member

inductive McStep (T : Type) where
  /-- `lbs_mc_lock` is called, enters, looks at `main_ctrl`, and sets it. -/
  | call (t : T)
  | enter (t : T)
  | test (t : T)
  | take (t : T)
  /-- `lbs_mc_unlock` clears `main_ctrl`, and leaves. -/
  | unlock (t : T)
  | leave (t : T)
  deriving DecidableEq

def McStep.thread {T : Type} : McStep T → T
  | .call t | .enter t | .test t | .take t | .unlock t | .leave t => t

namespace McLock

variable {T : Type}

/-- `lbs_mc_lock_init`. -/
def init : McLock T := ⟨RwLock.init, 0, fun _ => ⟨false, .idle⟩⟩

variable [DecidableEq T]

def set (t : T) (member : Member) (s : McLock T) : McLock T :=
  { s with members := Function.update s.members t member }

/-- One step. A thread unlocks what it has. -/
def next : McStep T → McLock T → Option (McLock T)
  | .call t, s =>
      if (s.members t).place = .idle then some (s.set t ⟨(s.members t).has, .entering⟩) else none
  | .enter t, s =>
      if (s.members t).place = .entering then
        (s.lock.enterCriticalSection t).map fun lock =>
          { s.set t ⟨(s.members t).has, .testing false⟩ with lock }
      else none
  | .test t, s =>
      match (s.members t).place with
      | .testing threadCtrl =>
          if s.mainCtrl ≠ 0 then some (s.set t ⟨(s.members t).has, .testing true⟩)
          -- `goto get_thrad_lock` goes on inside the critical section.
          else if threadCtrl then some (s.set t ⟨(s.members t).has, .entering⟩)
          else some (s.set t ⟨(s.members t).has, .taking⟩)
      | _ => none
  | .take t, s =>
      if (s.members t).place = .taking then some { s.set t ⟨true, .idle⟩ with mainCtrl := 1 } else none
  | .unlock t, s =>
      if s.members t = ⟨true, .idle⟩ then some { s.set t ⟨false, .leaving⟩ with mainCtrl := 0 } else none
  | .leave t, s =>
      if (s.members t).place = .leaving then
        some { s.set t ⟨(s.members t).has, .idle⟩ with lock := s.lock.leaveCriticalSection }
      else none

/-- The thread is not in the critical section. -/
def Outside (member : Member) : Prop := member = ⟨false, .idle⟩ ∨ member = ⟨false, .entering⟩

/-- The thread in the critical section, `main_ctrl`, and how often the thread entered. -/
inductive Inside : Member → Nat → Nat → Prop where
  | tests : Inside ⟨false, .testing false⟩ 0 1
  | takes : Inside ⟨false, .taking⟩ 0 1
  | has : Inside ⟨true, .idle⟩ 1 1
  /-- The thread that has the lock calls `lbs_mc_lock` again, and waits for itself. -/
  | calls : Inside ⟨true, .entering⟩ 1 1
  | waits (threadCtrl : Bool) : Inside ⟨true, .testing threadCtrl⟩ 1 2
  | leaves : Inside ⟨false, .leaving⟩ 0 1

/-- One thread at most is in the critical section, and the lock is what it makes of it. -/
inductive Settled (s : McLock T) : Prop where
  | free (others : ∀ u, Outside (s.members u)) (owner : s.lock.owner = none) (entries : s.lock.recursionCount = 0)
      (ctrl : s.mainCtrl = 0)
  | taken (t : T) (others : ∀ u, u ≠ t → Outside (s.members u)) (owner : s.lock.owner = some t)
      (inside : Inside (s.members t) s.mainCtrl s.lock.recursionCount)

section Steps

variable {s s' : McLock T} {t u : T} {member : Member}

@[simp] theorem members_set_self (t : T) (member : Member) (s : McLock T) : (s.set t member).members t = member :=
  Function.update_self ..

private theorem members_set_of_ne (other : u ≠ t) : (s.set t member).members u = s.members u :=
  Function.update_of_ne other ..

omit [DecidableEq T] in
private theorem Settled.owner_of_not_outside (settled : s.Settled) (inside : ¬ Outside (s.members t)) :
    s.lock.owner = some t ∧ (∀ u, u ≠ t → Outside (s.members u)) ∧
      Inside (s.members t) s.mainCtrl s.lock.recursionCount := by
  cases settled with
  | free others => exact absurd (others t) inside
  | taken v others owner work =>
      obtain rfl : t = v := not_not.mp fun other => inside (others t other)
      exact ⟨owner, others, work⟩

private theorem Inside.not_outside {ctrl entries : Nat} (inside : Inside member ctrl entries) : ¬ Outside member := by
  rintro (rfl | rfl) <;> cases inside

section Inside

variable {ctrl entries : Nat}

theorem Inside.call (inside : Inside member ctrl entries) (here : member.place = .idle) :
    Inside ⟨member.has, .entering⟩ ctrl entries := by
  cases inside <;> cases here
  exact .calls

theorem Inside.enter (inside : Inside member ctrl entries) (here : member.place = .entering) :
    Inside ⟨member.has, .testing false⟩ ctrl (entries + 1) := by
  cases inside <;> cases here
  exact .waits false

/-- The thread in the critical section leaves the loop in its first round or never. -/
theorem Inside.test {threadCtrl : Bool} (inside : Inside member ctrl entries)
    (here : member.place = .testing threadCtrl) :
    (ctrl ≠ 0 ∧ Inside ⟨member.has, .testing true⟩ ctrl entries) ∨
      (ctrl = 0 ∧ threadCtrl = false ∧ Inside ⟨member.has, .taking⟩ ctrl entries) := by
  cases inside <;> cases here
  · exact .inr ⟨rfl, rfl, .takes⟩
  · exact .inl ⟨Nat.one_ne_zero, .waits true⟩

theorem Inside.take (inside : Inside member ctrl entries) (here : member.place = .taking) :
    Inside ⟨true, .idle⟩ 1 entries := by
  cases inside <;> cases here
  exact .has

theorem Inside.unlock (inside : Inside ⟨true, .idle⟩ ctrl entries) : Inside ⟨false, .leaving⟩ 0 entries := by
  cases inside
  exact .leaves

theorem Inside.leave (inside : Inside member ctrl entries) (here : member.place = .leaving) :
    member.has = false ∧ ctrl = 0 ∧ entries = 1 := by
  cases inside <;> cases here
  exact ⟨rfl, rfl, rfl⟩

end Inside

omit [DecidableEq T] in
private theorem Settled.owner_of_place {place : Place} (settled : s.Settled) (here : (s.members t).place = place)
    (working : place ≠ .idle ∧ place ≠ .entering) :
    s.lock.owner = some t ∧ (∀ u, u ≠ t → Outside (s.members u)) ∧
      Inside (s.members t) s.mainCtrl s.lock.recursionCount := by
  refine settled.owner_of_not_outside ?_
  rintro (same | same) <;> rw [same] at here
  · exact working.1 here.symm
  · exact working.2 here.symm

private theorem outside_set (others : ∀ u, u ≠ t → Outside (s.members u)) (u : T) (other : u ≠ t) :
    Outside ((s.set t member).members u) := by
  rw [members_set_of_ne other]
  exact others u other

/-- A thread outside the critical section stays there. -/
theorem Settled.set_outside (settled : s.Settled) (outside : Outside (s.members t)) (still : Outside member) :
    (s.set t member).Settled := by
  cases settled with
  | free others owner entries ctrl =>
      refine .free (fun u => ?_) owner entries ctrl
      by_cases same : u = t
      · rw [same, members_set_self]
        exact still
      · exact outside_set (fun v _ => others v) u same
  | taken v others owner work =>
      have different : v ≠ t := by
        rintro rfl
        exact work.not_outside outside
      refine .taken v (fun u other => ?_) owner ?_
      · by_cases same : u = t
        · rw [same, members_set_self]
          exact still
        · rw [members_set_of_ne same]
          exact others u other
      · rw [members_set_of_ne different]
        exact work

/-- The thread in the critical section goes on. -/
theorem settled_set {lock : RwLock T} {ctrl : Nat} (others : ∀ u, u ≠ t → Outside (s.members u))
    (owner : lock.owner = some t) (inside : Inside member ctrl lock.recursionCount) :
    Settled { s.set t member with lock, mainCtrl := ctrl } :=
  .taken t (outside_set others) owner (by simpa using inside)

theorem Settled.call (settled : s.Settled) (idle : (s.members t).place = .idle) :
    (s.set t ⟨(s.members t).has, .entering⟩).Settled := by
  by_cases outside : Outside (s.members t)
  · refine settled.set_outside outside (.inr ?_)
    rcases outside with same | same <;> rw [same]
  · obtain ⟨owner, others, inside⟩ := settled.owner_of_not_outside outside
    exact settled_set others owner (inside.call idle)

theorem Settled.enter {lock : RwLock T} (settled : s.Settled) (here : (s.members t).place = .entering)
    (enters : s.lock.enterCriticalSection t = some lock) :
    Settled { s.set t ⟨(s.members t).has, .testing false⟩ with lock } := by
  obtain ⟨allowed, rfl⟩ := RwLock.enterCriticalSection_cases enters
  cases settled with
  | free others owner entries ctrl =>
      have nothing : (s.members t).has = false := by
        rcases others t with same | same <;> rw [same]
      refine settled_set (fun u _ => others u) rfl ?_
      show Inside ⟨(s.members t).has, .testing false⟩ s.mainCtrl (s.lock.recursionCount + 1)
      rw [nothing, ctrl, entries]
      exact .tests
  | taken v others owner inside =>
      obtain rfl := RwLock.eq_of_owner owner allowed
      exact settled_set others rfl (inside.enter here)

theorem Settled.next {step : McStep T} (settled : s.Settled) (steps : McLock.next step s = some s') : s'.Settled := by
  cases step with
  | call t =>
      simp only [McLock.next] at steps
      split at steps
      · next idle =>
        cases steps
        exact settled.call idle
      · cases steps
  | enter t =>
      simp only [McLock.next] at steps
      split at steps
      · next here =>
        obtain ⟨lock, enters, rfl⟩ := Option.map_eq_some_iff.mp steps
        exact settled.enter here enters
      · cases steps
  | test t =>
      simp only [McLock.next] at steps
      split at steps
      · next threadCtrl here =>
        obtain ⟨owner, others, inside⟩ := settled.owner_of_place here (by simp)
        rcases inside.test here with ⟨busy, inside⟩ | ⟨unset, rfl, inside⟩
        · rw [if_pos busy] at steps
          cases steps
          exact settled_set others owner inside
        · rw [if_neg (not_not.mpr unset), if_neg Bool.false_ne_true] at steps
          cases steps
          exact settled_set others owner inside
      · cases steps
  | take t =>
      simp only [McLock.next] at steps
      split at steps
      · next here =>
        cases steps
        obtain ⟨owner, others, inside⟩ := settled.owner_of_place here (by simp)
        exact settled_set others owner (inside.take here)
      · cases steps
  | unlock t =>
      simp only [McLock.next] at steps
      split at steps
      · next here =>
        cases steps
        have notOutside : ¬ Outside (s.members t) := by simp [here, Outside]
        obtain ⟨owner, others, inside⟩ := settled.owner_of_not_outside notOutside
        exact settled_set others owner (here ▸ inside).unlock
      · cases steps
  | leave t =>
      simp only [McLock.next] at steps
      split at steps
      · next here =>
        cases steps
        obtain ⟨owner, others, inside⟩ := settled.owner_of_place here (by simp)
        obtain ⟨nothing, unset, once⟩ := inside.leave here
        rw [RwLock.leaveCriticalSection_last (Nat.le_of_eq once), nothing]
        refine .free (fun u => ?_) rfl rfl unset
        by_cases same : u = t
        · rw [same]
          exact .inl (members_set_self t _ s)
        · exact outside_set others u same
      · cases steps

private theorem settled_of_run {steps : List (McStep T)} (runs : run McLock.next steps init = some s) : s.Settled :=
  run_invariant (P := Settled) (fun _ _ _ settled steps => settled.next steps)
    (.free (fun _ => .inl rfl) rfl rfl rfl) runs

omit [DecidableEq T] in
/-- A thread that has the lock is in the critical section, and nobody else is. -/
theorem Settled.owner_of_has (settled : s.Settled) (has : (s.members t).has = true) :
    s.lock.owner = some t ∧ (∀ u, u ≠ t → Outside (s.members u)) ∧
      Inside (s.members t) s.mainCtrl s.lock.recursionCount := by
  refine settled.owner_of_not_outside ?_
  rintro (same | same) <;> rw [same] at has <;> cases has

/-- The thread has the lock and calls `lbs_mc_lock` again. -/
def Stuck (t : T) (s : McLock T) : Prop := (s.members t).has = true ∧ (s.members t).place ≠ .idle

/-- A step moves no thread but its own. -/
theorem members_next {step : McStep T} (steps : McLock.next step s = some s') :
    ∃ member, s'.members = (s.set step.thread member).members := by
  cases step with
  | call u =>
      obtain ⟨_, same⟩ := Option.ite_none_right_eq_some.mp steps
      cases same
      exact ⟨_, rfl⟩
  | enter u =>
      obtain ⟨_, enters⟩ := Option.ite_none_right_eq_some.mp steps
      obtain ⟨lock, _, rfl⟩ := Option.map_eq_some_iff.mp enters
      exact ⟨_, rfl⟩
  | test u =>
      simp only [McLock.next] at steps
      split at steps
      · split at steps
        · cases steps
          exact ⟨_, rfl⟩
        · split at steps <;>
          · cases steps
            exact ⟨_, rfl⟩
      · cases steps
  | take u =>
      obtain ⟨_, same⟩ := Option.ite_none_right_eq_some.mp steps
      cases same
      exact ⟨_, rfl⟩
  | unlock u =>
      obtain ⟨_, same⟩ := Option.ite_none_right_eq_some.mp steps
      cases same
      exact ⟨_, rfl⟩
  | leave u =>
      obtain ⟨_, same⟩ := Option.ite_none_right_eq_some.mp steps
      cases same
      exact ⟨_, rfl⟩

private theorem members_next_of_ne {step : McStep T} (steps : McLock.next step s = some s') (other : t ≠ step.thread) :
    s'.members t = s.members t := by
  obtain ⟨member, moves⟩ := members_next steps
  rw [moves]
  exact members_set_of_ne other

theorem Inside.waiting {ctrl entries : Nat} (inside : Inside member ctrl entries)
    (here : member.place = .testing true) : member.has = true ∧ ctrl ≠ 0 := by
  cases inside <;> cases here
  exact ⟨rfl, Nat.one_ne_zero⟩

private theorem Inside.not_taking {ctrl entries : Nat} (inside : Inside member ctrl entries) (has : member.has = true) :
    member.place ≠ .taking := by
  intro here
  cases inside <;> cases here
  cases has

theorem Stuck.next {step : McStep T} (stuck : s.Stuck t) (settled : s.Settled)
    (steps : McLock.next step s = some s') : s'.Stuck t := by
  by_cases other : t ≠ step.thread
  · rw [Stuck, members_next_of_ne steps other]
    exact stuck
  have actor : t = step.thread := not_not.mp other
  obtain ⟨has, busy⟩ := stuck
  obtain ⟨_, _, inside⟩ := settled.owner_of_has has
  cases step with
  | call u =>
      obtain rfl : t = u := actor
      simp only [McLock.next, if_neg busy] at steps
      cases steps
  | enter u =>
      obtain rfl : t = u := actor
      simp only [McLock.next] at steps
      split at steps
      · obtain ⟨lock, _, rfl⟩ := Option.map_eq_some_iff.mp steps
        exact ⟨by simpa using has, by simp⟩
      · cases steps
  | test u =>
      obtain rfl : t = u := actor
      simp only [McLock.next] at steps
      split at steps
      · split at steps
        · cases steps
          exact ⟨by simpa using has, by simp⟩
        · split at steps <;>
          · cases steps
            exact ⟨by simpa using has, by simp⟩
      · cases steps
  | take u =>
      obtain rfl : t = u := actor
      simp only [McLock.next, if_neg (inside.not_taking has)] at steps
      cases steps
  | unlock u =>
      obtain rfl : t = u := actor
      have notIdle : s.members t ≠ ⟨true, .idle⟩ := fun here => busy (congrArg Member.place here)
      simp only [McLock.next, if_neg notIdle] at steps
      cases steps
  | leave u =>
      obtain rfl : t = u := actor
      simp only [McLock.next] at steps
      split at steps
      · next here =>
        rw [(inside.leave here).1] at has
        cases has
      · cases steps

/-- A free lock is given to the thread that asks for it. -/
theorem Settled.grants (settled : s.Settled) (free : s.lock.owner = none) (idle : (s.members t).place = .idle) :
    ∃ s', run McLock.next [.call t, .enter t, .test t, .take t] s = some s' ∧ (s'.members t).has = true := by
  cases settled with
  | taken u others owner =>
      rw [free] at owner
      cases owner
  | free others owner entries ctrl =>
      let s₁ := s.set t ⟨(s.members t).has, .entering⟩
      let s₂ := { s₁.set t ⟨(s₁.members t).has, .testing false⟩ with
        lock := { s.lock with owner := some t, recursionCount := s.lock.recursionCount + 1 } }
      let s₃ := s₂.set t ⟨(s₂.members t).has, .taking⟩
      have calls : McLock.next (.call t) s = some s₁ := if_pos idle
      have allowed : s.lock.owner = none ∨ s.lock.owner = some t := .inl free
      have enters : McLock.next (.enter t) s₁ = some s₂ := by
        have entered : s₁.lock.enterCriticalSection t = some s₂.lock := if_pos allowed
        simp only [McLock.next, entered, Option.map_some]
        exact if_pos (congrArg Member.place (members_set_self ..))
      have tests : McLock.next (.test t) s₂ = some s₃ := by
        have here : (s₂.members t).place = .testing false := congrArg Member.place (members_set_self ..)
        have unset : s₂.mainCtrl = 0 := ctrl
        simp [McLock.next, here, unset, s₃]
      have takes : McLock.next (.take t) s₃ = some { s₃.set t ⟨true, .idle⟩ with mainCtrl := 1 } :=
        if_pos (congrArg Member.place (members_set_self ..))
      have has : (s₃.set t ⟨true, .idle⟩).members t = ⟨true, .idle⟩ := members_set_self ..
      exact ⟨_, run_cons.mpr ⟨_, calls, run_cons.mpr ⟨_, enters, run_cons.mpr ⟨_, tests, run_cons.mpr ⟨_, takes, rfl⟩⟩⟩⟩,
        congrArg Member.has has⟩

end Steps

/-- In every run in which the threads unlock only what they have: one thread at most has the lock; only the thread
that has it ever waits in the loop of `lbs_mc_lock`, so that the `goto` is never taken; a thread that has the lock and
asks for it again waits for ever, and nobody gets the lock any more; and a free lock is given to the thread that asks
for it. -/
theorem mcLock_once {steps : List (McStep T)} {s : McLock T} (runs : run McLock.next steps init = some s) :
    (∀ t u, (s.members t).has = true → (s.members u).has = true → t = u) ∧
      (∀ t, (s.members t).place = .testing true → (s.members t).has = true ∧ s.mainCtrl ≠ 0) ∧
      (∀ t, (s.members t).has = true → (s.members t).place ≠ .idle → ∀ later s', run McLock.next later s = some s' →
        (s'.members t).place ≠ .idle ∧ ∀ u, (s'.members u).has = true → u = t) ∧
      (s.lock.owner = none → ∀ t, (s.members t).place = .idle →
        ∃ s', run McLock.next [.call t, .enter t, .test t, .take t] s = some s' ∧ (s'.members t).has = true) := by
  have settled := settled_of_run runs
  have alone {s : McLock T} (settled : s.Settled) (t u : T) (has : (s.members t).has = true)
      (also : (s.members u).has = true) : t = u := by
    have here := (settled.owner_of_has has).1
    rw [(settled.owner_of_has also).1] at here
    exact (Option.some.inj here).symm
  refine ⟨alone settled, fun t here => ?_, fun t has busy later s' runs' => ?_, fun free t idle => settled.grants free idle⟩
  · obtain ⟨_, _, inside⟩ := settled.owner_of_place here (by simp)
    exact inside.waiting here
  · obtain ⟨stuck, settled'⟩ := run_invariant (P := fun s => s.Stuck t ∧ s.Settled)
      (fun step s s' both steps => ⟨both.1.next both.2 steps, both.2.next steps⟩) ⟨⟨has, busy⟩, settled⟩ runs'
    exact ⟨stuck.2, fun u also => alone settled' u t also stuck.1⟩

/-- A thread asks again for the lock that it has, and another one asks for it. -/
def askAgain : List (McStep Bool) :=
  [.call true, .enter true, .test true, .take true, .call true, .call false, .enter true, .test true]

theorem mcLock_once_again :
    ∃ s, run McLock.next askAgain init = some s ∧ ∀ later s', run McLock.next later s = some s' →
      (s'.members true).place ≠ .idle ∧ ∀ u, (s'.members u).has = true → u = true := by
  have once : ∀ s, run McLock.next askAgain init = some s → (s.members true).has = true →
      (s.members true).place ≠ .idle → ∀ later s', run McLock.next later s = some s' →
        (s'.members true).place ≠ .idle ∧ ∀ u, (s'.members u).has = true → u = true :=
    fun s runs => (mcLock_once runs).2.2.1 true
  exact ⟨_, rfl, once _ rfl rfl (by decide)⟩

end McLock

end GbfLibrary.Lock
