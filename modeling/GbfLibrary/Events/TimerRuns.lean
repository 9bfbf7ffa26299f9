import GbfLibrary.Events.Timer
import GbfLibrary.Memory.Circle
import GbfLibrary.Systems.Run

/-!
# Rounds of timers

`ee_timer_event` beside the threads that start timers. The thread of the timers holds the lock of
the list during a round, so that only its callbacks can start timers then.
-/

set_option autoImplicit false

namespace GbfLibrary.Events

open Memory Prog Systems

/-- Where `ee_timer_event` is. -/
inductive TimerPlace where
  /-- Between two rounds. -/
  | resting
  /-- At the condition of the inner loop, with this `node`. -/
  | walking (node : Addr)
  /-- In the callback of this node. -/
  | calling (node : Addr)
  deriving DecidableEq

/-- `tick` and `maxCount` are the local variables of `ee_timer_event`. Beside them are the numbers
of the timers whose callbacks were called in this round, and of the timers that were started and
have not finished. -/
structure Timers where
  machine : TimerMachine
  place : TimerPlace
  tick : BitVec 32
  maxCount : Int
  called : List Nat
  running : List Nat

def Timers.start : Timers := ⟨⟨∅, ∅, fun _ => ⟨0, 0, 0, 0, 0, 0, 0, 0⟩, ⟨0⟩, 0⟩, .resting, 0, EE_MAX_TIMER_ONE_ROUND, [], []⟩

/-- What is done, with what `GetTickCount` and the callbacks return. -/
inductive TimerStep where
  /-- A call of `ee_timer`, by any thread or by a callback. -/
  | timer (now : BitVec 32) (request : TimerRequest)
  /-- The thread of the timers samples the tick count and takes the lock. -/
  | round (tick : BitVec 32)
  /-- The inner loop goes on to its test. -/
  | test
  /-- The callback returns. -/
  | returned (rc : Int) (now : BitVec 32)

namespace Timers

/-- The end of the body of the inner loop. -/
def advance (node : Addr) (s : Timers) : Option Timers := do
  let (info, machine) ← load node s.machine
  let maxCount := s.maxCount - 1
  if maxCount = 0 ∨ info.next = machine.glob.firstTimer then
    return { s with
      machine := machine.withGlob ⟨info.next⟩, place := .resting, maxCount := EE_MAX_TIMER_ONE_ROUND }
  else return { s with machine, place := .walking info.next, maxCount }

/-- A call of `ee_timer`. -/
def nextTimer (malloc : Malloc) (now : BitVec 32) (request : TimerRequest) (s : Timers) : Option Timers := do
  let ((status, number), machine) ← eeTimer malloc now request s.machine
  return { s with machine, running := if status = .ok then s.running ++ [number] else s.running }

/-- The inner loop with this `node`. -/
def nextTest (node : Addr) (s : Timers) : Option Timers := do
  if node = 0 then return { s with place := .resting }
  else
    let (info, _) ← load node s.machine
    if info.isExpired s.tick = true ∧ info.callback ≠ 0 then
      return { s with place := .calling node, called := s.called ++ [info.number] }
    else advance node s

/-- What follows the callback of this node. -/
def nextReturned (node : Addr) (rc : Int) (now : BitVec 32) (s : Timers) : Option Timers := do
  if rc = EE_TIMER_RESET then
    let (_, machine) ← store node (resetTimerInfo now) s.machine
    advance node { s with machine }
  else
    let (iterate, machine) ← deleteTimerNode node s.machine
    let after := { s with machine, running := s.running.erase (s.machine.cell node).number }
    if iterate = 0 then return { after with place := .resting }
    else advance iterate after

/-- The steps that can be taken. -/
def Enabled : TimerStep → Timers → Prop
  | .timer _ _, s => ∀ node, s.place ≠ .walking node
  | .round _, s => s.place = .resting
  | .test, s => ∃ node, s.place = .walking node
  | .returned _ _, s => ∃ node, s.place = .calling node

/-- A step; a step that can be taken has no result if it is a fault. -/
def next (malloc : Malloc) : TimerStep → Timers → Option Timers
  | .timer now request, s =>
      match s.place with
      | .walking _ => none
      | _ => nextTimer malloc now request s
  | .round tick, s =>
      match s.place with
      | .resting => some { s with place := .walking s.machine.glob.firstTimer, tick, called := [] }
      | _ => none
  | .test, s =>
      match s.place with
      | .walking node => nextTest node s
      | _ => none
  | .returned rc now, s =>
      match s.place with
      | .calling node => nextReturned node rc now s
      | _ => none

end Timers

/-- The numbers of the timers in these nodes. -/
def numbers (s : TimerMachine) (nodes : List Addr) : List Nat := nodes.map fun a => (s.cell a).number

/-- The list of timers: a circle of all live nodes, each with a number of its own. -/
structure TimerList (s : TimerMachine) (nodes : List Addr) : Prop where
  circular : Circular TimerInfo.next TimerInfo.prev s nodes
  first : s.glob.firstTimer = nodes.headD 0
  live : ∀ a, a ∈ s.live ↔ a ∈ nodes
  notNull : 0 ∉ nodes
  counted : ∀ number ∈ numbers s nodes, number < s.callocs
  distinct : (numbers s nodes).Nodup

/-- A new node goes behind the first one. -/
def inserted (node : Addr) : List Addr → List Addr
  | [] => [node]
  | first :: rest => first :: node :: rest

section Lists

variable {s s' : TimerMachine} {node a : Addr} {nodes front back : List Addr}

/-- A node that is in no list becomes part of it. -/
theorem insertTimerNode_apply (circular : Circular TimerInfo.next TimerInfo.prev s nodes)
    (first : s.glob.firstTimer = nodes.headD 0) (notNull : 0 ∉ nodes) (fresh : node ∉ nodes)
    (live : node ∈ s.live) :
    ∃ s', insertTimerNode node s = some ((), s') ∧
      Circular TimerInfo.next TimerInfo.prev s' (inserted node nodes) ∧
      s'.glob.firstTimer = (inserted node nodes).headD 0 ∧ s'.live = s.live ∧ s'.callocs = s.callocs ∧
      ∀ x, (s'.cell x).number = (s.cell x).number := by
  cases nodes with
  | nil =>
      refine ⟨((s.withGlob ⟨node⟩).modify node fun info => { info with prev := node }).modify node
        fun info => { info with next := node }, ?_, ?_, rfl, rfl, rfl, ?_⟩
      · have empty : s.glob.firstTimer = 0 := first
        simp [insertTimerNode, empty, live]
      · apply Circular.singleton
        · exact live
        · simp
        · simp
      · intro x
        simp only [Machine.modify_cell]
        split <;> simp
  | cons a rest =>
      have top : s.glob.firstTimer = a := first
      have aNotNull : a ≠ 0 := fun null => notNull (null ▸ List.mem_cons_self)
      have here : a ∈ s.live := circular.live a List.mem_cons_self
      obtain ⟨after, behind⟩ : ∃ after, (rest ++ [a]).head? = some after := by
        cases rest <;> exact ⟨_, rfl⟩
      have link : (s.cell a).next = after := (circular.edges.1 after behind).1
      have inside : after ∈ a :: rest := by
        have member := List.mem_of_head? behind
        simpa [or_comm] using member
      have afterLive : after ∈ s.live := circular.live after inside
      have notFirst : node ≠ a := fun same => fresh (same ▸ List.mem_cons_self)
      have notAfter : node ≠ after := fun same => fresh (same ▸ inside)
      refine ⟨(((s.modify node fun info => { info with prev := a }).modify a
        fun info => { info with next := node }).modify after fun info => { info with prev := node }).modify node
        fun info => { info with next := after }, ?_, ?_, ?_, rfl, rfl, ?_⟩
      · simp [insertTimerNode, top, aNotNull, here, live, link, afterLive]
      · apply circular.insert fresh behind
        · intro x member
          rcases List.mem_cons.mp member with rfl | member
          · exact live
          · exact circular.live x member
        · constructor
          · simp only [Machine.modify_cell]
            split_ifs <;> simp_all
          · simp only [Machine.modify_cell]
            split_ifs <;> simp_all
        · constructor
          · simp only [Machine.modify_cell]
            split_ifs <;> simp_all
          · simp only [Machine.modify_cell]
            split_ifs <;> simp_all
        · intro x notA notNode
          simp only [Machine.modify_cell]
          split_ifs <;> simp_all
        · intro x notAfter' notNode
          simp only [Machine.modify_cell]
          split_ifs <;> simp_all
      · exact top
      · intro x
        simp only [Machine.modify_cell]
        split_ifs <;> simp_all

private theorem deleteTimerNode_last (circular : Circular TimerInfo.next TimerInfo.prev s ([node] : List Addr))
    (notNull : node ≠ 0) :
    deleteTimerNode node s = some (0, (s.release node).withGlob ⟨0⟩) := by
  have live : node ∈ s.live := circular.live node List.mem_cons_self
  have link : (s.cell node).prev = node := (circular.edges.2 node rfl).2
  simp [deleteTimerNode, live, link, Prog.free, notNull]

/-- A node is taken out between its neighbours and freed. -/
theorem deleteTimerNode_between {before after : Addr} {rest : List Addr}
    (circular : Circular TimerInfo.next TimerInfo.prev s (node :: after :: rest : List Addr))
    (last : (after :: rest).getLast? = some before) (notNull : node ≠ 0) :
    ∃ s', deleteTimerNode node s = some (before, s') ∧
      Circular TimerInfo.next TimerInfo.prev s' (after :: rest : List Addr) ∧
      s'.glob.firstTimer = (if node = s.glob.firstTimer then after else s.glob.firstTimer) ∧
      s'.live = s.live.erase node ∧ s'.callocs = s.callocs ∧ ∀ x, (s'.cell x).number = (s.cell x).number := by
  have distinct : (node :: after :: rest).Nodup := circular.nodup
  have outside := (List.nodup_cons.mp distinct).1
  have member : before ∈ after :: rest := List.mem_of_getLast? last
  have notBefore : node ≠ before := fun same => outside (same ▸ member)
  have notAfter : node ≠ after := fun same => outside (same ▸ List.mem_cons_self)
  have live : ∀ x ∈ node :: after :: rest, x ∈ s.live := circular.live
  have here := live node List.mem_cons_self
  have beforeLive := live before (List.mem_cons_of_mem _ member)
  have afterLive := live after (List.mem_cons_of_mem _ List.mem_cons_self)
  have nextLink : (s.cell node).next = after := (circular.edges.1 after rfl).1
  have prevLink : (s.cell node).prev = before := by
    refine (circular.edges.2 before ?_).2
    rw [List.getLast?_cons_cons, last]
    rfl
  refine ⟨(((s.modify before fun info => { info with next := after }).modify after fun info =>
      { info with prev := before }).withGlob
      ⟨if node = s.glob.firstTimer then after else s.glob.firstTimer⟩).release node, ?_, ?_, rfl, rfl, rfl, ?_⟩
  · simp [deleteTimerNode, here, prevLink, nextLink, notBefore.symm, notBefore, notAfter, beforeLive, afterLive,
      Prog.free, notNull]
  · apply circular.remove last
    · intro x inside
      have different : x ≠ node := fun same => outside (same ▸ inside)
      simpa [different] using live x (List.mem_cons_of_mem _ inside)
    · constructor
      · simp only [Machine.release_cell, Machine.withGlob_cell, Machine.modify_cell]
        split_ifs <;> simp_all
      · simp only [Machine.release_cell, Machine.withGlob_cell, Machine.modify_cell]
        split_ifs <;> simp_all
    · intro x _ notBefore'
      simp only [Machine.release_cell, Machine.withGlob_cell, Machine.modify_cell]
      split_ifs <;> simp_all
    · intro x _ notAfter'
      simp only [Machine.release_cell, Machine.withGlob_cell, Machine.modify_cell]
      split_ifs <;> simp_all
  · intro x
    simp only [Machine.release_cell, Machine.withGlob_cell, Machine.modify_cell]
    split_ifs <;> simp_all

/-- A node of the list is freed, and the node before it is returned if there is one. -/
theorem deleteTimerNode_apply
    (circular : Circular TimerInfo.next TimerInfo.prev s (front ++ node :: back : List Addr))
    (first : s.glob.firstTimer = (front ++ node :: back).headD 0) (notNull : 0 ∉ front ++ node :: back) :
    ∃ s', deleteTimerNode node s = some ((back ++ front).getLast?.getD 0, s') ∧
      Circular TimerInfo.next TimerInfo.prev s' (front ++ back : List Addr) ∧
      s'.glob.firstTimer = (front ++ back).headD 0 ∧ s'.live = s.live.erase node ∧ s'.callocs = s.callocs ∧
      ∀ x, (s'.cell x).number = (s.cell x).number := by
  have nodeNotNull : node ≠ 0 := fun null => notNull (by simp [null])
  have distinct : (front ++ node :: back).Nodup := circular.nodup
  have swapped : ((front ++ back : List Addr) : Cycle Addr) = (back ++ front : List Addr) :=
    Cycle.coe_eq_coe.mpr List.isRotated_append
  rw [Circular.rotate] at circular
  rw [swapped]
  cases others : back ++ front with
  | nil =>
      obtain ⟨rfl, rfl⟩ := List.append_eq_nil_iff.mp others
      rw [others] at circular
      exact ⟨_, deleteTimerNode_last circular nodeNotNull, .nil, rfl, rfl, rfl, fun _ => rfl⟩
  | cons after rest =>
      rw [others] at circular
      obtain ⟨before, last⟩ : ∃ before, (after :: rest).getLast? = some before :=
        ⟨_, List.getLast?_eq_some_getLast (List.cons_ne_nil _ _)⟩
      obtain ⟨s', deletes, joined, top, live, callocs, same⟩ := deleteTimerNode_between circular last nodeNotNull
      refine ⟨s', by rw [deletes, last]; rfl, joined, ?_, live, callocs, same⟩
      rw [top, first]
      cases front with
      | nil =>
          rw [List.append_nil] at others
          simp [others]
      | cons f front =>
          have different : node ≠ f := by
            rintro rfl
            simp at distinct
          simp [different]

@[simp] theorem numbers_nil : numbers s [] = [] := rfl

@[simp] theorem numbers_cons : numbers s (a :: nodes) = (s.cell a).number :: numbers s nodes := rfl

@[simp] theorem numbers_append : numbers s (front ++ back) = numbers s front ++ numbers s back :=
  List.map_append

private theorem numbers_congr (same : ∀ x ∈ nodes, (s'.cell x).number = (s.cell x).number) :
    numbers s' nodes = numbers s nodes :=
  List.map_congr_left same

private theorem mem_inserted : a ∈ inserted node nodes ↔ a = node ∨ a ∈ nodes := by
  cases nodes with
  | nil => simp [inserted]
  | cons first rest => simp [inserted, or_left_comm]

private theorem inserted_perm : (inserted node nodes).Perm (node :: nodes) := by
  cases nodes with
  | nil => exact .refl _
  | cons first rest => exact .swap node first rest

/-- Changes that leave the links and the numbers of the nodes alone. -/
theorem TimerList.congr (list : TimerList s nodes) (glob : s'.glob = s.glob) (live : s'.live = s.live)
    (callocs : s.callocs ≤ s'.callocs)
    (same : ∀ x, (s'.cell x).next = (s.cell x).next ∧ (s'.cell x).prev = (s.cell x).prev ∧
      (s'.cell x).number = (s.cell x).number) : TimerList s' nodes := by
  have unchanged : numbers s' nodes = numbers s nodes := numbers_congr fun x _ => (same x).2.2
  constructor
  · apply list.circular.congr
    · intro a member
      rw [live]
      exact list.circular.live a member
    · intro a _
      exact ⟨(same a).1, (same a).2.1⟩
  · rw [glob, list.first]
  · intro a
    rw [live]
    exact list.live a
  · exact list.notNull
  · intro number member
    rw [unchanged] at member
    exact Nat.lt_of_lt_of_le (list.counted number member) callocs
  · rw [unchanged]
    exact list.distinct

/-- What `ee_timer` does: nothing to the list, or one more timer with the next number. -/
theorem eeTimer_apply (list : TimerList s nodes) (malloc : Malloc) (now : BitVec 32) (request : TimerRequest) :
    ∃ status number s', eeTimer malloc now request s = some ((status, number), s') ∧
      (status ≠ .ok ∧ TimerList s' nodes ∧ s.callocs ≤ s'.callocs ∧ s'.cell = s.cell ∨
        status = .ok ∧ number = s.callocs ∧ s'.callocs = s.callocs + 1 ∧
          ∃ node ∉ nodes, TimerList s' (inserted node nodes) ∧ (s'.cell node).number = number ∧
            ∀ x ∈ nodes, (s'.cell x).number = (s.cell x).number) := by
  by_cases invalid : request.ms = 0 ∨ request.callback = 0
  · refine ⟨.invParam, 0, s, ?_, .inl ⟨nofun, list, le_rfl, rfl⟩⟩
    simp only [eeTimer, if_pos invalid, pure_apply]
  · cases picked : malloc.pick (s.live ∪ s.others) s.callocs with
    | none =>
        refine ⟨.noMemory, s.callocs, s.miss, ?_, .inl ⟨nofun, ?_, Nat.le_succ _, rfl⟩⟩
        · rw [eeTimer, if_neg invalid]
          simp [newTimerNode, mallocTimer, picked]
        · exact list.congr rfl rfl (Nat.le_succ _) fun _ => ⟨rfl, rfl, rfl⟩
    | some node =>
        obtain ⟨nodeNotNull, unused⟩ := malloc.fresh _ _ _ picked
        have dead : node ∉ s.live := fun member => unused (Finset.mem_union_left _ member)
        have fresh : node ∉ nodes := fun member => dead ((list.live node).mpr member)
        let filled := s.extend node (newTimerInfo now request s.callocs)
        have other : ∀ x ∈ nodes, filled.cell x = s.cell x := fun x member =>
          Machine.extend_cell_of_ne fun same => fresh (same ▸ member)
        have circular : Circular TimerInfo.next TimerInfo.prev filled nodes := by
          apply list.circular.congr
          · intro x member
            exact Finset.mem_insert_of_mem (list.circular.live x member)
          · intro x member
            rw [other x member]
            exact ⟨rfl, rfl⟩
        obtain ⟨s', inserts, joined, first, live, callocs, same⟩ := insertTimerNode_apply circular list.first
          list.notNull fresh (Finset.mem_insert_self node s.live)
        have number : (s'.cell node).number = s.callocs := by
          rw [same, Machine.extend_cell_self]
          rfl
        have kept : ∀ x ∈ nodes, (s'.cell x).number = (s.cell x).number := by
          intro x member
          rw [same, other x member]
        have added : (numbers s' (inserted node nodes)).Perm (s.callocs :: numbers s nodes) := by
          have mapped : (numbers s' (inserted node nodes)).Perm (numbers s' (node :: nodes)) :=
            inserted_perm.map _
          rwa [numbers_cons, number, numbers_congr kept] at mapped
        refine ⟨.ok, s.callocs, s', ?_, .inr ⟨rfl, rfl, callocs, node, fresh, ?_, number, kept⟩⟩
        · rw [eeTimer, if_neg invalid]
          simp only [bind_apply, newTimerNode, mallocTimer, picked, andThen_some, nodeNotNull, if_false, store_apply,
            Machine.extend_live, Finset.mem_insert_self, Machine.extend_modify, pure_apply]
          rw [inserts]
          rfl
        · constructor
          · exact joined
          · exact first
          · intro a
            rw [live, mem_inserted, ← list.live a]
            exact Finset.mem_insert
          · intro null
            rcases mem_inserted.mp null with rfl | member
            · exact nodeNotNull rfl
            · exact list.notNull member
          · intro number' member
            rw [callocs]
            rcases List.mem_cons.mp (added.mem_iff.mp member) with rfl | member
            · exact Nat.lt_succ_self _
            · exact Nat.lt_succ_of_lt (list.counted number' member)
          · rw [added.nodup_iff, List.nodup_cons]
            exact ⟨fun member => Nat.lt_irrefl _ (list.counted _ member), list.distinct⟩

theorem TimerList.rotate (list : TimerList s nodes) (rotated : nodes.IsRotated front) :
    TimerList (s.withGlob ⟨front.headD 0⟩) front ∧
      (numbers s nodes).Perm (numbers (s.withGlob ⟨front.headD 0⟩) front) := by
  have same : (nodes : Cycle Addr) = (front : List Addr) := Cycle.coe_eq_coe.mpr rotated
  have mixed : (numbers s nodes).Perm (numbers (s.withGlob ⟨front.headD 0⟩) front) := rotated.perm.map _
  refine ⟨?_, mixed⟩
  constructor
  · rw [← same]
    exact list.circular.congr list.circular.live fun _ _ => ⟨rfl, rfl⟩
  · rfl
  · intro a
    rw [← rotated.mem_iff]
    exact list.live a
  · rw [← rotated.mem_iff]
    exact list.notNull
  · intro number member
    exact list.counted number (mixed.mem_iff.mpr member)
  · exact mixed.nodup_iff.mp list.distinct

theorem TimerList.delete (list : TimerList s (front ++ node :: back)) :
    ∃ s', deleteTimerNode node s = some ((back ++ front).getLast?.getD 0, s') ∧ TimerList s' (front ++ back) ∧
      s'.callocs = s.callocs ∧ ∀ x, (s'.cell x).number = (s.cell x).number := by
  obtain ⟨s', deletes, circular, first, live, callocs, same⟩ :=
    deleteTimerNode_apply list.circular list.first list.notNull
  have distinct : (front ++ node :: back).Nodup := list.circular.nodup
  have outside : node ∉ front ++ back := (List.nodup_middle.mp distinct).notMem
  have fewer : (front ++ back).Sublist (front ++ node :: back) :=
    (List.sublist_cons_self node back).append_left front
  have unchanged : numbers s' (front ++ back) = numbers s (front ++ back) := numbers_congr fun x _ => same x
  refine ⟨s', deletes, ?_, callocs, same⟩
  constructor
  · exact circular
  · exact first
  · intro a
    rw [live, Finset.mem_erase, list.live, List.perm_middle.mem_iff, List.mem_cons]
    constructor
    · rintro ⟨different, same | member⟩
      · exact absurd same different
      · exact member
    · intro member
      exact ⟨fun same => outside (same ▸ member), .inr member⟩
  · exact fun null => list.notNull (fewer.subset null)
  · intro number member
    rw [unchanged] at member
    rw [callocs]
    exact list.counted number ((fewer.map _).subset member)
  · rw [unchanged]
    exact list.distinct.sublist (fewer.map _)

end Lists

/-- Where the thread is in the list: no timer that this round can still come to was called in it. -/
def Standing (s : Timers) (nodes : List Addr) : Prop :=
  match s.place with
  | .resting => True
  | .walking node =>
      node = 0 ∧ nodes = [] ∨
        ∃ front back, nodes = front ++ node :: back ∧ (numbers s.machine (node :: back)).Disjoint s.called
  | .calling node => ∃ front back, nodes = front ++ node :: back ∧ (numbers s.machine back).Disjoint s.called

/-- The list holds the timers that are running, and no callback was called twice in the round. -/
structure Sound (s : Timers) (nodes : List Addr) : Prop where
  list : TimerList s.machine nodes
  running : s.running.Perm (numbers s.machine nodes)
  once : s.called.Nodup
  counted : ∀ number ∈ s.called, number < s.machine.callocs
  counter : 0 < s.maxCount ∧ s.maxCount ≤ EE_MAX_TIMER_ONE_ROUND
  standing : Standing s nodes

namespace Sound

variable {s : Timers} {node : Addr} {nodes front back : List Addr}

theorem start : Sound .start [] := by
  constructor
  · constructor
    · exact .nil
    · rfl
    · intro a
      exact ⟨fun member => absurd member (Finset.notMem_empty a), nofun⟩
    · exact List.not_mem_nil
    · nofun
    · exact List.nodup_nil
  · exact .refl []
  · exact List.nodup_nil
  · nofun
  · decide
  · trivial

/-- The end of the body of the inner loop, from any node that was dealt with. -/
theorem advance (s : Timers) (node : Addr) (sound : Sound { s with place := .calling node } nodes) :
    ∃ s' nodes', s.advance node = some s' ∧ Sound s' nodes' := by
  obtain ⟨front, back, rfl, apart⟩ := sound.standing
  have list : TimerList s.machine (front ++ node :: back) := sound.list
  have live : node ∈ s.machine.live := (list.live node).mpr (by simp)
  obtain ⟨after, rest, split⟩ : ∃ after rest, back ++ (front ++ [node]) = after :: rest :=
    List.exists_cons_of_ne_nil (by simp)
  have link : (s.machine.cell node).next = after := by
    have circular := list.circular
    rw [Circular.rotate] at circular
    apply (circular.edges.1 after _).1
    rw [List.append_assoc, split]
    rfl
  by_cases stops : s.maxCount - 1 = 0 ∨ after = s.machine.glob.firstTimer
  · have rotated : (front ++ node :: back).IsRotated (after :: rest) := by
      rw [← split, List.append_cons]
      exact List.isRotated_append
    obtain ⟨list', mixed⟩ := list.rotate rotated
    refine ⟨_, after :: rest, by simp [Timers.advance, load, live, link, stops]; rfl, ?_⟩
    constructor
    · exact list'
    · exact sound.running.trans mixed
    · exact sound.once
    · exact sound.counted
    · exact Sound.start.counter
    · trivial
  · obtain ⟨more, notFirst⟩ := not_or.mp stops
    refine ⟨_, front ++ node :: back, by simp [Timers.advance, load, live, link, stops]; rfl, ?_⟩
    constructor
    · exact list
    · exact sound.running
    · exact sound.once
    · exact sound.counted
    · have counter := sound.counter
      dsimp only at counter ⊢
      omega
    · cases back with
      | nil =>
          rw [list.first] at notFirst
          cases front <;> simp_all
      | cons b back =>
          cases split
          refine .inr ⟨front ++ [node], back, ?_, apart⟩
          simp

theorem test (sound : Sound s nodes) (walking : s.place = .walking node) :
    ∃ s' nodes', Timers.nextTest node s = some s' ∧ Sound s' nodes' := by
  have standing := sound.standing
  simp only [Standing, walking] at standing
  rcases standing with ⟨rfl, rfl⟩ | ⟨front, back, rfl, apart⟩
  · exact ⟨{ s with place := .resting }, [], rfl, { sound with standing := trivial }⟩
  · have inside : node ∈ front ++ node :: back := by simp
    have nodeNotNull : node ≠ 0 := fun null => sound.list.notNull (null ▸ inside)
    have live : node ∈ s.machine.live := (sound.list.live node).mpr inside
    obtain ⟨new, apart⟩ := List.disjoint_cons_left.mp apart
    by_cases due : (s.machine.cell node).isExpired s.tick = true ∧ (s.machine.cell node).callback ≠ 0
    · refine ⟨_, front ++ node :: back, by simp [Timers.nextTest, nodeNotNull, load, live, due]; rfl, ?_⟩
      constructor
      · exact sound.list
      · exact sound.running
      · rw [← List.concat_eq_append]
        exact sound.once.concat new
      · intro number member
        rcases List.mem_append.mp member with member | member
        · exact sound.counted number member
        · apply sound.list.counted number
          rw [List.mem_singleton.mp member]
          exact List.mem_map_of_mem inside
      · exact sound.counter
      · refine ⟨front, back, rfl, ?_⟩
        have distinct := sound.list.distinct
        rw [numbers_append, numbers_cons] at distinct
        rw [List.disjoint_append_right]
        refine ⟨apart, ?_⟩
        rw [List.disjoint_singleton]
        exact (List.nodup_cons.mp (List.nodup_append.mp distinct).2.1).1
    · obtain ⟨s', nodes', goes, sound'⟩ := advance s node
        { sound with standing := ⟨front, back, rfl, apart⟩ }
      refine ⟨s', nodes', ?_, sound'⟩
      rw [← goes]
      simp only [Timers.nextTest, if_neg nodeNotNull, load_apply live, Option.bind_eq_bind, Option.bind_some]
      exact if_neg due

/-- The callback returns, and its timer is reset or finished. -/
theorem returned (sound : Sound s nodes) (calling : s.place = .calling node) (rc : Int) (now : BitVec 32) :
    ∃ s' nodes', Timers.nextReturned node rc now s = some s' ∧ Sound s' nodes' := by
  have standing := sound.standing
  simp only [Standing, calling] at standing
  obtain ⟨front, back, rfl, apart⟩ := standing
  have live : node ∈ s.machine.live := (sound.list.live node).mpr (by simp)
  by_cases reset : rc = EE_TIMER_RESET
  · have list : TimerList (s.machine.modify node (resetTimerInfo now)) (front ++ node :: back) := by
      apply TimerList.congr sound.list
      · rfl
      · rfl
      · exact le_rfl
      · intro x
        rw [Machine.modify_cell]
        split <;> exact ⟨rfl, rfl, rfl⟩
    have same : ∀ l, numbers (s.machine.modify node (resetTimerInfo now)) l = numbers s.machine l := by
      intro l
      apply numbers_congr
      intro x _
      rw [Machine.modify_cell]
      split <;> rfl
    obtain ⟨s', nodes', goes, sound'⟩ := advance
      { s with machine := s.machine.modify node (resetTimerInfo now) } node
      ⟨list, (same _).symm ▸ sound.running, sound.once, sound.counted, sound.counter,
        ⟨front, back, rfl, (same _).symm ▸ apart⟩⟩
    refine ⟨s', nodes', ?_, sound'⟩
    rw [← goes]
    simp only [Timers.nextReturned, if_pos reset, store_apply live, Option.bind_eq_bind, Option.bind_some]
  · obtain ⟨machine, deletes, list, callocs, same⟩ := sound.list.delete
    have same : ∀ l, numbers machine l = numbers s.machine l := fun l => numbers_congr fun x _ => same x
    have running : (s.running.erase (s.machine.cell node).number).Perm (numbers machine (front ++ back)) := by
      have mixed := (sound.running.trans (List.perm_middle.map _)).erase (s.machine.cell node).number
      rw [List.map_cons, List.erase_cons_head] at mixed
      rwa [same]
    have counted : ∀ number ∈ s.called, number < machine.callocs := callocs ▸ sound.counted
    let after := { s with machine, running := s.running.erase (s.machine.cell node).number }
    have goes : Timers.nextReturned node rc now s =
        if (back ++ front).getLast?.getD 0 = 0 then some { after with place := .resting }
        else Timers.advance ((back ++ front).getLast?.getD 0) after := by
      simp only [Timers.nextReturned, if_neg reset, deletes, Option.bind_eq_bind, Option.bind_some]
      rfl
    have before : ∀ iterate front' back', front ++ back = front' ++ iterate :: back' →
        (back ++ front).getLast?.getD 0 = iterate → (numbers s.machine back').Disjoint s.called →
        ∃ s' nodes', Timers.nextReturned node rc now s = some s' ∧ Sound s' nodes' := by
      intro iterate front' back' split last apart'
      have iterateNotNull : iterate ≠ 0 := by
        rintro rfl
        apply list.notNull
        simp [split]
      obtain ⟨s', nodes', goes', sound'⟩ := advance after iterate
        ⟨list, running, sound.once, counted, sound.counter, ⟨front', back', split, (same back').symm ▸ apart'⟩⟩
      refine ⟨s', nodes', ?_, sound'⟩
      rw [goes, last, if_neg iterateNotNull, goes']
    rcases List.eq_nil_or_concat front with rfl | ⟨front', last, rfl⟩
    · rcases List.eq_nil_or_concat back with rfl | ⟨back', last, rfl⟩
      · refine ⟨{ after with place := .resting }, [], goes, ?_⟩
        exact ⟨list, running, sound.once, counted, sound.counter, trivial⟩
      · apply before last back' []
        · simp
        · simp
        · simp
    · apply before last front' back
      · simp
      · rw [List.concat_eq_append, ← List.append_assoc, List.getLast?_concat, Option.getD_some]
      · exact apart

/-- A call of `ee_timer` that finds the thread of the timers outside of the list. -/
theorem timer (sound : Sound s nodes) (outside : ∀ node, s.place ≠ .walking node) (malloc : Malloc)
    (now : BitVec 32) (request : TimerRequest) :
    ∃ s' nodes', Timers.nextTimer malloc now request s = some s' ∧ Sound s' nodes' := by
  obtain ⟨status, number, machine, makes, effect⟩ := eeTimer_apply sound.list malloc now request
  have goes : Timers.nextTimer malloc now request s =
      some { s with machine, running := if status = .ok then s.running ++ [number] else s.running } := by
    simp only [Timers.nextTimer, makes, Option.bind_eq_bind, Option.bind_some]
    rfl
  rcases effect with ⟨fails, list, later, cell⟩ | ⟨rfl, rfl, callocs, node, fresh, list, number, kept⟩
  · have same : ∀ l, numbers machine l = numbers s.machine l := fun l => by rw [numbers, cell]; rfl
    refine ⟨_, nodes, goes, list, ?_, sound.once, ?_, sound.counter, ?_⟩
    · rw [if_neg fails, same]
      exact sound.running
    · intro number member
      exact Nat.lt_of_lt_of_le (sound.counted number member) later
    · have standing := sound.standing
      simpa only [Standing, same] using standing
  · have unused : s.machine.callocs ∉ s.called := fun member => Nat.lt_irrefl _ (sound.counted _ member)
    refine ⟨_, inserted node nodes, goes, list, ?_, sound.once, ?_, sound.counter, ?_⟩
    · have mixed : (numbers machine (inserted node nodes)).Perm (numbers machine (node :: nodes)) :=
        inserted_perm.map _
      rw [numbers_cons, number, numbers_congr kept] at mixed
      rw [if_pos rfl]
      exact ((List.perm_append_singleton _ _).trans (sound.running.cons _)).trans mixed.symm
    · intro number member
      rw [callocs]
      exact Nat.lt_succ_of_lt (sound.counted number member)
    · have standing := sound.standing
      cases place : s.place with
      | resting => simp only [Standing]
      | walking node => exact absurd place (outside node)
      | calling current =>
          simp only [Standing, place] at standing ⊢
          obtain ⟨front, back, rfl, apart⟩ := standing
          have same : numbers machine back = numbers s.machine back :=
            numbers_congr fun x member => kept x (by simp [member])
          cases front with
          | nil =>
              refine ⟨[], node :: back, rfl, ?_⟩
              rw [numbers_cons, number, same, List.disjoint_cons_left]
              exact ⟨unused, apart⟩
          | cons first front =>
              refine ⟨first :: node :: front, back, rfl, ?_⟩
              rw [same]
              exact apart

theorem round (sound : Sound s nodes) (tick : BitVec 32) :
    Sound { s with place := .walking s.machine.glob.firstTimer, tick, called := [] } nodes := by
  refine ⟨sound.list, sound.running, List.nodup_nil, nofun, sound.counter, ?_⟩
  rw [sound.list.first]
  cases nodes with
  | nil => exact .inl ⟨rfl, rfl⟩
  | cons first rest => exact .inr ⟨[], rest, rfl, List.disjoint_nil_right _⟩

/-- Every step that can be taken is taken without a fault. -/
theorem next (sound : Sound s nodes) (malloc : Malloc) {step : TimerStep} (enabled : Timers.Enabled step s) :
    ∃ s' nodes', Timers.next malloc step s = some s' ∧ Sound s' nodes' := by
  cases step with
  | timer now request =>
      obtain ⟨s', nodes', goes, sound'⟩ := sound.timer enabled malloc now request
      refine ⟨s', nodes', ?_, sound'⟩
      rw [← goes, Timers.next]
      split
      · next node walking => exact absurd walking (enabled node)
      · rfl
  | round tick =>
      refine ⟨_, nodes, ?_, sound.round tick⟩
      rw [Timers.next, show s.place = .resting from enabled]
  | test =>
      obtain ⟨node, walking⟩ := enabled
      obtain ⟨s', nodes', goes, sound'⟩ := sound.test walking
      refine ⟨s', nodes', ?_, sound'⟩
      rw [← goes, Timers.next, walking]
  | returned rc now =>
      obtain ⟨node, calling⟩ := enabled
      obtain ⟨s', nodes', goes, sound'⟩ := sound.returned calling rc now
      refine ⟨s', nodes', ?_, sound'⟩
      rw [← goes, Timers.next, calling]

end Sound

/-- A step is taken only where it can be taken. -/
theorem Timers.enabled_of_next {malloc : Malloc} {step : TimerStep} {s s' : Timers}
    (goes : next malloc step s = some s') : Enabled step s := by
  cases step with
  | timer now request =>
      intro node walking
      rw [next, walking] at goes
      cases goes
  | round tick =>
      rw [next] at goes
      split at goes
      · assumption
      · cases goes
  | test =>
      rw [next] at goes
      split at goes
      · next node walking => exact ⟨node, walking⟩
      · cases goes
  | returned rc now =>
      rw [next] at goes
      split at goes
      · next node calling => exact ⟨node, calling⟩
      · cases goes

/-- The nodes form a circle, which holds the timers that are running, each once, and nothing else is
allocated; the first timer is one of them, or null if there is none. -/
structure Consistent (s : Timers) (nodes : List Addr) : Prop where
  circular : Circular TimerInfo.next TimerInfo.prev s.machine nodes
  all : ∀ a, a ∈ s.machine.live ↔ a ∈ nodes
  empty : s.machine.glob.firstTimer = 0 ↔ nodes = []
  first : nodes ≠ [] → s.machine.glob.firstTimer ∈ nodes
  timers : (numbers s.machine nodes).Perm s.running
  distinct : s.running.Nodup

theorem Sound.consistent {s : Timers} {nodes : List Addr} (sound : Sound s nodes) : Consistent s nodes := by
  constructor
  · exact sound.list.circular
  · exact sound.list.live
  · rw [sound.list.first]
    constructor
    · intro null
      cases nodes with
      | nil => rfl
      | cons a rest => exact absurd (null ▸ List.mem_cons_self) sound.list.notNull
    · rintro rfl
      rfl
  · intro notNull
    rw [sound.list.first]
    cases nodes with
    | nil => exact absurd rfl notNull
    | cons a rest => exact List.mem_cons_self
  · exact sound.running.symm
  · exact sound.running.nodup_iff.mpr sound.list.distinct

/-- In every run of timers and rounds the list is consistent, no callback is called twice in a round,
and no node is read or written that was freed. -/
theorem timers_consistent (malloc : Malloc) (steps : List TimerStep) {s : Timers}
    (runs : run (Timers.next malloc) steps .start = some s) :
    (∃ nodes, Consistent s nodes) ∧ s.called.Nodup ∧
      ∀ step, Timers.Enabled step s → ∃ s', Timers.next malloc step s = some s' := by
  obtain ⟨nodes, sound⟩ : ∃ nodes, Sound s nodes := by
    refine run_invariant (P := fun s => ∃ nodes, Sound s nodes) ?_ ⟨[], .start⟩ runs
    rintro step s s' ⟨nodes, sound⟩ goes
    obtain ⟨s'', nodes', goes', sound'⟩ := sound.next malloc (Timers.enabled_of_next goes)
    rw [goes] at goes'
    cases goes'
    exact ⟨nodes', sound'⟩
  refine ⟨⟨nodes, sound.consistent⟩, sound.once, fun step enabled => ?_⟩
  obtain ⟨s', _, goes, _⟩ := sound.next malloc enabled
  exact ⟨s', goes⟩

/-- Two timers, the first of which starts a third one and ends. -/
def threeTimers : List TimerStep :=
  [.timer 0 ⟨10, 0, 1, 1⟩, .timer 0 ⟨10, 0, 2, 1⟩, .round 20, .test, .timer 20 ⟨10, 0, 3, 1⟩, .returned 0 20]

theorem timers_consistent_three :
    ∃ s, run (Timers.next Malloc.bump) threeTimers .start = some s ∧
      (∃ nodes, Consistent s nodes) ∧ s.called.Nodup ∧
      ∀ step, Timers.Enabled step s → ∃ s', Timers.next Malloc.bump step s = some s' := by
  obtain ⟨s, runs⟩ := Option.isSome_iff_exists.mp
    (show (run (Timers.next Malloc.bump) threeTimers .start).isSome = true by decide +kernel)
  exact ⟨s, runs, timers_consistent Malloc.bump threeTimers runs⟩

end GbfLibrary.Events
