import GbfLibrary.Errno
import GbfLibrary.Memory.Machine

/-!
# Timers

The timers of `event_engine.c`: the nodes, the list they are in, and when one of them is due.
-/

set_option autoImplicit false

namespace GbfLibrary.Events

open Memory Prog

/-- `EVENT_TIMER_INFO`. The number is not in the source: it counts the nodes that were asked for. -/
structure TimerInfo where
  tick : BitVec 32
  expired : BitVec 32
  id : BitVec 32
  param : Addr
  callback : Addr
  prev : Addr
  next : Addr
  number : Nat
  deriving DecidableEq

structure TimerGlob where
  firstTimer : Addr
  deriving DecidableEq

abbrev TimerMachine := Machine TimerInfo TimerGlob

abbrev TimerProg (α : Type) := Prog TimerInfo TimerGlob α

def EE_TIMER_RESET : Int := 1

def EE_MAX_TIMER_ONE_ROUND : Int := 20

/-- The arguments of `ee_timer`. -/
structure TimerRequest where
  ms : BitVec 32
  param : Addr
  id : BitVec 32
  callback : Addr
  deriving DecidableEq

/-- What `ee_new_timer_node` writes into a node; `now` is what `GetTickCount` returns. -/
def newTimerInfo (now : BitVec 32) (request : TimerRequest) (number : Nat) : TimerInfo :=
  ⟨request.ms, now + request.ms, request.id, request.param, request.callback, 0, 0, number⟩

/-- What `ee_reset_timer_node_nl` makes of a node. -/
def resetTimerInfo (now : BitVec 32) (node : TimerInfo) : TimerInfo :=
  { node with expired := now + node.tick }

/-- The test of `ee_timer_event`. -/
def TimerInfo.isExpired (node : TimerInfo) (tick : BitVec 32) : Bool := node.expired ≤ tick

/-- `malloc` of a node, with what it contains by chance. -/
def mallocTimer (malloc : Malloc) : TimerProg (Addr × Nat) := fun s =>
  match malloc.pick (s.live ∪ s.others) s.callocs with
  | none => some ((0, s.callocs), s.miss)
  | some a => some ((a, s.callocs), s.extend a (s.cell a))

/-- `ee_new_timer_node`. -/
def newTimerNode (malloc : Malloc) (now : BitVec 32) (request : TimerRequest) : TimerProg (Addr × Nat) := do
  let (out, number) ← mallocTimer malloc
  if out = 0 then return (0, number)
  else (do
    store out fun _ => newTimerInfo now request number
    return (out, number))

/-- `ee_insert_timer_node_nl`. -/
def insertTimerNode (node : Addr) : TimerProg Unit := do
  let glob ← getGlob
  if glob.firstTimer = 0 then (do
    setGlob fun glob => { glob with firstTimer := node }
    store node fun info => { info with prev := node }
    store node fun info => { info with next := node })
  else (do
    let first ← load glob.firstTimer
    store node fun info => { info with prev := glob.firstTimer }
    store glob.firstTimer fun info => { info with next := node }
    store first.next fun info => { info with prev := node }
    store node fun info => { info with next := first.next })

/-- `ee_delete_timer_node_nl`. -/
def deleteTimerNode (node : Addr) : TimerProg Addr := do
  let info ← load node
  if info.prev = node then (do
    free node
    setGlob fun glob => { glob with firstTimer := 0 }
    return 0)
  else (do
    store info.prev fun before => { before with next := info.next }
    let info ← load node
    store info.next fun after => { after with prev := info.prev }
    let glob ← getGlob
    let info ← load node
    setGlob fun glob' => { glob' with firstTimer := if node = glob.firstTimer then info.next else glob.firstTimer }
    let info ← load node
    free node
    return info.prev)

/-- `ee_timer`, and the number of the node that was asked for. -/
def eeTimer (malloc : Malloc) (now : BitVec 32) (request : TimerRequest) :
    TimerProg (Status × Nat) := do
  if request.ms = 0 ∨ request.callback = 0 then return (.invParam, 0)
  else (do
    let (node, number) ← newTimerNode malloc now request
    if node = 0 then return (.noMemory, number)
    else (do
      insertTimerNode node
      return (.ok, number)))

section Due

/-- The test of a deadline against the tick count, both modulo `2 ^ 32`, is right if and only if
both sums wrap around or none does. -/
theorem due_iff (start : BitVec 32) {ms elapsed : Nat} (period : ms < 2147483648)
    (passed : elapsed < 2147483648) :
    (start + BitVec.ofNat 32 ms ≤ BitVec.ofNat 32 (start.toNat + elapsed) ↔ ms ≤ elapsed) ↔
      (start.toNat + ms < 4294967296 ↔ start.toNat + elapsed < 4294967296) := by
  have low := start.isLt
  rw [BitVec.le_def, BitVec.toNat_add, BitVec.toNat_ofNat, BitVec.toNat_ofNat]
  omega

/-- A timer that is created or reset at `start` is found expired `elapsed` milliseconds later if
and only if its period is over, provided that the deadline and the tick count have both wrapped
around or both have not. -/
theorem isExpired_iff (start : BitVec 32) {ms elapsed : Nat} (request : TimerRequest) (number : Nat)
    (node : TimerInfo) (period : ms < 2147483648) (passed : elapsed < 2147483648)
    (asked : request.ms = BitVec.ofNat 32 ms) (kept : node.tick = BitVec.ofNat 32 ms) :
    (((newTimerInfo start request number).isExpired (BitVec.ofNat 32 (start.toNat + elapsed)) = true ↔
          ms ≤ elapsed) ↔
        (start.toNat + ms < 4294967296 ↔ start.toNat + elapsed < 4294967296)) ∧
      (((resetTimerInfo start node).isExpired (BitVec.ofNat 32 (start.toNat + elapsed)) = true ↔
          ms ≤ elapsed) ↔
        (start.toNat + ms < 4294967296 ↔ start.toNat + elapsed < 4294967296)) := by
  have due := due_iff start period passed
  constructor
  · simpa [TimerInfo.isExpired, newTimerInfo, asked] using due
  · simpa [TimerInfo.isExpired, resetTimerInfo, kept] using due

/-- Ten milliseconds after the computer was started. -/
theorem isExpired_iff_ten :
    (((newTimerInfo 0 ⟨10, 0, 1, 1⟩ 0).isExpired (BitVec.ofNat 32 ((0 : BitVec 32).toNat + 10)) = true ↔
          10 ≤ 10) ↔ ((0 : BitVec 32).toNat + 10 < 4294967296 ↔ (0 : BitVec 32).toNat + 10 < 4294967296)) ∧
      (((resetTimerInfo 0 (newTimerInfo 0 ⟨10, 0, 1, 1⟩ 0)).isExpired
            (BitVec.ofNat 32 ((0 : BitVec 32).toNat + 10)) = true ↔ 10 ≤ 10) ↔
        ((0 : BitVec 32).toNat + 10 < 4294967296 ↔ (0 : BitVec 32).toNat + 10 < 4294967296)) :=
  isExpired_iff 0 ⟨10, 0, 1, 1⟩ 0 (newTimerInfo 0 ⟨10, 0, 1, 1⟩ 0) (by decide) (by decide) rfl rfl

/-- The deadline wraps around, and the timer is due at once. -/
theorem isExpired_early :
    (newTimerInfo 0xffffffff ⟨1, 0, 1, 1⟩ 0).isExpired
        (BitVec.ofNat 32 ((0xffffffff : BitVec 32).toNat + 0)) = true ∧ ¬ 1 ≤ 0 := by
  decide

end Due

end GbfLibrary.Events
