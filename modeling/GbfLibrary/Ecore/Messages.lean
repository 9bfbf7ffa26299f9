import GbfLibrary.Ecore.ModuleIds
import GbfLibrary.Events.Engine

/-!
# Messages between modules

`post_message_to` puts a message into the queue of the event engine, whose handler gives it to the module that it is
for; `send_message_to` calls the module at once. Nothing sets the flag that ends the handler.
-/

set_option autoImplicit false

namespace GbfLibrary.Ecore

open Memory Rbtree Prog Systems Events

/-- The event of `post_event`. -/
def ECORE_EVENT_POST_MESSAGE : Nat := 1

/-- `ECORE_MESSAGE`. -/
structure EcoreMessage where
  msg : Word
  moduleId : Word
  data : Nat
  deriving DecidableEq

/-- A call of the `onmessage` of a module. -/
structure Delivery where
  module : Word
  msg : Word
  data : Nat
  deriving DecidableEq

/-- The modules, the event engine and the messages that are allocated. -/
structure Messenger where
  modules : ModuleMemory
  engine : Engine
  messages : Nat → Option EcoreMessage

/-- The code of `send_message_to`. -/
inductive SendCode where
  | ok
  | notFound
  deriving DecidableEq

/-- `get_specified_module`: the module with the id, or null. -/
def getSpecifiedModule (fuel : Nat) (index : Word) : RbProg Word := do
  let node ← rbtSearch fuel index
  if node ≠ 0 then (do
    let n ← load node
    return n.data)
  else return 0

/-- `post_message_to`, with what `malloc` answers, or null; the code is `none` for `ECORE_CODE_NO_MEMORY`. The message
is not freed if the queue does not take it. -/
def postMessageTo (size object : Nat) (index message : Word) (data : Nat) (s : Messenger) :
    Option (Option Status × Messenger) :=
  if object = 0 then some (none, s)
  else do
    let messages := Function.update s.messages object (some ⟨message, index, data⟩)
    let (status, ring) ← eePostEvent size ⟨object, 0, 0, ECORE_EVENT_POST_MESSAGE⟩ s.engine.ring
    some (some status, { s with messages, engine := { s.engine with ring } })

/-- `send_message_to`. -/
def sendMessageTo (fuel : Nat) (index message : Word) (data : Nat) (s : Messenger) :
    Option ((SendCode × Option Delivery) × Messenger) := do
  let (node, tree) ← rbtSearch fuel index s.modules.tree
  let s := { s with modules := { s.modules with tree } }
  if node = 0 then some ((.notFound, none), s)
  else do
    let (n, tree) ← (load node : RbProg Rbtree.Node) s.modules.tree
    let s := { s with modules := { s.modules with tree } }
    let mod ← s.modules.modules n.data
    some ((.ok, if mod.onmessage then some ⟨n.data, message, data⟩ else none), s)

/-- `ecore_event_handler`, the dispatcher of the event engine. -/
def ecoreEventHandler (fuel : Nat) (event : EventInfo) (s : Messenger) : Option (Option Delivery × Messenger) :=
  if event.id = ECORE_EVENT_POST_MESSAGE then do
    let msg ← s.messages event.object
    let (p, tree) ← getSpecifiedModule fuel msg.moduleId s.modules.tree
    let s := { s with modules := { s.modules with tree } }
    if p ≠ 0 then do
      let mod ← s.modules.modules p
      some (if mod.onmessage then some ⟨p, msg.msg, msg.data⟩ else none, s)
    else some (none, s)
  else some (none, s)

/-- What the threads do, with what they get back. A call of `ecore_load_modules` after which the process is terminated
is none. -/
inductive MessageEvent where
  | call (call : ModuleCall) (code : ModuleCode)
  /-- `object` is what `malloc` answers. -/
  | post (object : Nat) (index message : Word) (data : Nat) (code : Option Status)
  | send (index message : Word) (data : Nat) (code : SendCode) (delivery : Option Delivery)
  /-- A step of the handler. -/
  | handle (delivery : Option Delivery)

namespace MessageEvent

def loads : MessageEvent → Nat
  | call made _ => made.loads
  | _ => 0

def Sized : MessageEvent → Prop
  | call made _ => made.Sized
  | _ => True

/-- The message that `post_message_to` has accepted. -/
def accepted? : MessageEvent → Option EcoreMessage
  | post _ index message data (some .ok) => some ⟨message, index, data⟩
  | _ => none

/-- The call that the handler makes. -/
def delivered? : MessageEvent → Option Delivery
  | handle delivery => delivery
  | _ => none

/-- A step of the handler: the modules that there are then, and the call that it makes. -/
def handling (s : Messenger) : MessageEvent → List (ModuleMemory × Option Delivery)
  | handle delivery => [(s.modules, delivery)]
  | _ => []

end MessageEvent

def messageStep (loader : Loader) (malloc : Malloc) (size fuel : Nat) : MessageEvent → Messenger → Option Messenger
  | .call call code, s => do
    let (code', modules) ← call.run loader malloc fuel s.modules
    if code' = some code then some { s with modules } else none
  | .post object index message data code, s =>
    if object = 0 ∨ s.messages object = none then do
      let (code', s) ← postMessageTo size object index message data s
      if code' = code then some s else none
    else none
  | .send index message data code delivery, s => do
    let (result, s) ← sendMessageTo fuel index message data s
    if result = (code, delivery) then some s else none
  | .handle delivery, s => do
    let (dispatched, engine) ← eventEngineHandler size s.engine
    let s := { s with engine }
    match dispatched with
    | none => if delivery = none then some s else none
    | some event => do
      let (delivery', s) ← ecoreEventHandler fuel event s
      if delivery' = delivery then some s else none

/-- The steps of the handler in a run. -/
def handlings (step : MessageEvent → Messenger → Option Messenger) :
    List MessageEvent → Messenger → List (ModuleMemory × Option Delivery)
  | [], _ => []
  | event :: events, s =>
    event.handling s ++
      match step event s with
      | some s => handlings step events s
      | none => []

/-- Messages to some of the ids are posted when there is a module with the id. -/
def PostsToLoaded (ids : Word → Prop) (fuel : Nat) : MessageEvent → Messenger → Prop
  | .post _ index _ _ code, s => ids index → code = some .ok → ∃ p, Stored fuel s.modules.tree (index, p)
  | _, _ => True

section Steps

variable {loader : Loader} {malloc : Malloc} {size fuel remaining : Nat} {s s' : Messenger} {event : MessageEvent}
  {events : List MessageEvent} {pending : List EcoreMessage} {ids : Word → Prop}

/-- The message goes to the module with its id, or nowhere if there is none. -/
def Delivers (fuel : Nat) (s : ModuleMemory) (m : EcoreMessage) (delivery : Option Delivery) : Prop :=
  (∃ p, Stored fuel s.tree (m.moduleId, p) ∧ delivery = some ⟨p, m.msg, m.data⟩) ∨
    ((∀ p, ¬ Stored fuel s.tree (m.moduleId, p)) ∧ delivery = none)

/-- A message is handled in this step. -/
def Taken (fuel : Nat) (x : EcoreMessage × Option Delivery) (step : ModuleMemory × Option Delivery) : Prop :=
  step.2 = x.2 ∧ Delivers fuel step.1 x.1 x.2

/-- Messages are handled in some of these steps, in this order. -/
def TakenIn (fuel : Nat) (done : List (EcoreMessage × Option Delivery)) (steps : List (ModuleMemory × Option Delivery)) :
    Prop :=
  ∃ taken, taken.Sublist steps ∧ List.Forall₂ (Taken fuel) done taken

/-- An event in the queue, and the message that it points to. -/
def Messenger.Carries (s : Messenger) (event : EventInfo) (m : EcoreMessage) : Prop :=
  event.id = ECORE_EVENT_POST_MESSAGE ∧ s.messages event.object = some m

/-- The messages that are accepted and not handled. -/
structure Messenger.Owes (size fuel remaining : Nat) (s : Messenger) (pending : List EcoreMessage) : Prop where
  ready : Ready fuel remaining s.modules
  answering : Answering fuel s.modules
  running : s.engine.isTerminated = false
  there : s.engine.place ≠ .returned
  waits : ∃ events, s.engine.Owes size events ∧ List.Forall₂ s.Carries events pending

private theorem rbtSearch_cases {modules : ModuleMemory} (ready : Ready fuel remaining modules) (index : Word) :
    (∃ a p, rbtSearch fuel index modules.tree = some (a, modules.tree) ∧ a ≠ 0 ∧ a ∈ modules.tree.live ∧
        (modules.tree.cell a).data = p ∧ Stored fuel modules.tree (index, p)) ∨
      rbtSearch fuel index modules.tree = some (0, modules.tree) ∧ ∀ p, ¬ Stored fuel modules.tree (index, p) := by
  obtain ⟨shape, nodes, levels, holds, short⟩ := ready.tree
  rcases holds.search_cases (show shape.labels.length < fuel by omega) index with
    ⟨finds, absent⟩ | ⟨a, finds, notNull, live, _, bound⟩
  · exact .inr ⟨finds, absent⟩
  · exact .inl ⟨a, _, finds, notNull, live, rfl, bound⟩

/-- The handler gives a message to its module. -/
theorem ecoreEventHandler_delivers {info : EventInfo} {m : EcoreMessage} (ready : Ready fuel remaining s.modules)
    (answering : Answering fuel s.modules) (carries : s.Carries info m) :
    ∃ delivery, ecoreEventHandler fuel info s = some (delivery, s) ∧ Delivers fuel s.modules m delivery := by
  obtain ⟨id, there⟩ := carries
  rcases rbtSearch_cases ready m.moduleId with ⟨a, p, finds, notNull, live, rfl, stored⟩ | ⟨finds, absent⟩
  · obtain ⟨loaded, mod, allocated, answers⟩ := answering _ stored
    have specified : getSpecifiedModule fuel m.moduleId s.modules.tree =
        some ((s.modules.tree.cell a).data, s.modules.tree) := by
      simp [getSpecifiedModule, finds, notNull, live]
    refine ⟨some ⟨(s.modules.tree.cell a).data, m.msg, m.data⟩, ?_, .inl ⟨_, stored, rfl⟩⟩
    rw [ecoreEventHandler, if_pos id]
    simp only [there, specified, Option.bind_eq_bind, Option.bind_some]
    rw [if_pos loaded, allocated]
    simp [answers]
  · have specified : getSpecifiedModule fuel m.moduleId s.modules.tree = some (0, s.modules.tree) := by
      simp [getSpecifiedModule, finds]
    refine ⟨none, ?_, .inr ⟨absent, rfl⟩⟩
    rw [ecoreEventHandler, if_pos id]
    simp only [there, specified, Option.bind_eq_bind, Option.bind_some]
    exact if_neg (not_not.mpr rfl)

/-- `send_message_to` calls the module with the id at once. -/
theorem sendMessageTo_apply (ready : Ready fuel remaining s.modules) (answering : Answering fuel s.modules)
    (index message : Word) (data : Nat) :
    ∃ delivery, sendMessageTo fuel index message data s =
        some ((if delivery = none then .notFound else .ok, delivery), s) ∧
      Delivers fuel s.modules ⟨message, index, data⟩ delivery := by
  rcases rbtSearch_cases ready index with ⟨a, p, finds, notNull, live, rfl, stored⟩ | ⟨finds, absent⟩
  · obtain ⟨_, mod, allocated, answers⟩ := answering _ stored
    refine ⟨some ⟨(s.modules.tree.cell a).data, message, data⟩, ?_, .inl ⟨_, stored, rfl⟩⟩
    simp only [sendMessageTo, finds, Option.bind_eq_bind, Option.bind_some]
    rw [if_neg notNull]
    simp [live, allocated, answers]
  · refine ⟨none, ?_, .inr ⟨absent, rfl⟩⟩
    simp [sendMessageTo, finds]

theorem Messenger.Owes.mono {less : Nat} (owes : s.Owes size fuel remaining pending) (fewer : less ≤ remaining) :
    s.Owes size fuel less pending :=
  { owes with ready := owes.ready.mono fewer }

/-- A message that is allocated stays as it is. -/
theorem Messenger.Carries.post {info : EventInfo} {m : EcoreMessage} {object : Nat} (carries : s.Carries info m)
    (fresh : s.messages object = none) (posted : EcoreMessage) (engine : Engine) :
    Messenger.Carries { s with messages := Function.update s.messages object (some posted), engine } info m := by
  obtain ⟨id, there⟩ := carries
  have different : info.object ≠ object := fun same => by
    rw [same, fresh] at there
    cases there
  exact ⟨id, by rw [← there]; exact Function.update_of_ne different ..⟩

theorem Messenger.Owes.post {object : Nat} {index message : Word} {data : Nat} {code : Option Status}
    (owes : s.Owes size fuel remaining pending)
    (steps : messageStep loader malloc size fuel (.post object index message data code) s = some s') :
    s'.modules = s.modules ∧
      s'.Owes size fuel remaining (pending ++ (MessageEvent.post object index message data code).accepted?.toList) := by
  obtain ⟨guard, steps⟩ := Option.ite_none_right_eq_some.mp steps
  obtain ⟨⟨code', s₁⟩, posts, steps⟩ := Option.bind_eq_some_iff.mp steps
  obtain ⟨rfl, equal⟩ := Option.ite_none_right_eq_some.mp steps
  cases equal
  obtain ⟨ready, answering, running, there, events, queued, carry⟩ := owes
  unfold postMessageTo at posts
  split at posts
  · cases posts
    exact ⟨rfl, ready, answering, running, there, events, queued, by simpa [MessageEvent.accepted?] using carry⟩
  · next notNull =>
      have fresh := guard.resolve_left notNull
      obtain ⟨⟨status, ring⟩, accepts, posts⟩ := Option.bind_eq_some_iff.mp posts
      cases posts
      let info : EventInfo := ⟨object, 0, 0, ECORE_EVENT_POST_MESSAGE⟩
      have engineSteps : engineStep size (.post info status) s.engine = some { s.engine with ring } := by
        simp [engineStep, info, accepts]
      have keeps := carry.imp fun _ _ carries =>
        carries.post fresh ⟨message, index, data⟩ { s.engine with ring }
      have queue := queued.post engineSteps
      refine ⟨rfl, ready, answering, running, there, ?_⟩
      cases status with
      | ok =>
          obtain ⟨events', same, queued'⟩ := queue
          cases same
          exact ⟨_, queued', List.rel_append keeps (.cons ⟨rfl, Function.update_self ..⟩ .nil)⟩
      | _ => exact ⟨events, queue, by simpa [MessageEvent.accepted?] using keeps⟩

/-- A step of the handler gives the first message to its module, or goes on only. -/
theorem Messenger.Owes.handle {delivery : Option Delivery} (owes : s.Owes size fuel remaining pending)
    (steps : messageStep loader malloc size fuel (.handle delivery) s = some s') :
    s'.modules = s.modules ∧ ((delivery = none ∧ s'.Owes size fuel remaining pending) ∨
      ∃ m rest, pending = m :: rest ∧ Delivers fuel s.modules m delivery ∧ s'.Owes size fuel remaining rest) := by
  obtain ⟨ready, answering, running, there, events, queued, carry⟩ := owes
  obtain ⟨⟨dispatched, engine⟩, handles, steps⟩ := Option.bind_eq_some_iff.mp steps
  obtain ⟨running', there'⟩ := eventEngineHandler_running running there handles
  rcases queued.dispatches running handles with ⟨rfl, queued'⟩ | ⟨info, rest, rfl, rfl, queued'⟩
  · obtain ⟨rfl, equal⟩ := Option.ite_none_right_eq_some.mp steps
    cases equal
    exact ⟨rfl, .inl ⟨rfl, ready, answering, running', there', events, queued', carry⟩⟩
  · obtain ⟨m, others, carries, carry', rfl⟩ := List.forall₂_cons_left_iff.mp carry
    have here : Messenger.Carries { s with engine } info m := carries
    obtain ⟨delivery', calls, delivers⟩ :=
      ecoreEventHandler_delivers (s := { s with engine }) ready answering here
    simp only [calls, Option.bind_eq_bind, Option.bind_some] at steps
    obtain ⟨rfl, equal⟩ := Option.ite_none_right_eq_some.mp steps
    cases equal
    exact ⟨rfl, .inr ⟨m, others, rfl, delivers, ready, answering, running', there', rest, queued', carry'⟩⟩

theorem TakenIn.none (fuel : Nat) (steps : List (ModuleMemory × Option Delivery)) : TakenIn fuel [] steps :=
  ⟨[], List.nil_sublist steps, .nil⟩

theorem TakenIn.append {done done' : List (EcoreMessage × Option Delivery)}
    {steps steps' : List (ModuleMemory × Option Delivery)} (first : TakenIn fuel done steps)
    (later : TakenIn fuel done' steps') : TakenIn fuel (done ++ done') (steps ++ steps') := by
  obtain ⟨taken, sublist, all⟩ := first
  obtain ⟨taken', sublist', all'⟩ := later
  exact ⟨taken ++ taken', sublist.append sublist', List.rel_append all all'⟩

/-- What a step makes of the messages that wait. -/
theorem Messenger.Owes.step (sized : event.Sized) (owes : s.Owes size fuel (event.loads + remaining) pending)
    (steps : messageStep loader malloc size fuel event s = some s') :
    Enlarged fuel s.modules s'.modules ∧ ∃ (done : List (EcoreMessage × Option Delivery)) (pending' : List EcoreMessage),
      pending ++ event.accepted?.toList = done.map Prod.fst ++ pending' ∧
      event.delivered?.toList = done.filterMap Prod.snd ∧ TakenIn fuel done (event.handling s) ∧
      (∀ x ∈ done, Delivers fuel s.modules x.1 x.2) ∧ s'.Owes size fuel remaining pending' := by
  have nothing (x : EcoreMessage × Option Delivery) (member : x ∈ []) : Delivers fuel s.modules x.1 x.2 :=
    absurd member List.not_mem_nil
  cases event with
  | call call code =>
      obtain ⟨⟨code', modules⟩, runs, steps⟩ := Option.bind_eq_some_iff.mp steps
      obtain ⟨_, equal⟩ := Option.ite_none_right_eq_some.mp steps
      cases equal
      obtain ⟨ready, answering, running, there, waits⟩ := owes
      obtain ⟨ready', loads⟩ := ModuleCall.run_loads sized ready runs
      exact ⟨loads.toEnlarged, [], pending, List.append_nil _, rfl, .none .., nothing, ready', loads.answering answering,
        running, there, waits⟩
  | post object index message data code =>
      obtain ⟨modules, owes'⟩ := owes.post steps
      exact ⟨modules ▸ .refl fuel _, [], _, rfl, rfl, .none .., nothing, owes'.mono (Nat.le_add_left ..)⟩
  | send index message data code delivery =>
      obtain ⟨⟨result, s₁⟩, sends, steps⟩ := Option.bind_eq_some_iff.mp steps
      obtain ⟨delivery', sends', _⟩ := sendMessageTo_apply owes.ready owes.answering index message data
      obtain ⟨_, equal⟩ := Option.ite_none_right_eq_some.mp steps
      cases sends.symm.trans sends'
      cases equal
      exact ⟨.refl fuel _, [], pending, List.append_nil _, rfl, .none .., nothing, owes.mono (Nat.le_add_left ..)⟩
  | handle delivery =>
      obtain ⟨modules, ⟨rfl, owes'⟩ | ⟨m, rest, rfl, delivers, owes'⟩⟩ := owes.handle steps
      · exact ⟨modules ▸ .refl fuel _, [], pending, List.append_nil _, rfl, .none .., nothing,
          owes'.mono (Nat.le_add_left ..)⟩
      · refine ⟨modules ▸ .refl fuel _, [(m, delivery)], rest, List.append_nil _, ?_, ?_, ?_,
          owes'.mono (Nat.le_add_left ..)⟩
        · cases delivery <;> rfl
        · exact ⟨[(s.modules, delivery)], .refl _, .cons ⟨rfl, delivers⟩ .nil⟩
        · intro x member
          rw [List.mem_singleton.mp member]
          exact delivers

/-- What a run has made of the messages: those that are handled, each with the call that was made, and those that
wait. A message that is handled has had a step of its own, in which it was given to the module with its id, or dropped
because there was none. -/
structure Handled (fuel : Nat) (s : ModuleMemory) (accepted : List EcoreMessage) (delivered : List Delivery)
    (steps : List (ModuleMemory × Option Delivery)) (done : List (EcoreMessage × Option Delivery))
    (pending : List EcoreMessage) : Prop where
  order : accepted = done.map Prod.fst ++ pending
  calls : delivered = done.filterMap Prod.snd
  taken : TakenIn fuel done steps
  right : ∀ m d, (m, some d) ∈ done →
    Stored fuel s.tree (m.moduleId, d.module) ∧ d.msg = m.msg ∧ d.data = m.data

/-- There is a module for every message to some of the ids. -/
def HaveModules (ids : Word → Prop) (fuel : Nat) (s : ModuleMemory) (messages : List EcoreMessage) : Prop :=
  ∀ m ∈ messages, ids m.moduleId → ∃ p, Stored fuel s.tree (m.moduleId, p)

theorem HaveModules.accepted (loaded : HaveModules ids fuel s.modules pending) (posts : PostsToLoaded ids fuel event s) :
    HaveModules ids fuel s.modules (pending ++ event.accepted?.toList) := by
  intro m member here
  rcases List.mem_append.mp member with waits | new
  · exact loaded m waits here
  · cases event with
    | post object index message data code =>
        unfold MessageEvent.accepted? at new
        split at new
        · next same =>
            cases same
            obtain rfl := List.mem_singleton.mp new
            exact posts here rfl
        · cases new
    | _ => cases new

private theorem Delivers.ne_none {m : EcoreMessage} {delivery : Option Delivery} {modules : ModuleMemory} {p : Word}
    (delivers : Delivers fuel modules m delivery) (stored : Stored fuel modules.tree (m.moduleId, p)) :
    delivery ≠ none := by
  rcases delivers with ⟨q, _, rfl⟩ | ⟨absent, _⟩
  · exact Option.some_ne_none _
  · exact absurd stored (absent p)

theorem Messenger.Owes.run (sized : ∀ event ∈ events, event.Sized)
    (owes : s.Owes size fuel (events.map MessageEvent.loads).sum pending)
    (loaded : HaveModules ids fuel s.modules pending)
    (meets : Meets (messageStep loader malloc size fuel) (PostsToLoaded ids fuel) events s)
    (runs : run (messageStep loader malloc size fuel) events s = some s') :
    Enlarged fuel s.modules s'.modules ∧ ∃ (done : List (EcoreMessage × Option Delivery)) (pending' : List EcoreMessage),
      Handled fuel s'.modules (pending ++ events.filterMap MessageEvent.accepted?)
        (events.filterMap MessageEvent.delivered?) (handlings (messageStep loader malloc size fuel) events s) done pending' ∧
      (∀ x ∈ done, ids x.1.moduleId → x.2 ≠ none) ∧ s'.Owes size fuel 0 pending' := by
  induction events generalizing s pending with
  | nil =>
      cases runs
      exact ⟨.refl fuel _, [], pending, ⟨List.append_nil _, rfl, .none .., fun _ _ member => absurd member List.not_mem_nil⟩,
        fun _ member => absurd member List.not_mem_nil, owes⟩
  | cons event events ih =>
      obtain ⟨between, steps, rest⟩ := run_cons.mp runs
      obtain ⟨posts, later⟩ := meets
      rw [List.map_cons, List.sum_cons] at owes
      obtain ⟨enlarged, done, pending₁, order, calls, taken, delivers, owes₁⟩ :=
        owes.step (sized event List.mem_cons_self) steps
      have whole := loaded.accepted posts
      rw [order] at whole
      have loaded₁ : HaveModules ids fuel between.modules pending₁ := fun m member here =>
        (whole m (List.mem_append_right _ member) here).imp fun p stored => enlarged.keeps _ stored
      obtain ⟨enlarged', done', pending', ⟨order', calls', taken', right'⟩, served', owes'⟩ :=
        ih (fun other member => sized other (List.mem_cons_of_mem _ member)) owes₁ loaded₁ (later between steps) rest
      refine ⟨enlarged.trans enlarged', done ++ done', pending', ⟨?_, ?_, ?_, ?_⟩, ?_, owes'⟩
      · have front : (event :: events).filterMap MessageEvent.accepted? =
            event.accepted?.toList ++ events.filterMap MessageEvent.accepted? := by
          cases taken : event.accepted? <;> simp [taken]
        rw [front, ← List.append_assoc, order, List.append_assoc, order', List.map_append, List.append_assoc]
      · have front : (event :: events).filterMap MessageEvent.delivered? =
            event.delivered?.toList ++ events.filterMap MessageEvent.delivered? := by
          cases given : event.delivered? <;> simp [given]
        rw [front, calls, calls', List.filterMap_append]
      · rw [handlings, steps]
        exact taken.append taken'
      · intro m d member
        rcases List.mem_append.mp member with first | second
        · rcases delivers _ first with ⟨p, stored, same⟩ | ⟨_, same⟩
          · obtain rfl : d = ⟨p, m.msg, m.data⟩ := Option.some.inj same
            exact ⟨enlarged'.keeps _ (enlarged.keeps _ stored), rfl, rfl⟩
          · cases same
        · exact right' m d second
      · intro x member here
        rcases List.mem_append.mp member with first | second
        · obtain ⟨p, stored⟩ := whole x.1 (List.mem_append_left _ (List.mem_map_of_mem first)) here
          exact (delivers x first).ne_none stored
        · exact served' x second here

/-- The handler takes a step whenever it likes. -/
theorem Messenger.Owes.goes (loader : Loader) (malloc : Malloc) (owes : s.Owes size fuel remaining pending) :
    ∃ delivery s', messageStep loader malloc size fuel (.handle delivery) s = some s' ∧
      s'.modules = s.modules ∧
      (pending = [] ∨ (delivery = none ∧ s'.Owes size fuel remaining pending ∧ stepsLeft s'.engine < stepsLeft s.engine) ∨
        ∃ m rest, pending = m :: rest ∧ Delivers fuel s.modules m delivery ∧ s'.Owes size fuel remaining rest) := by
  obtain ⟨ready, answering, running, there, events, queued, carry⟩ := owes
  obtain ⟨dispatched, engine, handles, closer⟩ := eventEngineHandler_goes queued running there
  obtain ⟨running', there'⟩ := eventEngineHandler_running running there handles
  rcases queued.dispatches running handles with ⟨rfl, queued'⟩ | ⟨info, rest, rfl, rfl, queued'⟩
  · refine ⟨none, { s with engine }, by simp [messageStep, handles], rfl, ?_⟩
    cases pending with
    | nil => exact .inl rfl
    | cons m others =>
        have waiting : events ≠ [] := fun empty => by
          rw [empty] at carry
          cases carry
        exact .inr (.inl ⟨rfl, ⟨ready, answering, running', there', events, queued', carry⟩, closer waiting rfl⟩)
  · obtain ⟨m, others, carries, carry', rfl⟩ := List.forall₂_cons_left_iff.mp carry
    have here : Messenger.Carries { s with engine } info m := carries
    obtain ⟨delivery, calls, delivers⟩ :=
      ecoreEventHandler_delivers (s := { s with engine }) ready answering here
    refine ⟨delivery, { s with engine }, ?_, rfl, .inr (.inr ⟨m, others, rfl, delivers, ready, answering, running',
      there', rest, queued', carry'⟩)⟩
    simp [messageStep, handles, calls]

end Steps

/-- After `init_module` and `init_event`. -/
def Messenger.start (modules : ModuleMemory) (memory : List EventInfo) (garbage : EventInfo) : Messenger :=
  ⟨modules, Engine.start memory garbage, fun _ => none⟩

theorem Initialised.owes {malloc : Malloc} {modules : ModuleMemory} {fuel remaining : Nat}
    (initialised : Initialised malloc modules) (enough : remaining < fuel) {memory : List EventInfo}
    (room : 0 < memory.length) (garbage : EventInfo) :
    (Messenger.start modules memory garbage).Owes memory.length fuel remaining [] where
  ready := (initialised.ready enough).1
  answering e here := absurd here (initialised.empty (Nat.zero_lt_of_lt enough) e)
  running := rfl
  there := by simp [Messenger.start, Engine.start]
  waits := ⟨[], Engine.start_owes room garbage, .nil⟩

end GbfLibrary.Ecore
