import GbfLibrary.Enet.Traffic
import GbfLibrary.Errno
import GbfLibrary.Rbtree.Failures

/-!
# A server gets a new client

`enet_new_tcp_server_client_object`, `enet_add_client_to_server` and
`enet_delete_tcp_server_client_object` of `tcp_server.c`, with the tree of the clients and their
objects in memory.
-/

set_option autoImplicit false

namespace GbfLibrary.Enet

open Rbtree Maps

/-- What can be seen of the calls. -/
inductive ClientEffect where
  | closed (fd : Socket)
  | freed (object : Word)
  /-- `conn_cb` is called, with an object that is still there or not. -/
  | connected (object : Word) (live : Bool)
  deriving DecidableEq

/-- The `clients_tree` of a server, and the `fd` of the client objects that are allocated, where `none`
is -1. -/
structure ServerMemory where
  tree : RbMachine
  clients : Word → Option (Option Socket)
  effects : List ClientEffect

/-- A program that fails where it touches an object that was freed. -/
abbrev ServerProg (α : Type) := StateT ServerMemory Option α

namespace ServerProg

variable {α β : Type}

theorem bind_apply (prog : ServerProg α) (next : α → ServerProg β) (s : ServerMemory) :
    (prog >>= next) s = (prog s).bind fun result => next result.1 result.2 := rfl

theorem pure_apply (x : α) (s : ServerMemory) : (pure x : ServerProg α) s = some (x, s) := rfl

theorem ite_apply (c : Prop) [Decidable c] (yes no : ServerProg α) (s : ServerMemory) :
    (if c then yes else no) s = if c then yes s else no s := by
  split <;> rfl

end ServerProg

def onTree {α : Type} (prog : RbProg α) : ServerProg α := fun s =>
  (prog s.tree).map fun result => (result.1, { s with tree := result.2 })

def emit (effect : ClientEffect) : ServerProg Unit := fun s =>
  some ((), { s with effects := s.effects ++ [effect] })

def readFd (object : Word) : ServerProg (Option Socket) := fun s => (s.clients object).map (·, s)

def setClient (object : Word) (client : Option (Option Socket)) : ServerProg Unit := fun s =>
  some ((), { s with clients := Function.update s.clients object client })

def freeClient (object : Word) : ServerProg Unit := do
  let _ ← readFd object
  setClient object none
  emit (.freed object)

def closesocket : Option Socket → ServerProg Unit
  | none => return ()
  | some fd => emit (.closed fd)

/-- `enet_delete_tcp_server_client_object`. -/
def deleteTcpServerClientObject (object : Word) : ServerProg Unit := do
  if object = 0 then return ()
  else (do
    let fd ← readFd object
    if fd ≠ some 0 then closesocket fd else pure ()
    freeClient object)

/-- The key of a client in the tree. -/
def clientKey : Option Socket → Word
  | none => -1
  | some fd => BitVec.ofNat 32 fd

/-- What the codes of the tree are for the server. -/
def statusOf : Rbtree.Code → Status
  | .ok => .ok
  | .invParam => .invParam
  | .noMemory => .noMemory
  | .alreadyExist => .alreadyExist
  | .notFound => .notFound
  | .corrupt => .dataCorrupt

/-- What the calls return that are not modelled: `enet_get_tcp_server_attr` and the `conn_cb` that it reads,
`calloc`, `is_accpetable`, `accept` and the error it leaves, `enet_handle_wlock`, and `thp_deliver_task`. -/
structure Accepting where
  attributes : Status
  connCb : Bool
  object : Option Word
  acceptable : Bool
  accepted : Option Socket
  error : Status
  lock : Status
  delivery : Status

/-- `enet_add_client_to_server`. -/
def addClientToServer (malloc : Memory.Malloc) (fuel : Nat) (lock delivery : Status) (object : Word) :
    ServerProg Status := do
  if lock ≠ .ok then return lock
  else (do
    let fd ← readFd object
    let inserted ← onTree (rbtInsert malloc fuel (clientKey fd) object true true)
    if inserted.1 ≠ .ok then return statusOf inserted.1
    else if inserted.2.getD 0 ≠ 0 then (do
      freeClient (inserted.2.getD 0)
      return .ok)
    else if delivery ≠ .ok then (do
      let removed ← onTree (rbtRemove fuel (clientKey fd) true)
      if removed.2.getD 0 ≠ 0 then deleteTcpServerClientObject (removed.2.getD 0) else pure ()
      return delivery)
    else return .ok)

/-- `conn_cb` is called with the object. -/
def callConnected (object : Word) : ServerProg Unit := fun s =>
  emit (.connected object (s.clients object).isSome) s

/-- The end of `enet_new_tcp_server_client_object`. -/
def announceClient (connCb : Bool) (object : Word) (st : Status) : ServerProg Status := do
  if st ≠ .ok then deleteTcpServerClientObject object else pure ()
  if connCb = true then callConnected object else pure ()
  return st

/-- `enet_new_tcp_server_client_object`. -/
def newTcpServerClientObject (malloc : Memory.Malloc) (fuel : Nat) (accepting : Accepting) : ServerProg Status := do
  if accepting.attributes ≠ .ok then return accepting.attributes
  else match accepting.object with
    | none => return .noMemory
    | some out => do
      setClient out (some (some 0))
      if accepting.acceptable = false then (do
        freeClient out
        return .ok)
      else (do
        setClient out (some accepting.accepted)
        if accepting.accepted = none then (do
          deleteTcpServerClientObject out
          return accepting.error)
        else (do
          let st ← addClientToServer malloc fuel accepting.lock accepting.delivery out
          announceClient accepting.connCb out st))

/-- The new client is released once if it is not in the tree in the end, with its socket, and not at all if it
is; the tree names an object that is there, and so does every call of `conn_cb`. -/
structure Handled (fuel : Nat) (s : ServerMemory) (out : Word) (fd : Socket) : Prop where
  added : Bound fuel s.tree (clientKey (some fd)) out → .freed out ∉ s.effects ∧ .closed fd ∉ s.effects
  dropped : ¬ Bound fuel s.tree (clientKey (some fd)) out →
    s.effects.count (.freed out) = 1 ∧ s.effects.count (.closed fd) = 1
  live : ∀ client, Bound fuel s.tree (clientKey (some fd)) client → s.clients client ≠ none
  connected : ∀ client live, .connected client live ∈ s.effects → live = true

/-- The calls succeed, or replace an entry; or nobody is told that they failed, the descriptor is not 0, and the
task was not what failed. -/
def Accepting.Sound (malloc : Memory.Malloc) (fuel : Nat) (tree : RbMachine) (accepting : Accepting)
    (fd : Socket) : Prop :=
  (accepting.lock = .ok ∧
    ((∃ old, Bound fuel tree (clientKey (some fd)) old) ∨ Supplied malloc tree ∧ accepting.delivery = .ok)) ∨
  (accepting.connCb = false ∧ fd ≠ 0 ∧ (accepting.lock ≠ .ok ∨
    (¬ ∃ old, Bound fuel tree (clientKey (some fd)) old) ∧ ¬ Supplied malloc tree ∧
      (tree.glob.root ≠ 0 ∨ accepting.delivery ≠ .ok)))

section Calls

variable {s : ServerMemory} {malloc : Memory.Malloc} {fuel : Nat} {object : Word} {fd : Option Socket}

private theorem readFd_apply (live : s.clients object = some fd) : readFd object s = some (fd, s) := by
  simp [readFd, live]

private theorem freeClient_apply (live : s.clients object = some fd) : freeClient object s =
    some ((), ⟨s.tree, Function.update s.clients object none, s.effects ++ [.freed object]⟩) := by
  simp [freeClient, ServerProg.bind_apply, readFd_apply live, setClient, emit]

/-- What closing a socket shows. -/
def closing (fd : Socket) : List ClientEffect := if fd = 0 then [] else [.closed fd]

private theorem deleteTcpServerClientObject_apply {fd : Socket} (notNull : object ≠ 0)
    (live : s.clients object = some (some fd)) : deleteTcpServerClientObject object s =
      some ((), ⟨s.tree, Function.update s.clients object none, s.effects ++ closing fd ++ [.freed object]⟩) := by
  rw [deleteTcpServerClientObject, if_neg notNull, ServerProg.bind_apply, readFd_apply live, Option.bind_some, closing]
  by_cases zero : fd = 0
  · rw [if_neg (by simp [zero]), if_pos zero, List.append_nil]
    exact freeClient_apply live
  · rw [if_pos (by simp [zero]), if_neg zero]
    exact freeClient_apply live

private theorem deleteTcpServerClientObject_freed (notNull : object ≠ 0) (freed : s.clients object = none) :
    deleteTcpServerClientObject object s = none := by
  rw [deleteTcpServerClientObject, if_neg notNull, ServerProg.bind_apply, readFd, freed]
  rfl

theorem onTree_apply {α : Type} {prog : RbProg α} {x : α} {tree : RbMachine} (runs : prog s.tree = some (x, tree)) :
    onTree prog s = some (x, { s with tree }) := by
  simp [onTree, runs]

section Add

variable {lock delivery : Status} {old : Option Word} {code : Rbtree.Code} {tree tree' : RbMachine} {other : Word}

private theorem addClientToServer_refused (refused : lock ≠ .ok) :
    addClientToServer malloc fuel lock delivery object s = some (lock, s) := by
  rw [addClientToServer, if_pos refused, ServerProg.pure_apply]

private theorem addClientToServer_inserted (live : s.clients object = some fd)
    (inserts : rbtInsert malloc fuel (clientKey fd) object true true s.tree = some ((code, old), tree)) :
    addClientToServer malloc fuel .ok delivery object s =
      (if code ≠ .ok then pure (statusOf code)
        else if old.getD 0 ≠ 0 then (do
          freeClient (old.getD 0)
          pure .ok)
        else if delivery ≠ .ok then (do
          let removed ← onTree (rbtRemove fuel (clientKey fd) true)
          if removed.2.getD 0 ≠ 0 then deleteTcpServerClientObject (removed.2.getD 0) else pure ()
          pure delivery)
        else pure .ok : ServerProg Status) { s with tree } := by
  rw [addClientToServer, if_neg (not_not.mpr rfl), ServerProg.bind_apply, readFd_apply live, Option.bind_some,
    ServerProg.bind_apply, onTree_apply inserts, Option.bind_some]

private theorem addClientToServer_full (live : s.clients object = some fd) (fails : code ≠ .ok)
    (inserts : rbtInsert malloc fuel (clientKey fd) object true true s.tree = some ((code, old), tree)) :
    addClientToServer malloc fuel .ok delivery object s = some (statusOf code, { s with tree }) := by
  rw [addClientToServer_inserted live inserts, if_pos fails, ServerProg.pure_apply]

/-- The entry of another client is replaced, and no task is delivered. -/
theorem addClientToServer_replaces {otherFd : Option Socket} (live : s.clients object = some fd)
    (inserts : rbtInsert malloc fuel (clientKey fd) object true true s.tree = some ((.ok, some other), tree))
    (notNull : other ≠ 0) (there : s.clients other = some otherFd) :
    addClientToServer malloc fuel .ok delivery object s =
      some (.ok, ⟨tree, Function.update s.clients other none, s.effects ++ [.freed other]⟩) := by
  have frees : freeClient other { s with tree } =
      some ((), ⟨tree, Function.update s.clients other none, s.effects ++ [.freed other]⟩) := freeClient_apply there
  rw [addClientToServer_inserted live inserts, if_neg (not_not.mpr rfl), Option.getD_some, if_pos notNull,
    ServerProg.bind_apply, frees]
  rfl

private theorem addClientToServer_delivers (live : s.clients object = some fd)
    (inserts : rbtInsert malloc fuel (clientKey fd) object true true s.tree = some ((.ok, none), tree)) :
    addClientToServer malloc fuel .ok .ok object s = some (.ok, { s with tree }) := by
  rw [addClientToServer_inserted live inserts, if_neg (not_not.mpr rfl), Option.getD_none, if_neg (not_not.mpr rfl),
    if_neg (not_not.mpr rfl), ServerProg.pure_apply]

/-- The task is not delivered, and the client is not in the tree. -/
theorem addClientToServer_unbound (live : s.clients object = some fd) (fails : delivery ≠ .ok)
    (inserts : rbtInsert malloc fuel (clientKey fd) object true true s.tree = some ((.ok, none), tree))
    (removes : rbtRemove fuel (clientKey fd) true tree = some ((code, none), tree')) :
    addClientToServer malloc fuel .ok delivery object s = some (delivery, { s with tree := tree' }) := by
  have undone : onTree (rbtRemove fuel (clientKey fd) true) { s with tree } =
      some ((code, none), { s with tree := tree' }) := onTree_apply removes
  rw [addClientToServer_inserted live inserts, if_neg (not_not.mpr rfl), Option.getD_none, if_neg (not_not.mpr rfl),
    if_pos fails, ServerProg.bind_apply, undone]
  rfl

/-- The task is not delivered, and the client is taken out of the tree and deleted. -/
theorem addClientToServer_undone {fd : Socket} (notNull : object ≠ 0) (live : s.clients object = some (some fd))
    (fails : delivery ≠ .ok)
    (inserts : rbtInsert malloc fuel (clientKey (some fd)) object true true s.tree = some ((.ok, none), tree))
    (removes : rbtRemove fuel (clientKey (some fd)) true tree = some ((code, some object), tree')) :
    addClientToServer malloc fuel .ok delivery object s = some (delivery,
      ⟨tree', Function.update s.clients object none, s.effects ++ closing fd ++ [.freed object]⟩) := by
  have undone : onTree (rbtRemove fuel (clientKey (some fd)) true) { s with tree } =
      some ((code, some object), { s with tree := tree' }) := onTree_apply removes
  have deletes : deleteTcpServerClientObject object { s with tree := tree' } = some ((),
      ⟨tree', Function.update s.clients object none, s.effects ++ closing fd ++ [.freed object]⟩) :=
    deleteTcpServerClientObject_apply notNull live
  rw [addClientToServer_inserted live inserts, if_neg (not_not.mpr rfl), Option.getD_none, if_neg (not_not.mpr rfl),
    if_pos fails, ServerProg.bind_apply, undone, Option.bind_some, Option.getD_some, if_pos notNull,
    ServerProg.bind_apply, deletes]
  rfl

end Add

/-- What calling `conn_cb` shows. -/
def announcing (connCb : Bool) (object : Word) (live : Bool) : List ClientEffect :=
  if connCb = true then [.connected object live] else []

private theorem callConnected_apply (connCb : Bool) (object : Word) (st : Status) (s : ServerMemory) :
    (do
      if connCb = true then callConnected object else pure ()
      pure st : ServerProg Status) s =
        some (st, { s with effects := s.effects ++ announcing connCb object (s.clients object).isSome }) := by
  cases connCb with
  | false =>
      rw [if_neg Bool.false_ne_true, announcing, if_neg Bool.false_ne_true, List.append_nil]
      rfl
  | true => rfl

private theorem announceClient_added (connCb : Bool) (live : s.clients object = some fd) :
    announceClient connCb object .ok s =
      some (.ok, { s with effects := s.effects ++ announcing connCb object true }) := by
  rw [announceClient, if_neg (not_not.mpr rfl)]
  refine (callConnected_apply connCb object .ok s).trans ?_
  rw [live, Option.isSome_some]

theorem announceClient_failed {st : Status} {fd : Socket} (connCb : Bool) (fails : st ≠ .ok) (notNull : object ≠ 0)
    (live : s.clients object = some (some fd)) :
    announceClient connCb object st s = some (st, ⟨s.tree, Function.update s.clients object none,
      s.effects ++ closing fd ++ [.freed object] ++ announcing connCb object false⟩) := by
  rw [announceClient, if_pos fails, ServerProg.bind_apply, deleteTcpServerClientObject_apply notNull live,
    Option.bind_some]
  refine (callConnected_apply connCb object st _).trans ?_
  simp only [Function.update_self, Option.isSome_none]

private theorem announceClient_freed {st : Status} (connCb : Bool) (fails : st ≠ .ok) (notNull : object ≠ 0)
    (freed : s.clients object = none) : announceClient connCb object st s = none := by
  rw [announceClient, if_pos fails, ServerProg.bind_apply, deleteTcpServerClientObject_freed notNull freed]
  rfl

/-- The calls up to the end of `enet_new_tcp_server_client_object` that lead to `enet_add_client_to_server`. -/
theorem newTcpServerClientObject_adds {accepting : Accepting} {fd : Socket} (asked : accepting.attributes = .ok)
    (allocated : accepting.object = some object) (acceptable : accepting.acceptable = true)
    (accepted : accepting.accepted = some fd) :
    newTcpServerClientObject malloc fuel accepting s =
      (addClientToServer malloc fuel accepting.lock accepting.delivery object
        { s with clients := Function.update s.clients object (some (some fd)) }).bind fun result =>
          announceClient accepting.connCb object result.1 result.2 := by
  have prepared : Function.update (Function.update s.clients object (some (some 0))) object (some (some fd)) =
      Function.update s.clients object (some (some fd)) := Function.update_idem ..
  rw [newTcpServerClientObject, if_neg (not_not.mpr asked), allocated, ← prepared]
  simp only [acceptable, accepted, Bool.true_eq_false, reduceCtorEq, if_false]
  rfl

end Calls

section Outcomes

variable {malloc : Memory.Malloc} {fuel : Nat} {out : Word} {fd : Socket} {connCb : Bool} {tree : RbMachine}
  {clients : Word → Option (Option Socket)}

private theorem handled_added {effects : List ClientEffect}
    (bound : ∀ client, Bound fuel tree (clientKey (some fd)) client ↔ client = out) (live : clients out ≠ none)
    (others : ∀ effect ∈ effects, ∃ other, other ≠ out ∧ effect = .freed other) :
    Handled fuel ⟨tree, clients, effects ++ announcing connCb out true⟩ out fd := by
  have calls : ∀ effect ∈ announcing connCb out true, effect = .connected out true := by
    cases connCb <;> simp [announcing]
  constructor
  · intro _
    constructor
    · intro member
      rcases List.mem_append.mp member with before | after
      · obtain ⟨other, different, same⟩ := others _ before
        exact different (ClientEffect.freed.inj same).symm
      · cases calls _ after
    · intro member
      rcases List.mem_append.mp member with before | after
      · obtain ⟨_, _, same⟩ := others _ before
        cases same
      · cases calls _ after
  · exact fun missing => absurd ((bound out).mpr rfl) missing
  · rintro client here
    rw [(bound client).mp here]
    exact live
  · intro client alive member
    rcases List.mem_append.mp member with before | after
    · obtain ⟨_, _, same⟩ := others _ before
      cases same
    · cases calls _ after
      rfl

private theorem handled_dropped_iff
    (bound : ∀ client, Bound fuel tree (clientKey (some fd)) client → client ≠ out ∧ clients client ≠ none) :
    Handled fuel ⟨tree, Function.update clients out none,
      [] ++ closing fd ++ [.freed out] ++ announcing connCb out false⟩ out fd ↔ connCb = false ∧ fd ≠ 0 := by
  have missing : ¬ Bound fuel tree (clientKey (some fd)) out := fun here => (bound out here).1 rfl
  constructor
  · intro handled
    constructor
    · cases connCb with
      | false => rfl
      | true =>
          have wrong := handled.connected out false (by simp [announcing])
          cases wrong
    · rintro rfl
      have once := (handled.dropped missing).2
      cases connCb <;> simp [closing, announcing] at once
  · rintro ⟨rfl, notZero⟩
    constructor
    · exact fun here => absurd here missing
    · simp [closing, announcing, notZero]
    · intro client here
      obtain ⟨different, live⟩ := bound client here
      simpa only [Function.update_of_ne different] using live
    · simp [closing, announcing, notZero]

theorem not_handled_of_kept {effects : List ClientEffect} (missing : ¬ Bound fuel tree (clientKey (some fd)) out)
    (kept : .freed out ∉ effects) : ¬ Handled fuel ⟨tree, clients, effects⟩ out fd := by
  intro handled
  have once := (handled.dropped missing).1
  rw [List.count_eq_zero.mpr kept] at once
  cases once

/-- What the tree, the objects and the calls that are not modelled are before a client is added. -/
structure Offered (fuel : Nat) (tree : RbMachine) (clients : Word → Option (Option Socket)) (accepting : Accepting)
    (out : Word) (fd : Socket) : Prop where
  attributes : accepting.attributes = .ok
  object : accepting.object = some out
  acceptable : accepting.acceptable = true
  accepted : accepting.accepted = some fd
  notNull : out ≠ 0
  fresh : clients out = none
  null : clients 0 = none
  live : ∀ client, Bound fuel tree (clientKey (some fd)) client → clients client ≠ none

/-- The memory when `enet_add_client_to_server` is called. -/
abbrev offering (tree : RbMachine) (clients : Word → Option (Option Socket)) (out : Word) (fd : Socket) :
    ServerMemory := ⟨tree, Function.update clients out (some (some fd)), []⟩

theorem offering_live (tree : RbMachine) (clients : Word → Option (Option Socket)) (out : Word) (fd : Socket) :
    (offering tree clients out fd).clients out = some (some fd) := Function.update_self ..

variable {accepting : Accepting} {shape : RbTree} {nodes : List Memory.Addr} {levels : Nat} {contents : Contents}

/-- The property of a call. -/
def HandlesClient (malloc : Memory.Malloc) (fuel : Nat) (tree : RbMachine) (clients : Word → Option (Option Socket))
    (accepting : Accepting) (out : Word) (fd : Socket) : Prop :=
  ∃ st s, newTcpServerClientObject malloc fuel accepting ⟨tree, clients, []⟩ = some (st, s) ∧ Handled fuel s out fd

/-- A call that returned is judged by what it left. -/
theorem handlesClient_iff {st : Status} {s : ServerMemory}
    (runs : newTcpServerClientObject malloc fuel accepting ⟨tree, clients, []⟩ = some (st, s)) :
    HandlesClient malloc fuel tree clients accepting out fd ↔ Handled fuel s out fd := by
  constructor
  · rintro ⟨_, _, runs', handled⟩
    rw [runs] at runs'
    cases runs'
    exact handled
  · exact fun handled => ⟨st, s, runs, handled⟩

/-- The tree in memory has these entries. -/
def Stores (fuel : Nat) (tree : RbMachine) (contents : Contents) : Prop :=
  ∃ shape nodes levels, Holds tree shape nodes levels ∧ Binds shape.inorder contents ∧ shape.labels.length < fuel

theorem Stores.bound_iff {key client : Word} (stores : Stores fuel tree contents) :
    Bound fuel tree key client ↔ contents key = some client := by
  obtain ⟨shape, nodes, levels, holds, binds, enough⟩ := stores
  exact holds.bound_iff binds enough

/-- What `enet_add_client_to_server` returns and leaves, and where. -/
inductive AddResult (malloc : Memory.Malloc) (fuel : Nat) (tree : RbMachine)
    (clients : Word → Option (Option Socket)) (accepting : Accepting) (out : Word) (fd : Socket)
    (contents : Contents) : Option (Status × ServerMemory) → Prop where
  | refused (locked : accepting.lock ≠ .ok) :
      AddResult malloc fuel tree clients accepting out fd contents (some (accepting.lock, offering tree clients out fd))
  | replaced {old : Word} {tree' : RbMachine} (locked : accepting.lock = .ok)
      (entry : contents (clientKey (some fd)) = some old) (different : old ≠ out)
      (stores : Stores fuel tree' (Function.update contents (clientKey (some fd)) (some out))) :
      AddResult malloc fuel tree clients accepting out fd contents (some (.ok,
        ⟨tree', Function.update (offering tree clients out fd).clients old none, [.freed old]⟩))
  | delivered {tree' : RbMachine} (locked : accepting.lock = .ok) (absent : contents (clientKey (some fd)) = none)
      (supplied : Supplied malloc tree) (delivers : accepting.delivery = .ok)
      (stores : Stores fuel tree' (Function.update contents (clientKey (some fd)) (some out))) :
      AddResult malloc fuel tree clients accepting out fd contents (some (.ok, offering tree' clients out fd))
  | undone {s : ServerMemory} (locked : accepting.lock = .ok) (absent : contents (clientKey (some fd)) = none)
      (supplied : Supplied malloc tree) (fails : accepting.delivery ≠ .ok) (freed : s.clients out = none) :
      AddResult malloc fuel tree clients accepting out fd contents (some (accepting.delivery, s))
  | unbound (locked : accepting.lock = .ok) (absent : contents (clientKey (some fd)) = none)
      (unsupplied : ¬ Supplied malloc tree) (empty : tree.glob.root = 0) (delivers : accepting.delivery = .ok)
      (stores : Stores fuel tree.miss contents) :
      AddResult malloc fuel tree clients accepting out fd contents (some (.ok, offering tree.miss clients out fd))
  | full {st : Status} {tree' : RbMachine} (locked : accepting.lock = .ok)
      (absent : contents (clientKey (some fd)) = none) (unsupplied : ¬ Supplied malloc tree)
      (cause : tree.glob.root ≠ 0 ∨ accepting.delivery ≠ .ok) (fails : st ≠ .ok) (stores : Stores fuel tree' contents) :
      AddResult malloc fuel tree clients accepting out fd contents (some (st, offering tree' clients out fd))

section Results

theorem Offered.replaces (offered : Offered fuel tree clients accepting out fd) (holds : Holds tree shape nodes levels)
    (binds : Binds shape.inorder contents) (enough : shape.labels.length + 2 < fuel) (locked : accepting.lock = .ok)
    {old : Word} (entry : contents (clientKey (some fd)) = some old) :
    AddResult malloc fuel tree clients accepting out fd contents
      (addClientToServer malloc fuel accepting.lock accepting.delivery out (offering tree clients out fd)) := by
  have supplied : contents (clientKey (some fd)) = none → Supplied malloc tree := by
    rw [entry]
    nofun
  have served : Serves (rbtInsert malloc fuel (clientKey (some fd)) out true true) tree shape _ _ :=
    rbtInsert_serves (clientKey (some fd)) out true true supplied holds binds (by omega)
  simp only [Contents.insert, entry, Bool.not_true, Bool.and_false, Bool.false_eq_true, if_false, if_true] at served
  obtain ⟨tree', shape', nodes', levels', inserts, holds', binds', longer⟩ := served
  have there := offered.live old ((holds.bound_iff binds (by omega)).mpr entry)
  obtain ⟨oldFd, there'⟩ := Option.ne_none_iff_exists'.mp there
  have different : old ≠ out := by
    rintro rfl
    exact there offered.fresh
  have notNull : old ≠ 0 := by
    rintro rfl
    exact there offered.null
  have other : (offering tree clients out fd).clients old = some oldFd := by
    simpa only [Function.update_of_ne different] using there'
  have adds : addClientToServer malloc fuel .ok accepting.delivery out (offering tree clients out fd) = _ :=
    addClientToServer_replaces (offering_live tree clients out fd) inserts notNull other
  rw [locked, adds]
  exact .replaced locked entry different ⟨shape', nodes', levels', holds', binds', by omega⟩

theorem Offered.delivers (offered : Offered fuel tree clients accepting out fd) (holds : Holds tree shape nodes levels)
    (binds : Binds shape.inorder contents) (enough : shape.labels.length + 2 < fuel) (locked : accepting.lock = .ok)
    (absent : contents (clientKey (some fd)) = none) (supplied : Supplied malloc tree) :
    AddResult malloc fuel tree clients accepting out fd contents
      (addClientToServer malloc fuel accepting.lock accepting.delivery out (offering tree clients out fd)) := by
  have served : Serves (rbtInsert malloc fuel (clientKey (some fd)) out true true) tree shape _ _ :=
    rbtInsert_serves (clientKey (some fd)) out true true (fun _ => supplied) holds binds (by omega)
  simp only [Contents.insert, absent, Bool.not_true, Bool.and_false, Bool.false_eq_true, if_false] at served
  obtain ⟨tree', shape', nodes', levels', inserts, holds', binds', longer⟩ := served
  have live := offering_live tree clients out fd
  by_cases delivers : accepting.delivery = .ok
  · have adds : addClientToServer malloc fuel .ok .ok out (offering tree clients out fd) = _ :=
      addClientToServer_delivers live inserts
    rw [locked, delivers, adds]
    exact .delivered locked absent supplied delivers ⟨shape', nodes', levels', holds', binds', by omega⟩
  · have served : Serves (rbtRemove fuel (clientKey (some fd)) true) tree' shape' _ _ :=
      rbtRemove_serves holds' binds' (by omega) (clientKey (some fd)) true
    simp only [Contents.remove, Function.update_self, if_true] at served
    obtain ⟨tree'', _, _, _, removes, _⟩ := served
    have adds : addClientToServer malloc fuel .ok accepting.delivery out (offering tree clients out fd) = _ :=
      addClientToServer_undone offered.notNull live delivers inserts removes
    rw [locked, adds]
    exact .undone locked absent supplied delivers (Function.update_self ..)

theorem Offered.misses (holds : Holds tree shape nodes levels) (binds : Binds shape.inorder contents)
    (enough : shape.labels.length + 2 < fuel) (locked : accepting.lock = .ok)
    (absent : contents (clientKey (some fd)) = none) (unsupplied : ¬ Supplied malloc tree) :
    AddResult malloc fuel tree clients accepting out fd contents
      (addClientToServer malloc fuel accepting.lock accepting.delivery out (offering tree clients out fd)) := by
  have live := offering_live tree clients out fd
  have holds' : Holds tree.miss shape nodes levels := holds.unchanged (.miss tree)
  have valid : (true && !true) = false := rfl
  by_cases rooted : tree.glob.root = 0
  · have inserts : rbtInsert malloc fuel (clientKey (some fd)) out true true tree = _ :=
      rbtInsert_noRoot valid ⟨rooted, unsupplied⟩ (by omega)
    by_cases delivers : accepting.delivery = .ok
    · have adds : addClientToServer malloc fuel .ok .ok out (offering tree clients out fd) = _ :=
        addClientToServer_delivers live inserts
      rw [locked, delivers, adds]
      exact .unbound locked absent unsupplied rooted delivers ⟨shape, nodes, levels, holds', binds, by omega⟩
    · have served : Serves (rbtRemove fuel (clientKey (some fd)) true) tree.miss shape _ _ :=
        rbtRemove_serves holds' binds (by omega) (clientKey (some fd)) true
      simp only [Contents.remove, absent] at served
      obtain ⟨tree'', shape'', nodes'', levels'', removes, holds'', binds'', longer⟩ := served
      have adds : addClientToServer malloc fuel .ok accepting.delivery out (offering tree clients out fd) = _ :=
        addClientToServer_unbound live delivers inserts removes
      rw [locked, adds]
      exact .full locked absent unsupplied (.inr delivers) delivers
        ⟨shape'', nodes'', levels'', holds'', binds'', by omega⟩
  · have absent' : ∀ datum, (clientKey (some fd), datum) ∉ shape.inorder := binds.noEntry absent
    have inserts : rbtInsert malloc fuel (clientKey (some fd)) out true true tree = _ :=
      rbtInsert_noNode valid holds (by omega) absent' unsupplied rooted
    have adds : addClientToServer malloc fuel .ok accepting.delivery out (offering tree clients out fd) = _ :=
      addClientToServer_full live (by decide) inserts
    rw [locked, adds]
    exact .full locked absent unsupplied (.inl rooted) (by decide) ⟨shape, nodes, levels, holds', binds, by omega⟩

theorem Offered.addResult (offered : Offered fuel tree clients accepting out fd) (holds : Holds tree shape nodes levels)
    (binds : Binds shape.inorder contents) (enough : shape.labels.length + 2 < fuel) :
    AddResult malloc fuel tree clients accepting out fd contents
      (addClientToServer malloc fuel accepting.lock accepting.delivery out (offering tree clients out fd)) := by
  by_cases locked : accepting.lock = .ok
  · cases entry : contents (clientKey (some fd)) with
    | some old => exact offered.replaces holds binds enough locked entry
    | none =>
        by_cases supplied : Supplied malloc tree
        · exact offered.delivers holds binds enough locked entry supplied
        · exact Offered.misses holds binds enough locked entry supplied
  · have adds : addClientToServer malloc fuel accepting.lock accepting.delivery out (offering tree clients out fd) = _ :=
      addClientToServer_refused locked
    rw [adds]
    exact .refused locked

/-- What `enet_new_tcp_server_client_object` leaves where the client was added. -/
theorem Offered.runs_added (offered : Offered fuel tree clients accepting out fd) {tree' : RbMachine}
    {clients' : Word → Option (Option Socket)} {effects : List ClientEffect} (live : clients' out = some (some fd))
    (adds : addClientToServer malloc fuel accepting.lock accepting.delivery out (offering tree clients out fd) =
      some (.ok, ⟨tree', clients', effects⟩)) :
    newTcpServerClientObject malloc fuel accepting ⟨tree, clients, []⟩ =
      some (.ok, ⟨tree', clients', effects ++ announcing accepting.connCb out true⟩) := by
  have runs : newTcpServerClientObject malloc fuel accepting ⟨tree, clients, []⟩ = _ :=
    newTcpServerClientObject_adds offered.attributes offered.object offered.acceptable offered.accepted
  have there : (⟨tree', clients', effects⟩ : ServerMemory).clients out = some (some fd) := live
  rw [adds, Option.bind_some, announceClient_added _ there] at runs
  exact runs

/-- What it leaves where the client was not added and is still there. -/
theorem Offered.runs_dropped (offered : Offered fuel tree clients accepting out fd) {tree' : RbMachine} {st : Status}
    (fails : st ≠ .ok)
    (adds : addClientToServer malloc fuel accepting.lock accepting.delivery out (offering tree clients out fd) =
      some (st, offering tree' clients out fd)) :
    newTcpServerClientObject malloc fuel accepting ⟨tree, clients, []⟩ =
      some (st, ⟨tree', Function.update (offering tree' clients out fd).clients out none,
        [] ++ closing fd ++ [.freed out] ++ announcing accepting.connCb out false⟩) := by
  have runs : newTcpServerClientObject malloc fuel accepting ⟨tree, clients, []⟩ = _ :=
    newTcpServerClientObject_adds offered.attributes offered.object offered.acceptable offered.accepted
  rw [adds, Option.bind_some,
    announceClient_failed _ fails offered.notNull (offering_live tree' clients out fd)] at runs
  exact runs

/-- A client that was deleted is deleted again. -/
theorem Offered.runs_freed (offered : Offered fuel tree clients accepting out fd) {s : ServerMemory} {st : Status}
    (fails : st ≠ .ok) (freed : s.clients out = none)
    (adds : addClientToServer malloc fuel accepting.lock accepting.delivery out (offering tree clients out fd) =
      some (st, s)) :
    newTcpServerClientObject malloc fuel accepting ⟨tree, clients, []⟩ = none := by
  have runs : newTcpServerClientObject malloc fuel accepting ⟨tree, clients, []⟩ = _ :=
    newTcpServerClientObject_adds offered.attributes offered.object offered.acceptable offered.accepted
  rw [adds, Option.bind_some, announceClient_freed _ fails offered.notNull freed] at runs
  exact runs

end Results

/-- The client is not in the tree and still there when `enet_add_client_to_server` returns an error. -/
theorem Offered.dropped_iff (offered : Offered fuel tree clients accepting out fd) {tree' : RbMachine} {st : Status}
    (same : ∀ client, Bound fuel tree' (clientKey (some fd)) client ↔ Bound fuel tree (clientKey (some fd)) client)
    (fails : st ≠ .ok)
    (adds : addClientToServer malloc fuel accepting.lock accepting.delivery out (offering tree clients out fd) =
      some (st, offering tree' clients out fd)) :
    HandlesClient malloc fuel tree clients accepting out fd ↔ accepting.connCb = false ∧ fd ≠ 0 := by
  rw [handlesClient_iff (offered.runs_dropped fails adds)]
  apply handled_dropped_iff
  intro client here
  have there := offered.live client ((same client).mp here)
  have different : client ≠ out := by
    rintro rfl
    exact there offered.fresh
  exact ⟨different, by simpa only [Function.update_of_ne different] using there⟩

theorem Offered.added (offered : Offered fuel tree clients accepting out fd) {tree' : RbMachine}
    {clients' : Word → Option (Option Socket)} {effects : List ClientEffect}
    (stores : Stores fuel tree' (Function.update contents (clientKey (some fd)) (some out)))
    (live : clients' out = some (some fd)) (others : ∀ effect ∈ effects, ∃ other, other ≠ out ∧ effect = .freed other)
    (adds : addClientToServer malloc fuel accepting.lock accepting.delivery out (offering tree clients out fd) =
      some (.ok, ⟨tree', clients', effects⟩)) :
    HandlesClient malloc fuel tree clients accepting out fd := by
  rw [handlesClient_iff (offered.runs_added live adds)]
  refine handled_added (fun client => ?_) (by simp [live]) others
  rw [stores.bound_iff, Function.update_self, Option.some.injEq, eq_comm]

theorem Offered.kept (offered : Offered fuel tree clients accepting out fd) {tree' : RbMachine}
    (missing : ¬ Bound fuel tree' (clientKey (some fd)) out)
    (adds : addClientToServer malloc fuel accepting.lock accepting.delivery out (offering tree clients out fd) =
      some (.ok, offering tree' clients out fd)) :
    ¬ HandlesClient malloc fuel tree clients accepting out fd := by
  rw [handlesClient_iff (offered.runs_added (offering_live tree' clients out fd) adds)]
  apply not_handled_of_kept missing
  cases accepting.connCb <;> simp [announcing]

theorem Offered.freed (offered : Offered fuel tree clients accepting out fd) {s : ServerMemory} {st : Status}
    (fails : st ≠ .ok) (freed : s.clients out = none)
    (adds : addClientToServer malloc fuel accepting.lock accepting.delivery out (offering tree clients out fd) =
      some (st, s)) :
    ¬ HandlesClient malloc fuel tree clients accepting out fd := by
  have runs := offered.runs_freed fails freed adds
  rintro ⟨_, _, goes, _⟩
  rw [runs] at goes
  cases goes

/-- A client that is offered is handled exactly where the calls are sound. -/
theorem handlesClient_iff_sound (malloc : Memory.Malloc) (calls : List Call) (fuel : Nat)
    (enough : calls.length + 2 < fuel) (tree : RbMachine) (reached : Reached malloc fuel calls tree)
    (clients : Word → Option (Option Socket)) (accepting : Accepting) (out : Word) (fd : Socket)
    (offered : Offered fuel tree clients accepting out fd) :
    HandlesClient malloc fuel tree clients accepting out fd ↔ accepting.Sound malloc fuel tree fd := by
  obtain ⟨shape, nodes, levels, holds, short⟩ := reached.holds (by omega)
  obtain ⟨contents, binds⟩ := holds.sorted.exists_binds
  have stored : Stores fuel tree contents := ⟨shape, nodes, levels, holds, binds, by omega⟩
  have nothing : contents (clientKey (some fd)) = none → ¬ ∃ old, Bound fuel tree (clientKey (some fd)) old := by
    rintro absent ⟨old, here⟩
    rw [stored.bound_iff.mp here] at absent
    cases absent
  have same : ∀ {tree'}, Stores fuel tree' contents → ∀ client,
      Bound fuel tree' (clientKey (some fd)) client ↔ Bound fuel tree (clientKey (some fd)) client :=
    fun stores client => stores.bound_iff.trans stored.bound_iff.symm
  have result : AddResult malloc fuel tree clients accepting out fd contents _ :=
    offered.addResult holds binds (by omega)
  generalize adds : addClientToServer malloc fuel accepting.lock accepting.delivery out
    (offering tree clients out fd) = left at result
  cases result with
  | refused locked =>
      rw [offered.dropped_iff (fun _ => Iff.rfl) locked adds]
      simp [Accepting.Sound, locked]
  | @replaced old tree' locked entry different stores =>
      have here : ∃ old, Bound fuel tree (clientKey (some fd)) old := ⟨old, stored.bound_iff.mpr entry⟩
      refine iff_of_true (offered.added stores ?_ ?_ adds) (.inl ⟨locked, .inl here⟩)
      · simp only [Function.update_of_ne different.symm, Function.update_self]
      · simpa using different
  | @delivered tree' locked absent supplied delivers stores =>
      refine iff_of_true (offered.added stores (offering_live tree' clients out fd) ?_ adds)
        (.inl ⟨locked, .inr ⟨supplied, delivers⟩⟩)
      exact fun effect member => absurd member List.not_mem_nil
  | undone locked absent supplied fails freed =>
      refine iff_of_false (offered.freed fails freed adds) ?_
      simp [Accepting.Sound, locked, nothing absent, supplied, fails]
  | unbound locked absent unsupplied empty delivers stores =>
      have missing : ¬ Bound fuel tree.miss (clientKey (some fd)) out := fun here =>
        offered.live out ((same stores out).mp here) offered.fresh
      refine iff_of_false (offered.kept missing adds) ?_
      simp [Accepting.Sound, locked, nothing absent, unsupplied, empty, delivers]
  | full locked absent unsupplied cause fails stores =>
      rw [offered.dropped_iff (same stores) fails adds]
      simp [Accepting.Sound, locked, nothing absent, unsupplied, cause]

/-- A tree after `rbt_new_tree`. -/
def newTree : RbMachine := ((rbtNewTree Memory.Malloc.bump true 0 0 emptyMemory).get rfl).2

private theorem newTree_reached : Reached Memory.Malloc.bump 3 [] newTree :=
  ⟨emptyMemory, 0, 0, newTree, [], by simp [emptyMemory], rfl, rfl⟩

/-- The first client of a server. -/
def firstClient (lock delivery : Status) : Accepting := ⟨.ok, true, some 8, true, some 5, .ok, lock, delivery⟩

private theorem firstClient_offered (lock delivery : Status) :
    Offered 3 newTree (fun _ => none) (firstClient lock delivery) 8 5 := by
  refine ⟨rfl, rfl, rfl, rfl, by decide, rfl, rfl, ?_⟩
  rintro client ⟨a, finds, notNull, _⟩
  have misses : rbtSearch 3 (clientKey (some 5)) newTree = some (0, newTree) := rfl
  rw [misses] at finds
  cases finds
  exact absurd rfl notNull

theorem handlesClient_iff_sound_first :
    HandlesClient Memory.Malloc.bump 3 newTree (fun _ => none) (firstClient .ok .ok) 8 5 ↔
      (firstClient .ok .ok).Sound Memory.Malloc.bump 3 newTree 5 :=
  handlesClient_iff_sound Memory.Malloc.bump [] 3 (by decide) newTree newTree_reached (fun _ => none) (firstClient .ok .ok)
    8 5 (firstClient_offered .ok .ok)

/-- The task is not delivered and the client is deleted twice, or the lock is refused and `conn_cb` is called with
a client that was deleted. -/
theorem firstClient_unhandled :
    (Offered 3 newTree (fun _ => none) (firstClient .ok .noMemory) 8 5 ∧
      newTcpServerClientObject Memory.Malloc.bump 3 (firstClient .ok .noMemory) ⟨newTree, fun _ => none, []⟩ = none ∧
      ¬ HandlesClient Memory.Malloc.bump 3 newTree (fun _ => none) (firstClient .ok .noMemory) 8 5) ∧
    Offered 3 newTree (fun _ => none) (firstClient .invHandle .ok) 8 5 ∧
      ¬ HandlesClient Memory.Malloc.bump 3 newTree (fun _ => none) (firstClient .invHandle .ok) 8 5 := by
  have fails : newTcpServerClientObject Memory.Malloc.bump 3 (firstClient .ok .noMemory) ⟨newTree, fun _ => none, []⟩ =
      none := rfl
  refine ⟨⟨firstClient_offered _ _, fails, ?_⟩, firstClient_offered _ _, ?_⟩
  · rintro ⟨_, _, goes, _⟩
    rw [fails] at goes
    cases goes
  · have offered := firstClient_offered .invHandle .ok
    have refused : (firstClient .invHandle .ok).lock ≠ .ok := by decide
    rw [offered.dropped_iff (fun _ => Iff.rfl) refused (addClientToServer_refused refused)]
    decide

end Outcomes

end GbfLibrary.Enet
