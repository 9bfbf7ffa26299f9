import GbfLibrary.Enet.NewClient

/-!
# New clients among the threads

For the threads the tree of the clients is a map. A new client changes that map as
`enet_new_tcp_server_client_object` changes the tree in memory.
-/

set_option autoImplicit false

namespace GbfLibrary.Enet

open Rbtree Maps

/-- A server of the threads whose lock and tree are these. -/
structure Mirrors (fuel : Nat) (tree : RbMachine) (lock : Status) (server : Server) : Prop where
  alive : server.alive = true ↔ lock = .ok
  entries : ∀ fd < 2 ^ 32, server.clientsTree fd ≠ none ↔ ∃ client, Bound fuel tree (clientKey (some fd)) client
  nodes : (server.nodes : Int) = tree.glob.count

/-- A call, and the state of the threads after it: the call does not return where the event thread fails,
otherwise it leaves the tree that they have, and has closed the socket if that is closed. -/
def Reflects {E : Setup} (fuel : Nat) (lock : Status) (k : Nat) (fd : Socket) (after : Traffic E) :
    Option (Status × ServerMemory) → Prop
  | none => after.handler = .crashed
  | some (_, s) => after.handler = .idle ∧ Mirrors fuel s.tree lock (after.servers k) ∧
      (after.isOpen fd = false ↔ .closed fd ∈ s.effects)

variable {E : Setup} {malloc : Memory.Malloc} {fuel k object : Nat} {tree tree' : RbMachine} {contents contents' : Contents}
  {accepting : Accepting} {lock : Status} {server : Server} {traffic : Traffic E} {out : Word} {fd : Socket}
  {clients : Word → Option (Option Socket)}

private theorem clientKey_inj {fd other : Socket} (fits : fd < 2 ^ 32) (otherFits : other < 2 ^ 32)
    (same : clientKey (some fd) = clientKey (some other)) : fd = other := by
  have values := congrArg BitVec.toNat same
  simp only [clientKey, BitVec.toNat_ofNat] at values
  rwa [Nat.mod_eq_of_lt fits, Nat.mod_eq_of_lt otherFits] at values

/-- The keys of the tree, each once. -/
theorem Stores.exists_keys (stores : Stores fuel tree contents) :
    ∃ keys : List Word, keys.Nodup ∧ (keys.length : Int) = tree.glob.count ∧
      ∀ key, key ∈ keys ↔ contents key ≠ none := by
  obtain ⟨shape, nodes, levels, holds, binds, _⟩ := stores
  have distinct : (shape.inorder.map keyOf).Nodup := holds.sorted.imp ne_of_lt
  rw [show keyOf = BitVec.toInt ∘ Prod.fst from rfl, ← List.map_map] at distinct
  refine ⟨shape.inorder.map Prod.fst, distinct.of_map, ?_, fun key => ?_⟩
  · rw [List.length_map, holds.count, Trees.ColoredTree.length_labels_eq_length_inorder]
  · rw [List.mem_map, Option.ne_none_iff_exists']
    constructor
    · rintro ⟨⟨_, datum⟩, member, rfl⟩
      exact ⟨datum, (binds _ datum).mp member⟩
    · rintro ⟨datum, entry⟩
      exact ⟨(key, datum), (binds key datum).mpr entry, rfl⟩

theorem Stores.count_eq (stores : Stores fuel tree contents) (stores' : Stores fuel tree' contents')
    (same : ∀ key, contents' key ≠ none ↔ contents key ≠ none) : tree'.glob.count = tree.glob.count := by
  obtain ⟨keys, distinct, length, member⟩ := stores.exists_keys
  obtain ⟨keys', distinct', length', member'⟩ := stores'.exists_keys
  have perm : keys'.Perm keys := (List.perm_ext_iff_of_nodup distinct' distinct).mpr fun key => by
    rw [member', member, same]
  rw [← length, ← length', perm.length_eq]

/-- A new entry is one more node. -/
theorem Stores.count_insert {key data : Word} (stores : Stores fuel tree contents)
    (stores' : Stores fuel tree' (Function.update contents key (some data))) (absent : contents key = none) :
    tree'.glob.count = tree.glob.count + 1 := by
  obtain ⟨keys, distinct, length, member⟩ := stores.exists_keys
  obtain ⟨keys', distinct', length', member'⟩ := stores'.exists_keys
  have fresh : key ∉ keys := fun here => (member key).mp here absent
  have perm : keys'.Perm (key :: keys) := by
    refine (List.perm_ext_iff_of_nodup distinct' (List.nodup_cons.mpr ⟨fresh, distinct⟩)).mpr fun other => ?_
    rw [member', List.mem_cons, member]
    by_cases same : other = key
    · subst same
      simp
    · simp [same]
  rw [← length, ← length', perm.length_eq, List.length_cons]
  push_cast
  rfl

theorem Stores.entries (stores : Stores fuel tree contents) (key : Word) :
    (∃ client, Bound fuel tree key client) ↔ contents key ≠ none := by
  simp only [stores.bound_iff, Option.ne_none_iff_exists']

/-- Another tree with the entries of the same descriptors. -/
theorem Mirrors.same (mirrors : Mirrors fuel tree lock server) (stores : Stores fuel tree contents)
    (stores' : Stores fuel tree' contents') (same : ∀ key, contents' key ≠ none ↔ contents key ≠ none) :
    Mirrors fuel tree' lock server where
  alive := mirrors.alive
  entries := fun fd fits => by rw [mirrors.entries fd fits, stores.entries, stores'.entries, same]
  nodes := mirrors.nodes.trans (stores.count_eq stores' same).symm

/-- The descriptor gets an entry in both. -/
theorem Mirrors.insert {after : Server} (mirrors : Mirrors fuel tree lock server)
    (stores : Stores fuel tree contents) (fits : fd < 2 ^ 32)
    (stores' : Stores fuel tree' (Function.update contents (clientKey (some fd)) (some out)))
    (alive : after.alive = server.alive)
    (entries : after.clientsTree = Function.update server.clientsTree fd (some object))
    (nodes : (after.nodes : Int) = tree'.glob.count) : Mirrors fuel tree' lock after where
  alive := alive ▸ mirrors.alive
  nodes := nodes
  entries := by
    intro other otherFits
    rw [entries, stores'.entries]
    by_cases same : other = fd
    · subst same
      simp
    · have apart : clientKey (some other) ≠ clientKey (some fd) := fun keys =>
        same (clientKey_inj otherFits fits keys)
      rw [Function.update_of_ne same, Function.update_of_ne apart, mirrors.entries other otherFits, stores.entries]

theorem Mirrors.empty_iff (mirrors : Mirrors fuel tree lock server) (stores : Stores fuel tree contents) :
    server.nodes = 0 ↔ tree.glob.root = 0 := by
  obtain ⟨shape, nodes, levels, holds, _, _⟩ := stores
  have count : server.nodes = shape.labels.length := Int.ofNat_inj.mp (mirrors.nodes.trans holds.count)
  rw [count, holds.root, addr_eq_zero holds.stocked.good holds.rep, List.length_eq_zero_iff]
  cases shape with
  | nil => simp [Trees.ColoredTree.labels]
  | node => simp [Trees.ColoredTree.labels]

section Reflects

variable {inserted delivered : Bool}

/-- What is known before a client is offered to a server of the threads. -/
structure Meeting (malloc : Memory.Malloc) (fuel : Nat) (tree : RbMachine) (accepting : Accepting) (fd : Socket)
    (k : Nat) (inserted delivered : Bool) (traffic : Traffic E) : Prop where
  mirrors : Mirrors fuel tree accepting.lock (traffic.servers k)
  isOpen : traffic.isOpen fd = true
  fits : fd < 2 ^ 32
  notZero : fd ≠ 0
  inserted : inserted = true ↔ Supplied malloc tree
  delivered : delivered = true ↔ accepting.delivery = .ok

variable {result : Option (Status × ServerMemory)}

theorem Meeting.absent (meeting : Meeting malloc fuel tree accepting fd k inserted delivered traffic)
    (stores : Stores fuel tree contents) :
    (traffic.servers k).clientsTree fd = none ↔ contents (clientKey (some fd)) = none := by
  rw [← not_iff_not, ← Ne.eq_def, ← Ne.eq_def, meeting.mirrors.entries fd meeting.fits, stores.entries]

private theorem closed_notMem {effects : List ClientEffect} {connCb live : Bool} (missing : .closed fd ∉ effects) :
    ClientEffect.closed fd ∉ effects ++ announcing connCb out live := by
  cases connCb <;> simpa [announcing] using missing

/-- The client is not added, and its socket closed. -/
private theorem Meeting.reflects_closed (meeting : Meeting malloc fuel tree accepting fd k inserted delivered traffic)
    {s : ServerMemory} {st : Status} {effects : List ClientEffect}
    (mirrors : Mirrors fuel s.tree accepting.lock (traffic.servers k))
    (closes : s.effects = [] ++ closing fd ++ [.freed out] ++ effects) :
    Reflects fuel accepting.lock k fd ({ traffic with handler := .idle }.closesocket fd) (some (st, s)) := by
  refine ⟨rfl, mirrors, ?_⟩
  simp [Traffic.closesocket, closes, closing, meeting.notZero]

/-- The call returns with the socket open. -/
private theorem Meeting.reflects_open (meeting : Meeting malloc fuel tree accepting fd k inserted delivered traffic)
    {s : ServerMemory} {st : Status} {effects : List ClientEffect} {connCb live : Bool}
    (mirrors : Mirrors fuel s.tree accepting.lock server)
    (shows : s.effects = effects ++ announcing connCb out live) (missing : .closed fd ∉ effects) :
    Reflects fuel accepting.lock k fd ({ traffic with handler := .idle }.setServer k server) (some (st, s)) := by
  refine ⟨rfl, by simpa [Traffic.setServer] using mirrors, ?_⟩
  have stays : .closed fd ∉ s.effects := shows ▸ closed_notMem missing
  simp [Traffic.setServer, meeting.isOpen, stays]

/-- The threads see what a call does, whatever is answered to it. -/
theorem newTcpServerClientObject_reflected (calls : List Call) (enough : calls.length + 2 < fuel)
    (reached : Reached malloc fuel calls tree) (offered : Offered fuel tree clients accepting out fd)
    (meeting : Meeting malloc fuel tree accepting fd k inserted delivered traffic) :
    Reflects fuel accepting.lock k fd (traffic.addClientToServer k fd object inserted delivered)
      (newTcpServerClientObject malloc fuel accepting ⟨tree, clients, []⟩) := by
  obtain ⟨shape, nodes, levels, holds, short⟩ := reached.holds (by omega)
  obtain ⟨contents, binds⟩ := holds.sorted.exists_binds
  have stored : Stores fuel tree contents := ⟨shape, nodes, levels, holds, binds, by omega⟩
  have alive : accepting.lock = .ok → (traffic.servers k).alive ≠ false := fun locked => by
    simp [meeting.mirrors.alive.mpr locked]
  have result : AddResult malloc fuel tree clients accepting out fd contents _ :=
    offered.addResult holds binds (by omega)
  generalize adds : addClientToServer malloc fuel accepting.lock accepting.delivery out
    (offering tree clients out fd) = left at result
  simp only [Traffic.addClientToServer]
  cases result with
  | refused locked =>
      have dead : (traffic.servers k).alive = false := by
        simpa using mt meeting.mirrors.alive.mp locked
      rw [if_pos dead, offered.runs_dropped locked adds]
      exact meeting.reflects_closed meeting.mirrors rfl
  | @replaced old tree' locked entry different stores =>
      have present : (traffic.servers k).clientsTree fd ≠ none := fun nothing => by
        rw [(meeting.absent stored).mp nothing] at entry
        cases entry
      have same : ∀ key, Function.update contents (clientKey (some fd)) (some out) key ≠ none ↔ contents key ≠ none := by
        intro key
        by_cases this : key = clientKey (some fd)
        · subst this
          simp [entry]
        · simp [this]
      have live : Function.update (offering tree clients out fd).clients old none out = some (some fd) := by
        simp only [Function.update_of_ne different.symm, Function.update_self]
      rw [if_neg (alive locked), if_pos present, offered.runs_added live adds]
      refine meeting.reflects_open ?_ rfl (by simp)
      exact meeting.mirrors.insert stored meeting.fits stores rfl rfl
        (meeting.mirrors.nodes.trans (stored.count_eq stores same).symm)
  | @delivered tree' locked absent supplied delivers stores =>
      have missing : ¬ (traffic.servers k).clientsTree fd ≠ none := not_not.mpr ((meeting.absent stored).mpr absent)
      rw [if_neg (alive locked), if_neg missing, if_pos (meeting.inserted.mpr supplied),
        if_pos (meeting.delivered.mpr delivers), offered.runs_added (offering_live tree' clients out fd) adds]
      refine meeting.reflects_open ?_ rfl (by simp)
      refine meeting.mirrors.insert stored meeting.fits stores rfl rfl ?_
      rw [stored.count_insert stores absent, ← meeting.mirrors.nodes]
      push_cast
      rfl
  | undone locked absent supplied fails freed =>
      have missing : ¬ (traffic.servers k).clientsTree fd ≠ none := not_not.mpr ((meeting.absent stored).mpr absent)
      rw [if_neg (alive locked), if_neg missing, if_pos (meeting.inserted.mpr supplied),
        if_neg (mt meeting.delivered.mp fails), offered.runs_freed fails freed adds]
      rfl
  | unbound locked absent unsupplied empty delivers stores =>
      have missing : ¬ (traffic.servers k).clientsTree fd ≠ none := not_not.mpr ((meeting.absent stored).mpr absent)
      have lost : (traffic.servers k).nodes = 0 ∧ delivered = true :=
        ⟨(meeting.mirrors.empty_iff stored).mpr empty, meeting.delivered.mpr delivers⟩
      rw [if_neg (alive locked), if_neg missing, if_neg (mt meeting.inserted.mp unsupplied), if_pos lost,
        offered.runs_added (offering_live tree.miss clients out fd) adds]
      refine meeting.reflects_open ?_ rfl (by simp)
      have mirrors := meeting.mirrors.same stored stores fun _ => Iff.rfl
      exact ⟨mirrors.alive, mirrors.entries, mirrors.nodes⟩
  | full locked absent unsupplied cause fails stores =>
      have missing : ¬ (traffic.servers k).clientsTree fd ≠ none := not_not.mpr ((meeting.absent stored).mpr absent)
      have known : ¬ ((traffic.servers k).nodes = 0 ∧ delivered = true) := by
        rintro ⟨empty, delivers⟩
        rcases cause with rooted | undelivered
        · exact rooted ((meeting.mirrors.empty_iff stored).mp empty)
        · exact undelivered (meeting.delivered.mp delivers)
      rw [if_neg (alive locked), if_neg missing, if_neg (mt meeting.inserted.mp unsupplied), if_neg known,
        offered.runs_dropped fails adds]
      exact meeting.reflects_closed (meeting.mirrors.same stored stores fun _ => Iff.rfl) rfl

end Reflects

end GbfLibrary.Enet
