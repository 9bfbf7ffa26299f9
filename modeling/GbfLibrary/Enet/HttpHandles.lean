import GbfLibrary.Enet.HttpRequest
import GbfLibrary.Enet.HttpUrl
import GbfLibrary.Memory.Chain
import GbfLibrary.Memory.Mixing

/-!
# HTTP handles

The list `g_http_handles` of `enet_tools.c`, with `enet_http_new` and `enet_http_del`. The lock of the list is one
that its owner may enter again, and is left out.
-/

set_option autoImplicit false

namespace GbfLibrary.Enet.Http

open Memory Prog

/-- `enet_http_handle_t`. -/
structure HttpHandle where
  handle : BitVec 32
  obj : Addr
  prev : Addr
  next : Addr
  deriving DecidableEq

def HttpHandle.zero : HttpHandle := ⟨0, 0, 0, 0⟩

/-- `g_http_handles`, and the objects by address. An object that was destructed is not there any more, though
its memory is never freed. -/
structure HttpGlob where
  handles : Addr
  objects : Addr → Option HttpObj

abbrev HttpMachine := Machine HttpHandle HttpGlob

abbrev HttpProg (α : Type) := Prog HttpHandle HttpGlob α

/-- The object at an address. -/
def objectAt (a : Addr) : HttpProg HttpObj := fun s =>
  if a ∈ s.others then (s.glob.objects a).map fun obj => (obj, s) else none

def setObject (a : Addr) (obj : Option HttpObj) : HttpProg Unit :=
  setGlob fun glob => { glob with objects := Function.update glob.objects a obj }

/-- `hash_int_shift`. -/
def hashIntShift (key : BitVec 32) : BitVec 32 :=
  let key := ~~~key + (key <<< 15)
  let key := key ^^^ (key >>> 12)
  let key := key + (key <<< 2)
  let key := key ^^^ (key >>> 4)
  let key := key * 2057
  key ^^^ (key >>> 16)

def handleFindLoop (handle : BitVec 32) : Nat → Addr → HttpProg Addr
  | 0, _ => fault
  | fuel + 1, node =>
      if node = 0 then return 0
      else (do
        let record ← load node
        if record.handle = handle then return node else handleFindLoop handle fuel record.next)

/-- `enet_http_handle_find`. A walk past all handles that there are does not end. -/
def handleFind (handle : BitVec 32) : HttpProg Addr := fun s =>
  handleFindLoop handle (s.live.card + 1) s.glob.handles s

/-- `enet_http_gen_handle_value` with what `GetTickCount` returns, call by call; without a new value among them
it does not end. -/
def genHandleValue : List (BitVec 32) → HttpProg (BitVec 32)
  | [] => fault
  | tick :: ticks => do
      let node ← handleFind (hashIntShift tick)
      if node = 0 then return hashIntShift tick else genHandleValue ticks

/-- `enet_http_new_handle`. -/
def newHandle (malloc : Memory.Malloc) (ticks : List (BitVec 32)) : HttpProg Addr := do
  let out ← calloc malloc HttpHandle.zero
  if out = 0 then return 0
  else (do
    let obj ← callocOther malloc
    if obj = 0 then (do
      free out
      return 0)
    else (do
      setObject obj (some HttpObj.new)
      let handle ← genHandleValue ticks
      store out fun record => { record with handle }
      store out fun record => { record with obj }
      return out))

/-- `enet_http_handle_insert`: the second place, or the first one if there is none. -/
def handleInsert (obj : Addr) : HttpProg Unit := do
  let glob ← getGlob
  if glob.handles = 0 then (do
    setGlob fun glob => { glob with handles := obj }
    store obj fun record => { record with prev := 0, next := 0 })
  else (do
    let node ← load glob.handles
    store glob.handles fun record => { record with next := obj }
    store obj fun record => { record with prev := glob.handles, next := node.next }
    if node.next = 0 then return () else store node.next fun record => { record with prev := obj })

/-- `enet_http_new`, with a null pointer or not for the URL and for the handle. -/
def httpNew (malloc : Memory.Malloc) (strings : Malloc) (gethostbyname : Resolver) (url : Option Bytes)
    (ticks : List (BitVec 32)) (handle : Bool) : HttpProg (Status × Option (BitVec 32)) := do
  if handle = false then return (.invParam, none)
  else (do
    let out ← newHandle malloc ticks
    if out = 0 then return (.noMemory, none)
    else (do
      handleInsert out
      let record ← load out
      match url with
      | none => return (.ok, some record.handle)
      | some url => do
          let obj ← objectAt record.obj
          match loadUrl strings gethostbyname url obj with
          | none => fault
          | some (_, obj) => do
              setObject record.obj (some obj)
              return (.ok, some record.handle)))

/-- `enet_http_destruct`, which leaves the memory of the object allocated. -/
def httpDestruct (a : Addr) : HttpProg Unit := do
  let record ← load a
  if record.obj = 0 then free a
  else (do
    let _ ← objectAt record.obj
    setObject record.obj none
    free a)

/-- `enet_http_handle_delete`. -/
def handleDelete (a : Addr) : HttpProg Unit := do
  let record ← load a
  if record.prev = 0 then setGlob fun glob => { glob with handles := record.next }
  else store record.prev fun before => { before with next := record.next }
  if record.next = 0 then httpDestruct a
  else (do
    store record.next fun after => { after with prev := record.prev }
    httpDestruct a)

/-- `enet_http_del`. -/
def httpDel (handle : BitVec 32) : HttpProg Status := do
  let a ← handleFind handle
  if a = 0 then return .invHandle
  else (do
    handleDelete a
    return .ok)

/-- How `enet_http_set`, `enet_http_exec` and `enet_http_fetch` find the object they work on. -/
def httpOn (handle : BitVec 32) (act : HttpObj → Option (Status × HttpObj)) : HttpProg Status := do
  let a ← handleFind handle
  if a = 0 then return .invHandle
  else (do
    let record ← load a
    let obj ← objectAt record.obj
    match act obj with
    | none => fault
    | some (rc, obj) => do
        setObject record.obj (some obj)
        return rc)

/-- What `enet_http_set` does with the object, by its options. -/
inductive SetOption where
  | header (key value : Bytes)
  | url (value : Bytes)
  | body (data : Bytes) (size : Int)
  | other

def SetOption.act (malloc : Malloc) (gethostbyname : Resolver) : SetOption → HttpObj → Option (Status × HttpObj)
  | .header key value, obj =>
      let (rc, headers, _) := insertHeader malloc 0 key value obj.headers
      some (rc, { obj with headers })
  | .url value, obj => loadUrl malloc gethostbyname value obj
  | .body data size, obj => setBody malloc data size obj
  | .other, obj => some (.invParam, obj)

/-- `enet_http_set` with a key or a value. -/
def httpSet (malloc : Malloc) (gethostbyname : Resolver) (handle : BitVec 32) (opt : SetOption) : HttpProg Status :=
  httpOn handle (opt.act malloc gethostbyname)

/-- The objects of the handles that were created and not deleted, by the value of the handle. -/
abbrev Registry := BitVec 32 → Option HttpObj

/-- The handles at these addresses, with different values and objects. -/
structure Entries (s : HttpMachine) (nodes : List Addr) (objects : Registry) : Prop where
  values : (nodes.map fun a => (s.cell a).handle).Nodup
  owners : (nodes.map fun a => (s.cell a).obj).Nodup
  owned : ∀ a ∈ nodes, (s.cell a).obj ≠ 0 ∧ (s.cell a).obj ∈ s.others ∧ (s.glob.objects (s.cell a).obj).isSome = true
  holds : ∀ value obj, objects value = some obj ↔
    ∃ a ∈ nodes, (s.cell a).handle = value ∧ s.glob.objects (s.cell a).obj = some obj

/-- The handles of the list, which is linked in both directions. -/
structure Represents (s : HttpMachine) (nodes : List Addr) (objects : Registry) : Prop
    extends Entries s nodes objects where
  linked : Doubly HttpHandle.next HttpHandle.prev s 0 s.glob.handles nodes
  good : 0 ∉ s.live

section Handles

variable {s s' : HttpMachine} {nodes more front back : List Addr} {objects : Registry} {value : BitVec 32} {a : Addr}
  {obj : HttpObj}

namespace Entries

theorem perm (entries : Entries s nodes objects) (same : nodes.Perm more) : Entries s more objects where
  values := (same.map _).nodup_iff.mp entries.values
  owners := (same.map _).nodup_iff.mp entries.owners
  owned := fun a member => entries.owned a (same.mem_iff.mpr member)
  holds := by
    intro value obj
    simp only [entries.holds, same.mem_iff]

/-- Changes of the links, and of other records and objects. -/
theorem congr (entries : Entries s nodes objects)
    (cells : ∀ a ∈ nodes, (s'.cell a).handle = (s.cell a).handle ∧ (s'.cell a).obj = (s.cell a).obj)
    (others : ∀ a ∈ nodes, (s.cell a).obj ∈ s'.others)
    (contents : ∀ a ∈ nodes, s'.glob.objects (s.cell a).obj = s.glob.objects (s.cell a).obj) :
    Entries s' nodes objects where
  values := by
    rw [List.map_congr_left fun a member => (cells a member).1]
    exact entries.values
  owners := by
    rw [List.map_congr_left fun a member => (cells a member).2]
    exact entries.owners
  owned := by
    intro a member
    obtain ⟨good, _, present⟩ := entries.owned a member
    rw [(cells a member).2, contents a member]
    exact ⟨good, others a member, present⟩
  holds := by
    intro value obj
    rw [entries.holds]
    refine exists_congr fun a => and_congr_right fun member => ?_
    rw [(cells a member).1, (cells a member).2, contents a member]

theorem cons (entries : Entries s nodes objects) (a : Addr) (obj : HttpObj)
    (unknown : objects (s.cell a).handle = none) (own : ∀ b ∈ nodes, (s.cell b).obj ≠ (s.cell a).obj)
    (objNotNull : (s.cell a).obj ≠ 0) (inside : (s.cell a).obj ∈ s.others)
    (content : s.glob.objects (s.cell a).obj = some obj) :
    Entries s (a :: nodes) (Function.update objects (s.cell a).handle (some obj)) where
  values := by
    refine List.nodup_cons.mpr ⟨fun member => ?_, entries.values⟩
    obtain ⟨b, inNodes, same⟩ := List.mem_map.mp member
    obtain ⟨found, present⟩ := Option.isSome_iff_exists.mp (entries.owned b inNodes).2.2
    have known := (entries.holds (s.cell a).handle found).mpr ⟨b, inNodes, same, present⟩
    rw [unknown] at known
    cases known
  owners := by
    refine List.nodup_cons.mpr ⟨fun member => ?_, entries.owners⟩
    obtain ⟨b, inNodes, same⟩ := List.mem_map.mp member
    exact own b inNodes same
  owned := by
    rw [List.forall_mem_cons]
    exact ⟨⟨objNotNull, inside, by rw [content, Option.isSome_some]⟩, entries.owned⟩
  holds := by
    intro value found
    simp only [List.exists_mem_cons_iff]
    by_cases here : value = (s.cell a).handle
    · subst here
      have noOther : ¬ ∃ b ∈ nodes, (s.cell b).handle = (s.cell a).handle ∧
          s.glob.objects (s.cell b).obj = some found := by
        rw [← entries.holds, unknown]
        exact nofun
      rw [Function.update_self, content, or_iff_left noOther]
      exact (and_iff_right rfl).symm
    · have notHere : (s.cell a).handle ≠ value := fun same => here same.symm
      rw [Function.update_of_ne here, entries.holds]
      tauto

theorem tail (entries : Entries s (a :: nodes) objects) :
    Entries s nodes (Function.update objects (s.cell a).handle none) where
  values := (List.nodup_cons.mp entries.values).2
  owners := (List.nodup_cons.mp entries.owners).2
  owned := fun b member => entries.owned b (List.mem_cons_of_mem a member)
  holds := by
    intro value found
    have notAgain := (List.nodup_cons.mp entries.values).1
    by_cases here : value = (s.cell a).handle
    · subst here
      rw [Function.update_self]
      refine ⟨nofun, ?_⟩
      rintro ⟨b, member, same, _⟩
      exact absurd (List.mem_map.mpr ⟨b, member, same⟩) notAgain
    · have notHere : (s.cell a).handle ≠ value := fun same => here same.symm
      rw [Function.update_of_ne here, entries.holds, List.exists_mem_cons_iff]
      tauto

/-- No other handle has the object of the first one. -/
theorem own (entries : Entries s (a :: nodes) objects) : ∀ b ∈ nodes, (s.cell b).obj ≠ (s.cell a).obj :=
  fun b member same => (List.nodup_cons.mp entries.owners).1 (List.mem_map.mpr ⟨b, member, same⟩)

end Entries

private theorem handleFindLoop_apply {head : Addr} {fuel : Nat} (chain : Chain HttpHandle.next s head nodes)
    (enough : nodes.length < fuel) : handleFindLoop value fuel head s =
      some ((nodes.find? fun a => (s.cell a).handle = value).getD 0, s) := by
  induction nodes generalizing head fuel with
  | nil =>
      obtain rfl : head = 0 := chain
      obtain ⟨fuel, rfl⟩ := Nat.exists_eq_succ_of_ne_zero (Nat.ne_of_gt enough)
      simp [handleFindLoop]
  | cons a nodes ih =>
      obtain ⟨rfl, notNull, live, rest⟩ := chain
      obtain ⟨fuel, rfl⟩ := Nat.exists_eq_succ_of_ne_zero (Nat.ne_of_gt (Nat.zero_lt_of_lt enough))
      by_cases found : (s.cell head).handle = value
      · simp [handleFindLoop, notNull, live, found]
      · have walks := ih rest (Nat.lt_of_succ_lt_succ enough)
        simp [handleFindLoop, notNull, live, found, walks]

private theorem handleFind_apply (chain : Chain HttpHandle.next s s.glob.handles nodes) (value : BitVec 32) :
    handleFind value s = some ((nodes.find? fun a => (s.cell a).handle = value).getD 0, s) :=
  handleFindLoop_apply chain (Nat.lt_succ_of_le (chain.length_le chain.nodup))

/-- The value of a new handle is the first one that no handle of the list has. -/
theorem genHandleValue_chain (chain : Chain HttpHandle.next s s.glob.handles nodes) (ticks : List (BitVec 32)) :
    genHandleValue ticks s =
      (ticks.find? fun tick => hashIntShift tick ∉ nodes.map fun a => (s.cell a).handle).map fun tick =>
        (hashIntShift tick, s) := by
  induction ticks with
  | nil => rfl
  | cons tick ticks ih =>
      rw [genHandleValue, List.find?_cons, bind_apply, handleFind_apply chain]
      cases found : nodes.find? fun a => (s.cell a).handle = hashIntShift tick with
      | none =>
          have free : hashIntShift tick ∉ nodes.map fun a => (s.cell a).handle := by
            intro taken
            obtain ⟨a, member, same⟩ := List.mem_map.mp taken
            exact List.find?_eq_none.mp found a member (decide_eq_true same)
          simp [free]
      | some a =>
          have member := List.mem_of_find?_eq_some found
          have taken : hashIntShift tick ∈ nodes.map fun a => (s.cell a).handle :=
            List.mem_map.mpr ⟨a, member, by simpa using List.find?_some found⟩
          simp [taken, chain.notNull a member, ih]

private theorem hashIntShift_injective : Function.Injective hashIntShift := by
  have rounds : hashIntShift = (fun key : BitVec 32 => key ^^^ (key >>> 16)) ∘ (fun key => key * BitVec.ofNat 32 2057) ∘
      (fun key : BitVec 32 => key ^^^ (key >>> 4)) ∘ (fun key : BitVec 32 => key + (key <<< 2)) ∘
        (fun key : BitVec 32 => key ^^^ (key >>> 12)) ∘ fun key : BitVec 32 => ~~~key + (key <<< 15) := rfl
  rw [rounds]
  apply (Mixing.xor_ushiftRight_injective (by decide)).comp
  apply (Mixing.mul_injective (by decide)).comp
  apply (Mixing.xor_ushiftRight_injective (by decide)).comp
  apply (Mixing.add_shiftLeft_injective (by decide)).comp
  apply (Mixing.xor_ushiftRight_injective (by decide)).comp
  exact Mixing.not_add_shiftLeft_injective (by decide)

/-- The clock values have different hashes, so each handle blocks one of them at most. A new value is found once
the clock has shown more values than there are handles. -/
theorem genHandleValue_ends : Function.Injective hashIntShift ∧
    ∀ (s : HttpMachine) (nodes : List Addr) (tried later values : List (BitVec 32)),
      Chain HttpHandle.next s s.glob.handles nodes → values.Nodup → values ⊆ tried → nodes.length < values.length →
        ∃ tick ∈ tried, genHandleValue (tried ++ later) s = some (hashIntShift tick, s) ∧
          ∀ a ∈ nodes, (s.cell a).handle ≠ hashIntShift tick := by
  refine ⟨hashIntShift_injective, ?_⟩
  intro s nodes tried later values chain distinct shown more
  have few : (nodes.map fun a => (s.cell a).handle).length < values.length := by rwa [List.length_map]
  obtain ⟨value, isValue, free⟩ := Mixing.exists_image_notMem hashIntShift_injective distinct few
  have ends : (tried.find? fun tick => hashIntShift tick ∉ nodes.map fun a => (s.cell a).handle).isSome = true :=
    List.find?_isSome.mpr ⟨value, shown isValue, decide_eq_true free⟩
  obtain ⟨tick, found⟩ := Option.isSome_iff_exists.mp ends
  refine ⟨tick, List.mem_of_find?_eq_some found, ?_, ?_⟩
  · rw [genHandleValue_chain chain, List.find?_append, found]
    rfl
  · intro a member same
    have new : hashIntShift tick ∉ nodes.map fun a => (s.cell a).handle := by simpa using List.find?_some found
    exact new (List.mem_map.mpr ⟨a, member, same⟩)

/-- Two handles. -/
def sampleHandles : HttpMachine where
  live := {1, 2}
  others := ∅
  cell a := if a = 1 then ⟨hashIntShift 5, 3, 0, 2⟩ else ⟨hashIntShift 6, 4, 1, 0⟩
  glob := ⟨1, fun _ => none⟩
  callocs := 0

theorem genHandleValue_sample :
    ∃ tick ∈ [5, 5, 6, 5, 9], genHandleValue ([5, 5, 6, 5, 9] ++ [5]) sampleHandles =
      some (hashIntShift tick, sampleHandles) ∧ ∀ a ∈ [1, 2], (sampleHandles.cell a).handle ≠ hashIntShift tick :=
  genHandleValue_ends.2 sampleHandles [1, 2] [5, 5, 6, 5, 9] [5] [5, 6, 9] (by simp [Chain, sampleHandles])
    (by decide) (by decide) (by decide)

namespace Represents

theorem nodup (represents : Represents s nodes objects) : nodes.Nodup := List.Nodup.of_map _ represents.values

theorem live (represents : Represents s nodes objects) : ∀ a ∈ nodes, a ∈ s.live := represents.linked.chain.live

theorem find (represents : Represents s nodes objects) (value : BitVec 32) : handleFind value s =
    some ((nodes.find? fun a => (s.cell a).handle = value).getD 0, s) :=
  handleFind_apply represents.linked.chain value

private theorem unknown_iff (represents : Represents s nodes objects) (value : BitVec 32) :
    objects value = none ↔ value ∉ nodes.map fun a => (s.cell a).handle := by
  constructor
  · intro unknown member
    obtain ⟨a, inNodes, here⟩ := List.mem_map.mp member
    obtain ⟨obj, content⟩ := Option.isSome_iff_exists.mp (represents.owned a inNodes).2.2
    have known := (represents.holds value obj).mpr ⟨a, inNodes, here, content⟩
    rw [unknown] at known
    cases known
  · intro free
    rw [Option.eq_none_iff_forall_ne_some]
    intro obj known
    obtain ⟨a, inNodes, here, _⟩ := (represents.holds value obj).mp known
    exact free (List.mem_map.mpr ⟨a, inNodes, here⟩)

theorem find_unknown (represents : Represents s nodes objects) (unknown : objects value = none) :
    handleFind value s = some (0, s) := by
  have nowhere : (nodes.find? fun a => (s.cell a).handle = value) = none := by
    rw [List.find?_eq_none]
    intro a member here
    exact (represents.unknown_iff value).mp unknown (List.mem_map.mpr ⟨a, member, of_decide_eq_true here⟩)
  rw [represents.find, nowhere, Option.getD_none]

theorem find_known (represents : Represents s nodes objects) (known : objects value = some obj) :
    ∃ front a back, nodes = front ++ a :: back ∧ handleFind value s = some (a, s) ∧ (s.cell a).handle = value ∧
      s.glob.objects (s.cell a).obj = some obj := by
  obtain ⟨a, member, here, content⟩ := (represents.holds value obj).mp known
  obtain ⟨front, back, rfl⟩ := List.append_of_mem member
  refine ⟨front, a, back, rfl, ?_, here, content⟩
  have notBefore : ∀ b ∈ front, ¬ decide ((s.cell b).handle = value) = true := by
    intro b before same
    have distinct := represents.values
    rw [List.map_append, List.nodup_append'] at distinct
    have inFront : (s.cell b).handle ∈ front.map fun a => (s.cell a).handle := List.mem_map_of_mem before
    rw [of_decide_eq_true same, ← here] at inFront
    exact distinct.2.2 inFront List.mem_cons_self
  rw [represents.find, List.find?_append, List.find?_eq_none.mpr notBefore, Option.none_or,
    List.find?_cons_of_pos (by simpa using here), Option.getD_some]

end Represents

/-- The value of a new handle is the first one that is not known. -/
theorem genHandleValue_apply (represents : Represents s nodes objects) (ticks : List (BitVec 32)) :
    genHandleValue ticks s =
      (ticks.find? fun tick => (objects (hashIntShift tick)).isNone).map fun tick => (hashIntShift tick, s) := by
  have same : (fun tick => decide (hashIntShift tick ∉ nodes.map fun a => (s.cell a).handle)) =
      fun tick => (objects (hashIntShift tick)).isNone := by
    funext tick
    rw [Bool.eq_iff_iff, decide_eq_true_iff, ← represents.unknown_iff, Option.isNone_iff_eq_none]
  rw [genHandleValue_chain represents.linked.chain, same]

end Handles

end GbfLibrary.Enet.Http
