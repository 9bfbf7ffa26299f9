import GbfLibrary.Memory.Chain
import GbfLibrary.Systems.Run

/-!
# Handles in memory

The handles of `enet_handle.c` and `thp_handle.c` as records, and the functions that the two files
share: how a handle is found in the registry, appended to it and taken out of it.
-/

set_option autoImplicit false

namespace GbfLibrary.Handles

open Memory Prog Systems

/-- `enet_handle_t` and `thp_handle_t`. -/
structure Handle where
  obj : Addr
  lock : Addr
  alive : Bool
  refcnt : Int
  next : Addr
  prev : Addr
  deriving DecidableEq

def Handle.zero : Handle := ⟨0, 0, false, 0, 0, 0⟩

/-- A handle without its links. -/
def Handle.content (handle : Handle) : Handle := { handle with next := 0, prev := 0 }

theorem Handle.same_of_content {first second : Handle} (same : first.content = second.content) :
    first.lock = second.lock ∧ first.alive = second.alive ∧ first.refcnt = second.refcnt := by
  simp only [content, mk.injEq, and_true] at same
  exact same.2

/-- The pool of handles, whether its lock exists, and what else one of the files keeps. -/
structure PoolGlob (Table : Type) where
  pool : Addr
  init : Bool
  table : Table

abbrev PoolMachine (Table : Type) := Machine Handle (PoolGlob Table)

abbrev PoolProg (Table α : Type) := Prog Handle (PoolGlob Table) α

variable {Table : Type}

def findLoop (handle : Addr) : Nat → Addr → PoolProg Table Addr
  | 0, _ => fault
  | fuel + 1, node =>
      if node = 0 then return 0
      else if node = handle then return node
      else (do
        let info ← load node
        findLoop handle fuel info.next)

/-- `thp_find_handle_in_pool` and `enet_find_handle_in_pool`. -/
def findHandleInPool (fuel : Nat) (handle : Addr) : PoolProg Table Addr := do
  let glob ← getGlob
  findLoop handle fuel glob.pool

/-- `thp_append_handle` and `enet_append_handle`. -/
def appendHandle (fuel : Nat) (handle : Addr) : PoolProg Table Unit := do
  let glob ← getGlob
  if glob.pool = 0 then setGlob fun glob => { glob with pool := handle }
  else (do
    let (node, _) ← lastNode Handle.next fuel glob.pool
    store node fun info => { info with next := handle }
    store handle fun info => { info with prev := node })

/-- A field is set unless the pointer is null. -/
def storeUnlessNull (a : Addr) (f : Handle → Handle) : PoolProg Table Unit :=
  if a = 0 then return () else store a f

/-- `thp_handle_remove_from_pool` and `enet_handle_remove_from_pool`. -/
def handleRemoveFromPool (fuel : Nat) (handle : Addr) : PoolProg Table Unit := do
  if handle = 0 then return ()
  else (do
    let node ← findHandleInPool fuel handle
    if node = 0 then return ()
    else (do
      let info ← load node
      storeUnlessNull info.prev fun before => { before with next := info.next }
      let info ← load node
      storeUnlessNull info.next fun after => { after with prev := info.prev }))

/-- What is under the lock of the registry in the functions that lock a handle, to read or to write, in both
libraries: whether the handle is found there, and then is counted. -/
def countReference (fuel : Nat) (handle : Addr) : PoolProg Table Bool := do
  let node ← findHandleInPool fuel handle
  if node = 0 then return false
  else (do
    store handle fun info => { info with refcnt := info.refcnt + 1 }
    return true)

/-- `lbs_rwlock_init` and `thp_rwlock_init` on the lock of a handle, and whether there was memory for it. -/
def rwlockInit (malloc : Malloc) (handle : Addr) : PoolProg Table Bool := do
  let lock ← callocOther malloc
  if lock = 0 then return false
  else (do
    store handle fun info => { info with lock }
    return true)

/-- `enet_handle_management_init` and `thp_handle_management_init`. -/
def handleManagementInit (malloc : Malloc) : PoolProg Table Unit := do
  let glob ← getGlob
  if glob.init = false then (do
    let lock ← callocOther malloc
    if lock ≠ 0 then setGlob fun glob => { glob with init := true })

/-- A new handle is appended, and is alive from then on. -/
def registerHandle (fuel : Nat) (handle : Addr) : PoolProg Table Addr := do
  appendHandle fuel handle
  store handle fun info => { info with alive := true }
  return handle

/-- What `enet_new_handle` and `thp_new_handle` do unless a handle is reused. -/
def callocHandle (malloc : Malloc) (fuel : Nat) (needLock : Bool) : PoolProg Table Addr := do
  let out ← calloc malloc Handle.zero
  if out = 0 then return 0
  else if needLock = false then registerHandle fuel out
  else (do
    let ready ← rwlockInit malloc out
    if ready = true then registerHandle fuel out
    else (do
      free out
      return 0))

/-- The handle's lock is taken or released. No other thread has it. -/
def openLock (lock : Addr) : PoolProg Table Unit := fun s =>
  if lock = 0 ∨ lock ∈ s.others then some ((), s) else none

section Pool

variable {s s' : PoolMachine Table} {handle : Addr} {nodes front back : List Addr} {fuel : Nat}

/-- The second state differs in links only. -/
structure Relinked (s s' : PoolMachine Table) : Prop where
  live : s'.live = s.live
  others : s'.others = s.others
  table : s'.glob.table = s.glob.table
  content : ∀ a, (s'.cell a).content = (s.cell a).content

theorem Relinked.refl (s : PoolMachine Table) : Relinked s s := ⟨rfl, rfl, rfl, fun _ => rfl⟩

theorem Relinked.trans (s between s' : PoolMachine Table) (first : Relinked s between) (rest : Relinked between s') :
    Relinked s s' :=
  ⟨rest.live.trans first.live, rest.others.trans first.others, rest.table.trans first.table,
    fun a => (rest.content a).trans (first.content a)⟩

theorem Relinked.modify {f : Handle → Handle} (links : ∀ info, (f info).content = info.content) (a : Addr)
    (s : PoolMachine Table) : Relinked s (s.modify a f) := by
  refine ⟨Machine.modify_live .., Machine.modify_others .., by rw [Machine.modify_glob], fun b => ?_⟩
  rw [Machine.modify_cell]
  split
  · exact links (s.cell b)
  · rfl

private theorem relinks_findLoop (handle : Addr) (fuel : Nat) (node : Addr) :
    Relates Relinked (findLoop handle fuel node : PoolProg Table Addr) := by
  induction fuel generalizing node with
  | zero => exact .fault
  | succ fuel ih =>
      rw [findLoop]
      refine .ite (.pure .refl _) (.ite (.pure .refl _) ?_)
      exact .bind .trans (.load .refl node) fun info => ih info.next

private theorem relinks_lastNode (fuel : Nat) (node : Addr) :
    Relates Relinked (lastNode Handle.next fuel node : PoolProg Table (Addr × Nat)) := by
  induction fuel generalizing node with
  | zero => exact .fault
  | succ fuel ih =>
      refine .bind .trans (.load .refl node) fun info => .ite (.pure .refl _) ?_
      exact .bind .trans (ih info.next) fun last => .pure .refl _

theorem relinks_appendHandle (fuel : Nat) (handle : Addr) :
    Relates Relinked (appendHandle fuel handle : PoolProg Table Unit) := by
  refine .bind .trans (.getGlob .refl) fun glob => .ite (.setGlob fun s => ⟨rfl, rfl, rfl, fun _ => rfl⟩) ?_
  refine .bind .trans (relinks_lastNode fuel glob.pool) fun ⟨node, _⟩ => ?_
  refine .bind .trans (.store (Relinked.modify ?_ node)) fun _ => .store (Relinked.modify ?_ handle)
  · exact fun _ => rfl
  · exact fun _ => rfl

theorem relinks_storeUnlessNull {f : Handle → Handle} (links : ∀ info, (f info).content = info.content) (a : Addr) :
    Relates Relinked (storeUnlessNull a f : PoolProg Table Unit) :=
  .ite (.pure .refl _) (.store (Relinked.modify links a))

theorem relinks_handleRemoveFromPool (fuel : Nat) (handle : Addr) :
    Relates Relinked (handleRemoveFromPool fuel handle : PoolProg Table Unit) := by
  unfold handleRemoveFromPool
  refine .ite (.pure .refl _) ?_
  refine .bind .trans (.bind .trans (.getGlob .refl) fun glob => relinks_findLoop _ _ _) fun node => ?_
  refine .ite (.pure .refl _) (.bind .trans (.load .refl node) fun info => ?_)
  refine .bind .trans (relinks_storeUnlessNull ?_ _) fun _ =>
    .bind .trans (.load .refl node) fun info => relinks_storeUnlessNull ?_ _
  · exact fun _ => rfl
  · exact fun _ => rfl

/-- The registry: these handles, linked in both directions. -/
def Pooled (s : PoolMachine Table) (nodes : List Addr) : Prop :=
  Doubly Handle.next Handle.prev s 0 s.glob.pool nodes

private theorem findLoop_apply {head : Addr} (chain : Chain Handle.next s head nodes) (enough : nodes.length < fuel) :
    findLoop handle fuel head s = some (if handle ∈ nodes then handle else 0, s) := by
  induction nodes generalizing head fuel with
  | nil =>
      obtain rfl : head = 0 := chain
      obtain ⟨fuel, rfl⟩ := Nat.exists_eq_succ_of_ne_zero (Nat.ne_of_gt enough)
      simp [findLoop]
  | cons a nodes ih =>
      obtain ⟨rfl, notNull, live, rest⟩ := chain
      obtain ⟨fuel, rfl⟩ := Nat.exists_eq_succ_of_ne_zero (Nat.ne_of_gt (Nat.zero_lt_of_lt enough))
      by_cases found : head = handle
      · subst found
        simp [findLoop, notNull]
      · have walks := ih rest (Nat.lt_of_succ_lt_succ enough)
        have different : handle ≠ head := fun same => found same.symm
        simp [findLoop, notNull, found, live, walks, different]

/-- A handle is found if and only if it is registered. -/
theorem findHandleInPool_apply (pooled : Pooled s nodes) (enough : nodes.length < fuel) :
    findHandleInPool fuel handle s = some (if handle ∈ nodes then handle else 0, s) := by
  simp only [findHandleInPool, bind_apply, getGlob_apply, andThen_some]
  exact findLoop_apply pooled.chain enough

theorem countReference_apply (pooled : Pooled s nodes) (enough : nodes.length < fuel) :
    countReference fuel handle s =
      if handle ∈ nodes then some (true, s.modify handle fun info => { info with refcnt := info.refcnt + 1 })
      else some (false, s) := by
  have finds := @findHandleInPool_apply _ s handle nodes fuel pooled enough
  by_cases found : handle ∈ nodes
  · have live := pooled.chain.live handle found
    have notNull := pooled.chain.notNull handle found
    rw [if_pos found] at finds
    simp [countReference, finds, notNull, live, found]
  · rw [if_neg found] at finds
    simp [countReference, finds, found]

theorem appendHandle_apply (pooled : Pooled s nodes) (nodup : nodes.Nodup) (fresh : handle ∉ nodes) (notNull : handle ≠ 0)
    (live : handle ∈ s.live) (unlinked : (s.cell handle).next = 0 ∧ (s.cell handle).prev = 0)
    (enough : nodes.length ≤ fuel) :
    ∃ s', appendHandle fuel handle s = some ((), s') ∧ Pooled s' (nodes ++ [handle]) ∧ Relinked s s' := by
  by_cases empty : s.glob.pool = 0
  · have nothing : nodes = [] := by
      rw [Pooled, empty] at pooled
      exact pooled.chain.nil_of_null
    subst nothing
    refine ⟨s.withGlob { s.glob with pool := handle }, ?_, ?_, ⟨rfl, rfl, rfl, fun _ => rfl⟩⟩
    · simp [appendHandle, empty]
    · exact ⟨rfl, notNull, live, unlinked.2, unlinked.1⟩
  · obtain ⟨front, last, rfl, walks⟩ := pooled.chain.lastNode_apply empty enough
    have inside : last ∈ front ++ [last] := by simp
    have lastLive : last ∈ s.live := pooled.chain.live last inside
    have different : handle ≠ last := fun same => fresh (same ▸ inside)
    refine ⟨(s.modify last fun info => { info with next := handle }).modify handle fun info =>
      { info with prev := last }, ?_, ?_, ?_⟩
    · simp [appendHandle, empty, walks, lastLive, live]
    · rw [List.append_assoc]
      apply Doubly.snoc pooled notNull
      · intro x member
        simp only [List.mem_append, List.mem_cons, List.not_mem_nil, or_false] at member
        rcases member with member | rfl | rfl
        · exact pooled.chain.live x (by simp [member])
        · exact lastLive
        · exact live
      · simp [different, different.symm]
      · simp [different, unlinked.1]
      · intro x member
        have notLast : x ≠ last := by
          rintro rfl
          exact (List.nodup_append'.mp nodup).2.2 member (List.mem_singleton_self x)
        have notNew : x ≠ handle := by
          rintro rfl
          exact fresh (by simp [member])
        simp [notLast, notNew]
      · intro x member
        have notNew : x ≠ handle := fun same => fresh (same ▸ member)
        rw [Machine.modify_cell_of_ne notNew, Machine.modify_cell]
        split <;> rfl
    · constructor
      · rfl
      · rfl
      · rfl
      · intro a
        simp only [Machine.modify_cell]
        split <;> split <;> rfl

theorem registerHandle_apply (pooled : Pooled s nodes) (nodup : nodes.Nodup) (fresh : handle ∉ nodes)
    (notNull : handle ≠ 0) (live : handle ∈ s.live)
    (unlinked : (s.cell handle).next = 0 ∧ (s.cell handle).prev = 0) (enough : nodes.length ≤ fuel) :
    ∃ s', registerHandle fuel handle s = some (handle, s') ∧ Pooled s' (nodes ++ [handle]) ∧
      s'.live = s.live ∧ s'.others = s.others ∧ s'.glob.table = s.glob.table ∧
      (s'.cell handle).content = { s.cell handle with alive := true }.content ∧
      ∀ a ≠ handle, (s'.cell a).content = (s.cell a).content := by
  obtain ⟨between, appends, pooled', relinked⟩ :=
    appendHandle_apply pooled nodup fresh notNull live unlinked enough
  have live' : handle ∈ between.live := relinked.live ▸ live
  refine ⟨between.modify handle fun info => { info with alive := true }, ?_, ?_, relinked.live, relinked.others,
    relinked.table, ?_, ?_⟩
  · simp [registerHandle, appends, live']
  · apply Doubly.congr pooled'
    · exact pooled'.chain.live
    · intro x _
      rw [Machine.modify_cell]
      split <;> exact ⟨rfl, rfl⟩
  · rw [Machine.modify_cell_self]
    have same := relinked.content handle
    simp only [Handle.content, Handle.mk.injEq, and_true] at same ⊢
    simp [same]
  · intro a different
    rw [Machine.modify_cell_of_ne different, relinked.content]

@[simp] theorem storeUnlessNull_apply {a : Addr} {f : Handle → Handle} (good : s.Pointer a) :
    storeUnlessNull a f s = some ((), s.touch a f) := by
  rcases good with rfl | live
  · simp [storeUnlessNull]
  · unfold storeUnlessNull Machine.touch
    split <;> simp [live]

theorem Pooled.neighbours (pooled : Pooled s (front ++ handle :: back)) (nodup : (front ++ handle :: back).Nodup) :
    (s.Pointer (s.cell handle).prev ∧ (s.cell handle).prev ≠ handle) ∧
      s.Pointer (s.cell handle).next ∧ (s.cell handle).next ≠ handle := by
  obtain ⟨prevLink, nextLink⟩ := pooled.links
  have live : ∀ x ∈ front ++ handle :: back, x ∈ s.live := pooled.chain.live
  have notNull : handle ≠ 0 := pooled.chain.notNull handle (by simp)
  obtain ⟨notFront, notBack⟩ : handle ∉ front ∧ handle ∉ back := by
    have outside := (List.nodup_middle.mp nodup).notMem
    simpa using outside
  rw [prevLink, nextLink]
  constructor
  · cases last : front.getLast? with
    | none => exact ⟨.inl rfl, notNull.symm⟩
    | some before =>
        have member : before ∈ front := List.mem_of_getLast? last
        exact ⟨.inr (live before (by simp [member])), fun same => notFront (same ▸ member)⟩
  · cases back with
    | nil => exact ⟨.inl rfl, notNull.symm⟩
    | cons after back =>
        exact ⟨.inr (live after (by simp)), fun same => notBack (same ▸ List.mem_cons_self)⟩

theorem Pooled.pool_ne_iff (pooled : Pooled s (front ++ handle :: back)) (nodup : (front ++ handle :: back).Nodup) :
    s.glob.pool ≠ handle ↔ front ≠ [] := by
  rw [pooled.first, not_iff_not]
  cases front with
  | nil => simp
  | cons a front =>
      simp only [List.cons_append, List.headD_cons, reduceCtorEq, iff_false]
      rintro rfl
      simp at nodup

theorem erase_middle (nodup : (front ++ handle :: back).Nodup) :
    (front ++ handle :: back).erase handle = front ++ back := by
  have notFront : handle ∉ front := fun member => (List.nodup_middle.mp nodup).notMem (by simp [member])
  rw [List.erase_append_right _ notFront, List.erase_cons_head]

/-- A registered handle is taken out. If it is the first one, the pool still points to it. -/
theorem handleRemoveFromPool_apply (pooled : Pooled s (front ++ handle :: back))
    (nodup : (front ++ handle :: back).Nodup) (enough : (front ++ handle :: back).length < fuel) :
    ∃ s', handleRemoveFromPool fuel handle s = some ((), s') ∧ (front ≠ [] → Pooled s' (front ++ back)) ∧
      s'.glob = s.glob ∧ Relinked s s' := by
  have found : findHandleInPool fuel handle s = some (handle, s) := by
    rw [findHandleInPool_apply pooled enough, if_pos (by simp)]
  have here : handle ∈ s.live := pooled.chain.live handle (by simp)
  have notNull : handle ≠ 0 := pooled.chain.notNull handle (by simp)
  obtain ⟨⟨prevGood, prevNe⟩, nextGood, nextNe⟩ := pooled.neighbours nodup
  obtain ⟨first, isFirst⟩ : ∃ first, first = s.touch (s.cell handle).prev fun before =>
    { before with next := (s.cell handle).next } := ⟨_, rfl⟩
  have firstLive : first.live = s.live := by rw [isFirst, Machine.touch_live]
  have same : first.cell handle = s.cell handle := by
    rw [isFirst, Machine.touch_cell_of_ne (.inr prevNe.symm)]
  have nextGood' : first.Pointer (s.cell handle).next := by
    rw [Machine.Pointer, firstLive]
    exact nextGood
  refine ⟨first.touch (s.cell handle).next fun after => { after with prev := (s.cell handle).prev }, ?_, ?_, ?_, ?_⟩
  · have firstHere : handle ∈ first.live := firstLive ▸ here
    simp only [handleRemoveFromPool, notNull, found, here, load_apply, if_false, bind_apply, andThen_some,
      storeUnlessNull_apply prevGood, ← isFirst, firstHere, same, storeUnlessNull_apply nextGood']
  · intro inside
    obtain ⟨front, before, rfl⟩ := (List.eq_nil_or_concat front).resolve_left inside
    obtain ⟨prevLink, nextLink⟩ := pooled.links
    rw [List.concat_eq_append, List.getLast?_concat, Option.getD_some] at prevLink
    rw [List.concat_eq_append, List.append_assoc] at pooled nodup ⊢
    have beforeSome : before ≠ 0 := pooled.chain.notNull before (by simp)
    have nexts : ∀ x, ((first.touch (s.cell handle).next fun after =>
        { after with prev := (s.cell handle).prev }).cell x).next = (first.cell x).next := by
      intro x
      rw [Machine.touch_cell]
      split <;> rfl
    have prevs : ∀ x, (first.cell x).prev = (s.cell x).prev := by
      intro x
      rw [isFirst, Machine.touch_cell]
      split <;> rfl
    rw [Pooled, Machine.touch_glob, isFirst, Machine.touch_glob, ← isFirst]
    apply Doubly.unlink pooled nodup
    · intro x member
      rw [Machine.touch_live, firstLive]
      exact pooled.chain.live x (by simp at member ⊢; tauto)
    · rw [nexts, isFirst, prevLink, Machine.touch_cell, if_pos ⟨rfl, beforeSome⟩]
    · intro x behind
      have after : (s.cell handle).next = x := by rw [nextLink, List.headD_eq_head?_getD, behind]; rfl
      have notNull : x ≠ 0 := pooled.chain.notNull x (by simp [List.mem_of_mem_head? behind])
      rw [after, Machine.touch_cell, if_pos ⟨rfl, notNull⟩, prevLink]
    · intro x different
      rw [nexts, isFirst, prevLink, Machine.touch_cell, if_neg fun here => different here.1]
    · intro x different
      rw [Machine.touch_cell, if_neg, prevs]
      rintro ⟨rfl, notNull⟩
      apply different
      rw [nextLink] at notNull ⊢
      cases back with
      | nil => exact absurd rfl notNull
      | cons after back => rfl
  · rw [Machine.touch_glob, isFirst, Machine.touch_glob]
  · constructor
    · rw [Machine.touch_live, firstLive]
    · rw [Machine.touch_others, isFirst, Machine.touch_others]
    · rw [Machine.touch_glob, isFirst, Machine.touch_glob]
    · intro a
      rw [Machine.touch_cell, isFirst, Machine.touch_cell]
      split <;> split <;> rfl

theorem handleManagementInit_apply (malloc : Malloc) (s : PoolMachine Table) :
    ∃ s', handleManagementInit malloc s = some ((), s') ∧ s'.live = s.live ∧ s'.cell = s.cell ∧
      s.others ⊆ s'.others ∧ s'.glob.pool = s.glob.pool ∧ s'.glob.table = s.glob.table := by
  by_cases init : s.glob.init = false
  · cases picked : malloc.pick (s.live ∪ s.others) s.callocs with
    | none =>
        refine ⟨s.miss, ?_, rfl, rfl, Finset.Subset.refl _, rfl, rfl⟩
        simp [handleManagementInit, init, callocOther, picked, Machine.miss]
    | some lock =>
        have lockNotNull : lock ≠ 0 := (malloc.fresh _ _ _ picked).1
        refine ⟨({ s with others := insert lock s.others, callocs := s.callocs + 1 } : PoolMachine Table).withGlob
          { s.glob with init := true }, ?_, rfl, rfl, Finset.subset_insert lock s.others, rfl, rfl⟩
        simp [handleManagementInit, init, callocOther, picked, lockNotNull]
  · refine ⟨s, ?_, rfl, rfl, Finset.Subset.refl _, rfl, rfl⟩
    simp [handleManagementInit, init]

/-- A handle that was not allocated before is registered. -/
structure Created (s s' : PoolMachine Table) (nodes : List Addr) (out : Addr) : Prop where
  notNull : out ≠ 0
  fresh : out ∉ s.live
  pooled : Pooled s' (nodes ++ [out])
  live : s'.live = insert out s.live
  others : s.others ⊆ s'.others
  table : s'.glob.table = s.glob.table
  unused : (s'.cell out).alive = true ∧ (s'.cell out).refcnt = 0
  lock : (s'.cell out).lock ≠ 0 → (s'.cell out).lock ∈ s'.others ∧ (s'.cell out).lock ∉ s.others
  content : ∀ a ≠ out, (s'.cell a).content = (s.cell a).content

/-- Nothing changed that a program can see. A handle for whose lock there was no memory is zero where it was. -/
structure Unchanged (s s' : PoolMachine Table) : Prop where
  live : s'.live = s.live
  others : s.others ⊆ s'.others
  pool : s'.glob.pool = s.glob.pool
  table : s'.glob.table = s.glob.table
  cell : ∀ a, s'.cell a = s.cell a ∨ a ∉ s.live ∧ s'.cell a = Handle.zero

theorem Unchanged.cell_of_live (unchanged : Unchanged s s') {a : Addr} (live : a ∈ s.live) : s'.cell a = s.cell a :=
  (unchanged.cell a).resolve_right fun free => free.1 live

theorem Unchanged.trans {between : PoolMachine Table} (first : Unchanged s between) (rest : Unchanged between s') :
    Unchanged s s' where
  live := rest.live.trans first.live
  others := first.others.trans rest.others
  pool := rest.pool.trans first.pool
  table := rest.table.trans first.table
  cell := by
    intro a
    rcases rest.cell a with same | ⟨free, zero⟩
    · rw [same]
      exact first.cell a
    · exact .inr ⟨first.live ▸ free, zero⟩

/-- How many allocations a handle needs. -/
def allocations (needLock : Bool) : Nat := if needLock = true then 2 else 1

/-- What is done before the handle is registered. -/
theorem callocHandle_prepares {malloc : Malloc} {needLock : Bool} {s : PoolMachine Table}
    (serves : malloc.Serves (allocations needLock) s.heap) (fuel : Nat) :
    ∃ out t, ∃ lock : Addr, callocHandle malloc fuel needLock s = registerHandle fuel out t ∧ out ≠ 0 ∧
      out ∉ s.live ∧ t.live = insert out s.live ∧ s.others ⊆ t.others ∧ t.glob = s.glob ∧
      t.cell out = { Handle.zero with lock } ∧ (∀ a ≠ out, t.cell a = s.cell a) ∧
      (lock ≠ 0 → lock ∈ t.others ∧ lock ∉ s.others) ∧ (needLock = true → lock ≠ 0) := by
  cases needLock with
  | false =>
      obtain ⟨out, picked, _⟩ := serves
      obtain ⟨callocs, notNull, fresh, _⟩ := calloc_some Handle.zero picked
      refine ⟨out, s.extend out Handle.zero, 0, ?_, notNull, fresh, rfl, Finset.Subset.refl _, rfl, ?_,
        fun a different => Machine.extend_cell_of_ne different, fun null => absurd rfl null, nofun⟩
      · simp [callocHandle, callocs, notNull]
      · rw [Machine.extend_cell_self]
        rfl
  | true =>
      obtain ⟨out, picked, lock, lockPicked, _⟩ := serves
      obtain ⟨callocs, notNull, fresh, _⟩ := calloc_some Handle.zero picked
      have taken : malloc.pick ((s.extend out Handle.zero).live ∪ (s.extend out Handle.zero).others)
          (s.extend out Handle.zero).callocs = some lock := by
        rw [Machine.extend_live, Machine.extend_others, Finset.insert_union]
        exact lockPicked
      obtain ⟨inits, lockNotNull, _, lockFresh⟩ := callocOther_some taken
      let allocated : PoolMachine Table := { s.extend out Handle.zero with
        others := insert lock s.others
        callocs := s.callocs + 2 }
      refine ⟨out, allocated.modify out fun info => { info with lock }, lock, ?_, notNull, fresh, rfl,
        Finset.subset_insert lock s.others, rfl, ?_, ?_, ?_, fun _ => lockNotNull⟩
      · have allocates : callocOther malloc (s.extend out Handle.zero) = some (lock, allocated) := inits
        have here : out ∈ allocated.live := Finset.mem_insert_self out s.live
        simp [callocHandle, callocs, notNull, rwlockInit, allocates, lockNotNull, here]
      · rw [Machine.modify_cell_self]
        simp [allocated]
      · intro a different
        rw [Machine.modify_cell_of_ne different]
        exact Machine.extend_cell_of_ne different
      · intro _
        exact ⟨Finset.mem_insert_self lock s.others, lockFresh⟩

/-- Without memory for the handle and its lock nothing is left of it. -/
theorem callocHandle_misses {malloc : Malloc} {needLock : Bool} {s : PoolMachine Table}
    (fails : ¬ malloc.Serves (allocations needLock) s.heap) (fuel : Nat) :
    ∃ s', callocHandle malloc fuel needLock s = some (0, s') ∧ Unchanged s s' := by
  cases picked : malloc.pick (s.live ∪ s.others) s.callocs with
  | none =>
      refine ⟨s.miss, ?_, rfl, Finset.Subset.refl _, rfl, rfl, fun _ => .inl rfl⟩
      simp [callocHandle, calloc_none _ picked]
  | some out =>
      obtain ⟨callocs, notNull, fresh, _⟩ := calloc_some Handle.zero picked
      cases needLock with
      | false => exact absurd ⟨out, picked, trivial⟩ fails
      | true =>
          cases lockPicked : malloc.pick ((s.extend out Handle.zero).live ∪ (s.extend out Handle.zero).others)
              (s.extend out Handle.zero).callocs with
          | none =>
              have misses : callocOther malloc (s.extend out Handle.zero) = some (0, (s.extend out Handle.zero).miss) := by
                simp only [callocOther, lockPicked, Machine.miss]
              refine ⟨(s.extend out Handle.zero).miss.release out, ?_, ?_, Finset.Subset.refl _, rfl, rfl, ?_⟩
              · simp [callocHandle, callocs, notNull, rwlockInit, misses, Prog.free]
              · exact Finset.erase_insert fresh
              · intro a
                by_cases here : a = out
                · subst here
                  exact .inr ⟨fresh, Machine.extend_cell_self ..⟩
                · exact .inl (Machine.extend_cell_of_ne here)
          | some lock =>
              rw [Machine.extend_live, Machine.extend_others, Finset.insert_union] at lockPicked
              exact absurd ⟨out, picked, lock, lockPicked, trivial⟩ fails

theorem callocHandle_apply {malloc : Malloc} {needLock : Bool}
    (serves : malloc.Serves (allocations needLock) s.heap) (pooled : Pooled s nodes) (nodup : nodes.Nodup)
    (enough : nodes.length ≤ fuel) :
    ∃ out s', callocHandle malloc fuel needLock s = some (out, s') ∧ Created s s' nodes out ∧
      (needLock = true → (s'.cell out).lock ≠ 0) := by
  obtain ⟨out, t, lock, goes, notNull, fresh, tLive, tOthers, tGlob, tNew, tCell, tLock, locks⟩ :=
    callocHandle_prepares serves fuel
  have outside : out ∉ nodes := fun member => fresh (pooled.chain.live out member)
  have pooled' : Pooled t nodes := by
    rw [Pooled, tGlob]
    apply Doubly.congr pooled
    · intro x member
      rw [tLive]
      exact Finset.mem_insert_of_mem (pooled.chain.live x member)
    · intro x member
      rw [tCell x fun same => outside (same ▸ member)]
      exact ⟨rfl, rfl⟩
  have here : out ∈ t.live := tLive ▸ Finset.mem_insert_self out s.live
  obtain ⟨s', registers, linked, live, others, table, new, content⟩ :=
    registerHandle_apply pooled' nodup outside notNull here (by simp [tNew, Handle.zero]) enough
  rw [tNew] at new
  obtain ⟨newLock, unused⟩ := Handle.same_of_content new
  refine ⟨out, s', goes.trans registers, ?_, fun need => newLock ▸ locks need⟩
  constructor
  · exact notNull
  · exact fresh
  · exact linked
  · rw [live, tLive]
  · rw [others]
    exact tOthers
  · rw [table, tGlob]
  · exact unused
  · rw [newLock, others]
    exact tLock
  · intro a different
    rw [content a different, tCell a different]

/-- What was done before a handle was created may be left out where it changed nothing. -/
theorem Created.congr {t : PoolMachine Table} {out : Addr} (created : Created t s' nodes out) (live : t.live = s.live)
    (cell : t.cell = s.cell) (others : s.others ⊆ t.others) (table : t.glob.table = s.glob.table) :
    Created s s' nodes out where
  notNull := created.notNull
  fresh := live ▸ created.fresh
  pooled := created.pooled
  live := live ▸ created.live
  others := others.trans created.others
  table := created.table.trans table
  unused := created.unused
  lock := fun notNull => ⟨(created.lock notNull).1, fun old => (created.lock notNull).2 (others old)⟩
  content := cell ▸ created.content

theorem Unchanged.pooled (unchanged : Unchanged s s') (pooled : Pooled s nodes) : Pooled s' nodes := by
  rw [Pooled, unchanged.pool]
  apply Doubly.congr pooled
  · rw [unchanged.live]
    exact pooled.chain.live
  · intro a member
    rw [unchanged.cell_of_live (pooled.chain.live a member)]
    exact ⟨rfl, rfl⟩

end Pool

/-- Each of these handles has a lock of its own, or none. -/
structure Locks (s : PoolMachine Table) (nodes : List Addr) : Prop where
  allocated : ∀ a ∈ nodes, (s.cell a).lock ≠ 0 → (s.cell a).lock ∈ s.others
  own : ∀ a ∈ nodes, ∀ b ∈ nodes, (s.cell a).lock = (s.cell b).lock → (s.cell a).lock ≠ 0 → a = b

namespace Locks

variable {s s' : PoolMachine Table} {handle : Addr} {nodes more : List Addr}

theorem congr (locks : Locks s nodes) (included : more ⊆ nodes)
    (same : ∀ a ∈ more, (s'.cell a).lock = (s.cell a).lock)
    (kept : ∀ a ∈ more, (s.cell a).lock ≠ 0 → (s.cell a).lock ∈ s.others → (s.cell a).lock ∈ s'.others) :
    Locks s' more := by
  constructor
  · intro a member locked
    rw [same a member] at locked ⊢
    exact kept a member locked (locks.allocated a (included member) locked)
  · intro a inA b inB equal locked
    rw [same a inA] at equal locked
    rw [same b inB] at equal
    exact locks.own a (included inA) b (included inB) equal locked

theorem cons (locks : Locks s nodes) (valid : (s.cell handle).lock ≠ 0 → (s.cell handle).lock ∈ s.others)
    (new : ∀ a ∈ nodes, (s.cell a).lock = (s.cell handle).lock → (s.cell a).lock = 0) :
    Locks s (handle :: nodes) := by
  constructor
  · intro a member locked
    cases member with
    | head => exact valid locked
    | tail _ inNodes => exact locks.allocated a inNodes locked
  · intro a inA b inB equal locked
    cases inA with
    | head =>
        cases inB with
        | head => rfl
        | tail _ inB => exact absurd (equal.trans (new b inB equal.symm)) locked
    | tail _ inA =>
        cases inB with
        | head => exact absurd (new a inA equal) locked
        | tail _ inB => exact locks.own a inA b inB equal locked

end Locks

theorem Locks.unchanged {s s' : PoolMachine Table} {nodes : List Addr} (locks : Locks s nodes)
    (unchanged : Unchanged s s') (live : ∀ a ∈ nodes, a ∈ s.live) : Locks s' nodes := by
  apply locks.congr (List.Subset.refl _)
  · exact fun a member => congrArg Handle.lock (unchanged.cell_of_live (live a member))
  · exact fun _ _ _ allocated => unchanged.others allocated

/-- A handle that was created has a lock of its own, or none. -/
theorem Created.locks {s s' : PoolMachine Table} {nodes : List Addr} {out : Addr}
    (created : Created s s' nodes out) (outside : out ∉ nodes) (locks : Locks s nodes) :
    Locks s' (nodes ++ [out]) := by
  have same : ∀ a ∈ nodes, (s'.cell a).lock = (s.cell a).lock := fun a member =>
    (Handle.same_of_content (created.content a fun here => outside (here ▸ member))).1
  have old : Locks s' nodes :=
    locks.congr (List.Subset.refl _) same fun _ _ _ allocated => created.others allocated
  have more : Locks s' (out :: nodes) := by
    apply old.cons
    · exact fun locked => (created.lock locked).1
    · intro a member equal
      by_contra locked
      have valid : (s.cell a).lock ∈ s.others := locks.allocated a member (same a member ▸ locked)
      rw [equal] at locked
      apply (created.lock locked).2
      rwa [← equal, same a member]
  apply more.congr
  · intro a member
    simpa [or_comm] using member
  · exact fun _ _ => rfl
  · exact fun _ _ _ allocated => allocated

/-- The memory, and the handles that were created and not deleted since, the oldest first. -/
structure PoolState (Table : Type) where
  machine : PoolMachine Table
  handles : List Addr

/-- The registry holds these handles and no others, each once, and a walk through it ends. -/
structure Registered (s : PoolState Table) : Prop where
  linked : Pooled s.machine s.handles
  distinct : s.handles.Nodup
  finds : ∀ fuel handle, s.handles.length < fuel →
    findHandleInPool fuel handle s.machine = some (if handle ∈ s.handles then handle else 0, s.machine)

/-- The registry is right because of its links. -/
theorem Registered.of_linked {s : PoolState Table} (linked : Pooled s.machine s.handles)
    (distinct : s.handles.Nodup) : Registered s :=
  ⟨linked, distinct, fun _ _ enough => findHandleInPool_apply linked enough⟩

/-- A registry whose pool points to a handle that was deleted. -/
theorem not_registered {s : PoolState Table} (notNull : s.machine.glob.pool ≠ 0)
    (deleted : s.machine.glob.pool ∉ s.handles) : ¬ Registered s := by
  intro registered
  have first := registered.linked.first
  cases here : s.handles with
  | nil => exact notNull (by rw [first, here]; rfl)
  | cons a rest =>
      apply deleted
      rw [first, here]
      exact List.mem_cons_self

/-- What a call does under an invariant, and when the registry is right after it. -/
def CallKeeps {Call : Type} (next : Call → PoolState Table → Option (PoolState Table))
    (allowed spares : Call → PoolState Table → Prop) (kept : PoolState Table → Prop) (call : Call)
    (s : PoolState Table) : Prop :=
  allowed call s → ∃ s', next call s = some s' ∧ s'.handles.length ≤ s.handles.length + 1 ∧
    (spares call s → kept s') ∧ (¬ spares call s → ¬ Registered s')

/-- In a run whose calls keep the invariant it holds, and the next call is not too many either. -/
theorem reached_of_meets {Call : Type} {next : Call → PoolState Table → Option (PoolState Table)}
    {allowed spares : Call → PoolState Table → Prop} {P : PoolState Table → Prop} {fuel : Nat}
    (taken : ∀ call s s', P s → s.handles.length < fuel → next call s = some s' → allowed call s)
    (step : ∀ call s, P s → s.handles.length < fuel → CallKeeps next allowed spares P call s)
    {calls : List Call} {s s' : PoolState Table} (start : P s) (enough : s.handles.length + calls.length < fuel)
    (meets : Meets next spares calls s) (runs : run next calls s = some s') :
    P s' ∧ s'.handles.length < fuel := by
  refine run_counted_of_meets (P := fun n s => P s ∧ s.handles.length + n < fuel) ?_ ⟨start, enough⟩ meets runs
  rintro n call s s' ⟨holds, enough⟩ spared goes
  have room : s.handles.length < fuel := by omega
  obtain ⟨after, goes', longer, holds', _⟩ := step call s holds room (taken call s s' holds room goes)
  rw [goes] at goes'
  cases goes'
  exact ⟨holds' spared, by omega⟩

/-- In such a run the registry is right, and it stays so exactly as long as the calls keep the invariant. -/
theorem registered_of_meets {Call : Type} {next : Call → PoolState Table → Option (PoolState Table)}
    {allowed spares : Call → PoolState Table → Prop} {P : PoolState Table → Prop} {fuel : Nat}
    (right : ∀ s, P s → Registered s)
    (taken : ∀ call s s', P s → s.handles.length < fuel → next call s = some s' → allowed call s)
    (step : ∀ call s, P s → s.handles.length < fuel → CallKeeps next allowed spares P call s)
    {calls : List Call} {s s' : PoolState Table} (start : P s) (enough : s.handles.length + calls.length < fuel)
    (meets : Meets next spares calls s) (runs : run next calls s = some s') :
    Registered s' ∧ ∀ call, allowed call s' → ∃ after, next call s' = some after ∧
      (Registered after ↔ spares call s') := by
  obtain ⟨holds, room⟩ := reached_of_meets taken step start enough meets runs
  refine ⟨right s' holds, fun call permitted => ?_⟩
  obtain ⟨after, goes, _, holds', broken⟩ := step call s' holds room permitted
  refine ⟨after, goes, ?_, fun spared => right after (holds' spared)⟩
  intro registered
  by_contra refuses
  exact broken refuses registered

end GbfLibrary.Handles
