import GbfLibrary.Ecore.ModuleIds
import GbfLibrary.Maps.Cursor
import GbfLibrary.Systems.Run

/-!
# Going through the modules

`get_first_module` and `get_next_module` go through the modules that are loaded. What they keep between the calls is
the id of a module, so that the tree can become larger meanwhile.
-/

set_option autoImplicit false

namespace GbfLibrary.Ecore

open Memory Rbtree Prog Trees ColoredTree Maps Systems

/-- `get_first_module`: the module, and the `__current_index` that it leaves. -/
def getFirstModule (fuel : Nat) : RbProg (Word × Word) := do
  let tree ← getGlob
  let node ← rbtFirst fuel tree.root
  let n ← load node
  return (n.data, n.key)

/-- The loop of `get_next_module`. What it adds to `__current_index` after its last search is overwritten. -/
def nextModuleLoop (fuel : Nat) : Nat → Word → RbProg Addr
  | 0, _ => fault
  | limit + 1, currentIndex => do
    let node ← rbtSearch fuel currentIndex
    if node ≠ 0 then return node else nextModuleLoop fuel limit (currentIndex + 1)

/-- `get_next_module`: the module or null, and the `__current_index` that it leaves. -/
def getNextModule (fuel : Nat) (currentIndex : Word) : RbProg (Word × Word) := do
  let tree ← getGlob
  let last ← rbtLast fuel tree.root
  let n ← load last
  if n.key.toInt ≤ currentIndex.toInt then return (0, currentIndex)
  else (do
    let node ← nextModuleLoop fuel fuel (currentIndex + 1)
    let n ← load node
    return (n.data, n.key))

section Steps

variable {s : RbMachine} {tree : RbTree} {nodes : List Addr} {levels fuel limit : Nat}
  {key target currentIndex p q : Word}

theorem toInt_succ (below : currentIndex.toInt < target.toInt) : (currentIndex + 1).toInt = currentIndex.toInt + 1 := by
  have least := currentIndex.le_toInt
  have most := target.toInt_lt
  rw [BitVec.toInt_add, show (1 : Word).toInt = 1 from rfl]
  exact Int.bmod_eq_of_le (by omega) (by omega)

/-- The loop ends at the next id that a module has. -/
theorem nextModuleLoop_apply (holds : Holds s tree nodes levels) (enough : tree.labels.length < fuel)
    (bound : Bound fuel s target p) (upTo : currentIndex.toInt ≤ target.toInt)
    (nearest : ∀ e, Stored fuel s e → currentIndex.toInt ≤ keyOf e → target.toInt ≤ keyOf e)
    (inLimit : target.toInt < currentIndex.toInt + limit) :
    ∃ a, nextModuleLoop fuel limit currentIndex s = some (a, s) ∧ a ∈ s.live ∧ (s.cell a).key = target ∧
      (s.cell a).data = p := by
  induction limit generalizing currentIndex with
  | zero => omega
  | succ limit ih =>
      rw [nextModuleLoop]
      simp only [bind_apply]
      rcases holds.search_cases enough currentIndex with ⟨finds, absent⟩ | ⟨a, finds, notNull, live, here, stored⟩
      · have different : currentIndex.toInt ≠ target.toInt := fun same =>
          absent p (BitVec.eq_of_toInt_eq same ▸ bound)
        have next := toInt_succ (show currentIndex.toInt < target.toInt by omega)
        obtain ⟨a, rest⟩ := ih (show (currentIndex + 1).toInt ≤ target.toInt by omega)
          (fun e stored beyond => nearest e stored (by omega)) (by omega)
        refine ⟨a, ?_, rest.2⟩
        rw [finds]
        simpa using rest.1
      · have same : target.toInt ≤ currentIndex.toInt := nearest (currentIndex, (s.cell a).data) stored le_rfl
        obtain rfl : currentIndex = target := BitVec.eq_of_toInt_eq (le_antisymm upTo same)
        refine ⟨a, ?_, live, here, stored.unique bound⟩
        rw [finds]
        simp [notNull]

/-- The first module is the one with the least id. -/
theorem getFirstModule_apply (holds : Holds s tree nodes levels) (enough : tree.labels.length < fuel) {e : Entry}
    {rest : List Entry} (entries : tree.inorder = e :: rest) :
    getFirstModule fuel s = some ((e.2, e.1), s) := by
  have walk := holds.rep.walk_entries
  rw [entries] at walk
  obtain ⟨a, others, nodes, rfl, _⟩ := List.map_eq_cons_iff.mp walk
  have live : a ∈ s.live := holds.rep.live a (((tree.walk_perm .right).mem_iff).mp (by simp [nodes]))
  have first := holds.first enough
  rw [nodes, List.headD_cons] at first
  simp only [getFirstModule, bind_apply, getGlob_apply, andThen_some, first, load_apply live, pure_apply]

/-- Without a module it reads a null pointer. -/
theorem getFirstModule_empty (holds : Holds s tree nodes levels) (enough : tree.labels.length < fuel)
    (entries : tree.inorder = []) : getFirstModule fuel s = none := by
  have walk := holds.rep.walk_entries
  rw [entries, List.map_eq_nil_iff] at walk
  have first := holds.first enough
  rw [walk, List.headD_nil] at first
  have null : load 0 s = none := if_neg holds.stocked.good
  simp only [getFirstModule, bind_apply, getGlob_apply, andThen_some, first, null]
  rfl

/-- The next module is the one with the next id, and null comes after the last one. -/
theorem getNextModule_apply (holds : Holds s tree nodes levels) (enough : tree.labels.length < fuel)
    (nonempty : tree.inorder ≠ []) (inLimit : ∀ e, Stored fuel s e → keyOf e ≤ currentIndex.toInt + fuel) :
    ((∀ e, Stored fuel s e → keyOf e ≤ currentIndex.toInt) ∧
        getNextModule fuel currentIndex s = some ((0, currentIndex), s)) ∨
      ∃ e, Nearest keyOf (Stored fuel s) currentIndex.toInt e ∧ getNextModule fuel currentIndex s = some ((e.2, e.1), s) := by
  have stored (e : Entry) : Stored fuel s e ↔ e ∈ tree.inorder := holds.search_bound enough
  have walk := holds.rep.walk_entries
  obtain ⟨front, a, nodes⟩ : ∃ front a, tree.walk .right = front ++ [a] := by
    rcases List.eq_nil_or_concat (tree.walk .right) with empty | ⟨front, a, nodes⟩
    · rw [empty, List.map_nil] at walk
      exact absurd walk.symm nonempty
    · exact ⟨front, a, by rw [nodes, List.concat_eq_append]⟩
  have live : a ∈ s.live := holds.rep.live a (((tree.walk_perm .right).mem_iff).mp (by simp [nodes]))
  have last := holds.last enough
  rw [show tree.walk .left = (tree.walk .right).reverse from walk_other .right tree, nodes, List.reverse_append,
    List.reverse_singleton, List.singleton_append, List.headD_cons] at last
  rw [nodes, List.map_append, List.map_singleton] at walk
  have most : ∀ e, Stored fuel s e → keyOf e ≤ (s.cell a).key.toInt := by
    intro e here
    have member := (stored e).mp here
    have sorted := holds.sorted
    rw [← walk] at member sorted
    rcases List.mem_append.mp member with before | final
    · exact (sorted.across before (List.mem_singleton_self _)).le
    · rw [List.mem_singleton.mp final]
      exact le_rfl
  rw [getNextModule]
  simp only [bind_apply, getGlob_apply, andThen_some, last, load_apply live]
  by_cases passed : (s.cell a).key.toInt ≤ currentIndex.toInt
  · refine .inl ⟨fun e here => (most e here).trans passed, ?_⟩
    rw [if_pos passed]
    rfl
  · right
    have final : ((s.cell a).key, (s.cell a).data) ∈ tree.inorder := by simp [← walk]
    rcases exists_nearest (show Increasing keyOf tree.inorder from holds.sorted) currentIndex.toInt with all | ⟨e, nearest⟩
    · exact absurd (all _ final) passed
    have nearest := nearest.congr stored
    have beyond : currentIndex.toInt < e.1.toInt := nearest.beyond
    have next := toInt_succ beyond
    have within : e.1.toInt ≤ currentIndex.toInt + fuel := inLimit e nearest.here
    have nearestId : ∀ other, Stored fuel s other → (currentIndex + 1).toInt ≤ keyOf other → e.1.toInt ≤ keyOf other := by
      intro other there above
      rcases nearest.nearest other there (by omega) with rfl | later
      · exact le_rfl
      · exact later.le
    obtain ⟨b, finds, live', here, data⟩ := nextModuleLoop_apply holds enough nearest.here
      (show (currentIndex + 1).toInt ≤ e.1.toInt by omega) nearestId
      (show e.1.toInt < (currentIndex + 1).toInt + fuel by omega)
    refine ⟨e, nearest, ?_⟩
    rw [if_neg passed]
    simp only [bind_apply, finds, andThen_some, load_apply live', pure_apply, here, data]

/-- Without a module it reads a null pointer. -/
theorem getNextModule_empty (holds : Holds s tree nodes levels) (enough : tree.labels.length < fuel)
    (entries : tree.inorder = []) : getNextModule fuel currentIndex s = none := by
  have walk := holds.rep.walk_entries
  rw [entries, List.map_eq_nil_iff] at walk
  have last := holds.last enough
  rw [show tree.walk .left = (tree.walk .right).reverse from walk_other .right tree, walk, List.reverse_nil,
    List.headD_nil] at last
  have null : load 0 s = none := if_neg holds.stocked.good
  simp only [getNextModule, bind_apply, getGlob_apply, andThen_some, last, null]
  rfl

end Steps

/-!
## The system
-/

/-- The modules, and the id that an iteration has come to. -/
structure ModuleCursor where
  memory : ModuleMemory
  currentIndex : Word

/-- The calls, with what they return. A call after which the process is terminated is none. -/
inductive CursorEvent where
  | call (call : ModuleCall) (code : ModuleCode)
  | first (p : Word)
  | next (p : Word)

namespace CursorEvent

def loads : CursorEvent → Nat
  | call made _ => made.loads
  | _ => 0

def Sized : CursorEvent → Prop
  | call made _ => made.Sized
  | _ => True

/-- The modules that the iteration has come to, after this call. -/
def visits : CursorEvent → List Word → List Word
  | call .., seen => seen
  | first p, _ => [p]
  | next p, seen => if p = 0 then seen else seen ++ [p]

end CursorEvent

/-- The modules that `get_first_module` and `get_next_module` have returned since the iteration was begun. -/
def visited (events : List CursorEvent) : List Word := events.foldl (fun seen event => event.visits seen) []

def cursorStep (loader : Loader) (malloc : Malloc) (fuel : Nat) : CursorEvent → ModuleCursor → Option ModuleCursor
  | .call call code, cursor => do
    let (code', memory) ← call.run loader malloc fuel cursor.memory
    if code' = some code then some { cursor with memory } else none
  | .first p, cursor => do
    let ((p', currentIndex), tree) ← getFirstModule fuel cursor.memory.tree
    if p' = p then some ⟨{ cursor.memory with tree }, currentIndex⟩ else none
  | .next p, cursor => do
    let ((p', currentIndex), tree) ← getNextModule fuel cursor.currentIndex cursor.memory.tree
    if p' = p then some ⟨{ cursor.memory with tree }, currentIndex⟩ else none

section System

variable {loader : Loader} {malloc : Malloc} {fuel remaining : Nat} {cursor cursor' : ModuleCursor}
  {event : CursorEvent} {events : List CursorEvent} {seen : List Word}

/-- What an iteration has come to, between the calls. -/
structure Going (fuel remaining : Nat) (cursor : ModuleCursor) (seen : List Word) : Prop where
  ready : Ready fuel remaining cursor.memory
  numbered : Numbered fuel remaining cursor.memory
  answering : Answering fuel cursor.memory
  inside : 0 ≤ cursor.currentIndex.toInt ∧ cursor.currentIndex.toInt < cursor.memory.moduleIndex.toNat
  passed : ∃ entries, seen = entries.map Prod.snd ∧
    Traversed keyOf (Stored fuel cursor.memory.tree) cursor.currentIndex.toInt entries

/-- What `get_next_module` returns after an iteration. -/
theorem Going.next_cases (going : Going fuel remaining cursor seen) :
    ((∀ e, ¬ Stored fuel cursor.memory.tree e) ∧ getNextModule fuel cursor.currentIndex cursor.memory.tree = none ∧
        getFirstModule fuel cursor.memory.tree = none) ∨
      (∃ e, Stored fuel cursor.memory.tree e ∧
          (∀ other, Stored fuel cursor.memory.tree other → other = e ∨ keyOf e < keyOf other) ∧
          getFirstModule fuel cursor.memory.tree = some ((e.2, e.1), cursor.memory.tree)) ∧
        (((∀ e, Stored fuel cursor.memory.tree e → keyOf e ≤ cursor.currentIndex.toInt) ∧
            getNextModule fuel cursor.currentIndex cursor.memory.tree =
              some ((0, cursor.currentIndex), cursor.memory.tree)) ∨
          ∃ e, Nearest keyOf (Stored fuel cursor.memory.tree) cursor.currentIndex.toInt e ∧
            getNextModule fuel cursor.currentIndex cursor.memory.tree = some ((e.2, e.1), cursor.memory.tree)) := by
  obtain ⟨shape, nodes, levels, holds, short⟩ := going.ready.tree
  have enough : shape.labels.length < fuel := by omega
  have stored (e : Entry) : Stored fuel cursor.memory.tree e ↔ e ∈ shape.inorder := holds.search_bound enough
  have sorted := holds.sorted
  cases entries : shape.inorder with
  | nil =>
      refine .inl ⟨fun e here => ?_, getNextModule_empty holds enough entries, getFirstModule_empty holds enough entries⟩
      rw [stored, entries] at here
      cases here
  | cons e rest =>
      refine .inr ⟨⟨e, (stored e).mpr (by simp [entries]), fun other there => ?_,
        getFirstModule_apply holds enough entries⟩, getNextModule_apply holds enough (by simp [entries]) ?_⟩
      · rw [stored, entries] at there
        rw [entries] at sorted
        exact (List.mem_cons.mp there).imp_right fun later =>
          (List.pairwise_cons.mp sorted).1 _ (List.mem_map_of_mem later)
      · intro other there
        have below := (going.numbered.ids other there).2
        have inFuel := going.numbered.inFuel
        have := going.inside.1
        omega

theorem Going.step (sized : event.Sized)
    (going : Going fuel (event.loads + remaining) cursor seen) (steps : cursorStep loader malloc fuel event cursor = some cursor') :
    Going fuel remaining cursor' (event.visits seen) := by
  cases event with
  | call call code =>
      obtain ⟨⟨code', memory⟩, runs, steps⟩ := Option.bind_eq_some_iff.mp steps
      obtain ⟨_, equal⟩ := Option.ite_none_right_eq_some.mp steps
      cases equal
      obtain ⟨ready, numbered, answering, inside, entries, same, passed⟩ := going
      obtain ⟨ready', loads⟩ := ModuleCall.run_loads sized ready runs
      obtain ⟨numbered', older, index⟩ := loads.numbered _ numbered
      refine ⟨ready', numbered', loads.answering answering, ⟨inside.1, inside.2.trans_le (Int.ofNat_le.mpr index)⟩, entries,
        same, passed.grown fun e notBeyond => ?_⟩
      exact ⟨older e (notBeyond.trans_lt inside.2), loads.keeps e⟩
  | first p =>
      obtain ⟨⟨⟨p', currentIndex⟩, tree⟩, runs, steps⟩ := Option.bind_eq_some_iff.mp steps
      obtain ⟨rfl, equal⟩ := Option.ite_none_right_eq_some.mp steps
      cases equal
      have less : remaining ≤ CursorEvent.loads (.first p') + remaining := Nat.le_add_left ..
      rcases going.next_cases with ⟨_, _, faults⟩ | ⟨⟨e, here, least, returns⟩, _⟩
      · rw [faults] at runs
        cases runs
      · cases runs.symm.trans returns
        have ids := going.numbered.ids e here
        have nothing : Traversed keyOf (Stored fuel cursor.memory.tree) (0 : Int) [] :=
          .nothing fun other there => (going.numbered.ids other there).1
        exact ⟨going.ready.mono less, going.numbered.mono less, going.answering, ⟨ids.1.le, ids.2⟩, [e], rfl,
          nothing.next ⟨here, ids.1, fun other there _ => least other there⟩⟩
  | next p =>
      obtain ⟨⟨⟨p', currentIndex⟩, tree⟩, runs, steps⟩ := Option.bind_eq_some_iff.mp steps
      obtain ⟨rfl, equal⟩ := Option.ite_none_right_eq_some.mp steps
      cases equal
      have less : remaining ≤ CursorEvent.loads (.next p') + remaining := Nat.le_add_left ..
      rcases going.next_cases with ⟨_, faults, _⟩ | ⟨_, ⟨_, returns⟩ | ⟨e, nearest, returns⟩⟩
      · rw [faults] at runs
        cases runs
      · cases runs.symm.trans returns
        exact ⟨going.ready.mono less, going.numbered.mono less, going.answering, going.inside, going.passed⟩
      · cases runs.symm.trans returns
        obtain ⟨above, below⟩ := going.numbered.ids e nearest.here
        obtain ⟨entries, same, passed⟩ := going.passed
        refine ⟨going.ready.mono less, going.numbered.mono less, going.answering, ⟨above.le, below⟩, entries ++ [e], ?_,
          passed.next nearest⟩
        rw [CursorEvent.visits, if_neg (going.answering e nearest.here |>.1), same, List.map_append, List.map_singleton]

theorem Going.run (sized : ∀ event ∈ events, event.Sized)
    (going : Going fuel (events.map CursorEvent.loads).sum cursor seen)
    (runs : run (cursorStep loader malloc fuel) events cursor = some cursor') :
    Going fuel 0 cursor' (events.foldl (fun seen event => event.visits seen) seen) := by
  induction events generalizing cursor seen with
  | nil =>
      cases runs
      exact going
  | cons event events ih =>
      obtain ⟨between, steps, rest⟩ := run_cons.mp runs
      rw [List.map_cons, List.sum_cons] at going
      exact ih (fun other member => sized other (List.mem_cons_of_mem _ member))
        (going.step (sized event List.mem_cons_self) steps) rest

/-- An iteration that has come to an id of an earlier start, or to none. -/
theorem Initialised.going (initialised : Initialised malloc cursor.memory) (past : 0 ≤ cursor.currentIndex.toInt)
    (later : cursor.currentIndex.toInt < cursor.memory.moduleIndex.toNat)
    (ids : cursor.memory.moduleIndex.toNat + remaining ≤ 2147483648)
    (enough : cursor.memory.moduleIndex.toNat + remaining ≤ fuel) : Going fuel remaining cursor [] := by
  have more : remaining < fuel := by omega
  have empty := initialised.empty (Nat.zero_lt_of_lt more)
  exact ⟨(initialised.ready more).1, ⟨fun e here => absurd here (empty e), by omega, ids, enough⟩,
    fun e here => absurd here (empty e), ⟨past, later⟩, [], rfl, .nothing fun e here => absurd here (empty e)⟩

theorem Going.nodup (going : Going fuel remaining cursor seen) : seen.Nodup := by
  obtain ⟨entries, rfl, passed⟩ := going.passed
  have distinct : entries.Nodup := (List.pairwise_map.mp passed.increasing).imp fun {x y} before (same : x = y) =>
    absurd before (same ▸ lt_irrefl _)
  refine distinct.map_on fun e member other member' same => ?_
  obtain ⟨mod, allocated, id, _⟩ := going.ready.module e.1 e.2 ((passed.mem_iff e).mp member).1
  obtain ⟨mod', allocated', id', _⟩ := going.ready.module other.1 other.2 ((passed.mem_iff other).mp member').1
  rw [← same, allocated] at allocated'
  cases allocated'
  exact Prod.ext (id.symm.trans id') same

end System

/-- Whatever is loaded meanwhile, an iteration comes to every module once, in the order of the ids: it has come to
those up to the id that it keeps, goes on to the next one, and returns null when it has come to all of them. Only
without any module does it not return. -/
theorem modules_visited (loader : Loader) (malloc : Malloc) (events : List CursorEvent)
    (sized : ∀ event ∈ events, event.Sized) (start : ModuleCursor) (initialised : Initialised malloc start.memory)
    (past : 0 ≤ start.currentIndex.toInt) (later : start.currentIndex.toInt < start.memory.moduleIndex.toNat)
    (ids : start.memory.moduleIndex.toNat + (events.map CursorEvent.loads).sum ≤ 2147483648) (fuel : Nat)
    (enough : start.memory.moduleIndex.toNat + (events.map CursorEvent.loads).sum ≤ fuel)
    (cursor : ModuleCursor) (runs : run (cursorStep loader malloc fuel) events start = some cursor) :
    ∃ entries : List Entry, visited events = entries.map Prod.snd ∧ (visited events).Nodup ∧
      Traversed keyOf (Stored fuel cursor.memory.tree) cursor.currentIndex.toInt entries ∧
      (((∀ e, ¬ Stored fuel cursor.memory.tree e) ∧
          ∀ p, cursorStep loader malloc fuel (.first p) cursor = none ∧
            cursorStep loader malloc fuel (.next p) cursor = none) ∨
        ((∀ e, Stored fuel cursor.memory.tree e → e ∈ entries) ∧
          cursorStep loader malloc fuel (.next 0) cursor = some cursor) ∨
        ∃ e, Nearest keyOf (Stored fuel cursor.memory.tree) cursor.currentIndex.toInt e ∧
          cursorStep loader malloc fuel (.next e.2) cursor = some { cursor with currentIndex := e.1 }) := by
  have going := (initialised.going past later ids enough).run sized runs
  obtain ⟨entries, same, passed⟩ := going.passed
  refine ⟨entries, same, going.nodup, passed, ?_⟩
  rcases going.next_cases with ⟨empty, next, first⟩ | ⟨_, ⟨all, returns⟩ | ⟨e, nearest, returns⟩⟩
  · exact .inl ⟨empty, fun p => ⟨by rw [cursorStep, first]; rfl, by rw [cursorStep, next]; rfl⟩⟩
  · refine .inr (.inl ⟨fun e here => (passed.mem_iff e).mpr ⟨here, all e here⟩, ?_⟩)
    rw [cursorStep, returns]
    rfl
  · refine .inr (.inr ⟨e, nearest, ?_⟩)
    rw [cursorStep, returns]
    exact if_pos rfl

/-- A second module is loaded after the iteration has come to the first one. -/
def loadBetween : List CursorEvent :=
  [.call (.load [masterNode]) .ok, .first 16, .call (.load [masterNode]) .ok, .next 32]

theorem modules_visited_two : ∃ cursor, run (cursorStep twoPlaces .bump 3) loadBetween ⟨noModules, 0⟩ = some cursor ∧
    visited loadBetween = [16, 32] ∧
    ∃ entries : List Entry, visited loadBetween = entries.map Prod.snd ∧ (visited loadBetween).Nodup ∧
      Traversed keyOf (Stored 3 cursor.memory.tree) cursor.currentIndex.toInt entries ∧
      (((∀ e, ¬ Stored 3 cursor.memory.tree e) ∧
          ∀ p, cursorStep twoPlaces .bump 3 (.first p) cursor = none ∧
            cursorStep twoPlaces .bump 3 (.next p) cursor = none) ∨
        ((∀ e, Stored 3 cursor.memory.tree e → e ∈ entries) ∧
          cursorStep twoPlaces .bump 3 (.next 0) cursor = some cursor) ∨
        ∃ e, Nearest keyOf (Stored 3 cursor.memory.tree) cursor.currentIndex.toInt e ∧
          cursorStep twoPlaces .bump 3 (.next e.2) cursor = some { cursor with currentIndex := e.1 }) := by
  obtain ⟨cursor, runs⟩ : ∃ cursor, run (cursorStep twoPlaces .bump 3) loadBetween ⟨noModules, 0⟩ = some cursor :=
    Option.isSome_iff_exists.mp (by decide +kernel)
  exact ⟨cursor, runs, by decide, modules_visited twoPlaces .bump loadBetween
    (by simp [loadBetween, CursorEvent.Sized, ModuleCall.Sized, masterNode_sized]) ⟨noModules, 0⟩
    noModules_initialised (by decide) (by decide) (by decide) 3 (by decide) cursor runs⟩

end GbfLibrary.Ecore
