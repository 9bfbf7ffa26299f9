import GbfLibrary.Rbtree.Runs

/-!
# Allocations that fail

Whatever the allocations do, every call returns and keeps the tree. An insertion that
returns an error changes nothing, and one that succeeds has bound its key, unless it was
to make the first node.
-/

set_option autoImplicit false

namespace GbfLibrary.Rbtree

open Memory Prog Trees ColoredTree Maps

/-- The same nodes and the same header. -/
structure Unchanged (s s' : RbMachine) : Prop where
  live : s'.live = s.live
  cell : s'.cell = s.cell
  glob : s'.glob = s.glob

theorem Unchanged.refl (s : RbMachine) : Unchanged s s := ⟨rfl, rfl, rfl⟩

theorem Unchanged.miss (s : RbMachine) : Unchanged s s.miss := ⟨rfl, rfl, rfl⟩

/-- The search for the key ends at a node with the datum. -/
def Bound (fuel : Nat) (s : RbMachine) (key data : Word) : Prop :=
  ∃ a, rbtSearch fuel key s = some (a, s) ∧ a ≠ 0 ∧ (s.cell a).data = data

theorem Bound.unique {s : RbMachine} {fuel : Nat} {key p q : Word} (bound : Bound fuel s key p)
    (bound' : Bound fuel s key q) : p = q := by
  obtain ⟨a, finds, _, rfl⟩ := bound
  obtain ⟨b, finds', _, rfl⟩ := bound'
  obtain rfl : a = b := congrArg Prod.fst (Option.some.inj (finds.symm.trans finds'))
  rfl

/-- The tree has no node, and the first one cannot be had. -/
def FirstNodeFails (malloc : Malloc) (s : RbMachine) : Prop :=
  s.glob.root = 0 ∧ ¬ Supplied malloc s

section Calls

variable {malloc : Malloc} {s s' : RbMachine} {tree : RbTree} {nodes : List Addr} {levels fuel : Nat}
  {key data : Word} {isUpdate oldData : Bool}

theorem Holds.unchanged (holds : Holds s tree nodes levels) (unchanged : Unchanged s s') :
    Holds s' tree nodes levels := by
  obtain ⟨live, cell, glob⟩ := unchanged
  have agree : ∀ addrs, AgreeOn addrs s s' := fun addrs a _ => ⟨by rw [live], by rw [cell]⟩
  obtain ⟨rep, root, ⟨spare, nodup, used, good⟩, balanced, black, depth, sorted, count⟩ := holds
  refine ⟨?_, glob ▸ root, ⟨?_, nodup, live ▸ used, live ▸ good⟩, balanced, black, glob ▸ depth,
    sorted, glob ▸ count⟩
  · rw [glob]
    exact (Rep.readsLabels _ _ _ s s' (agree _)).mp rep
  · rw [glob]
    exact (PoolRep.readsNodes nodes _ s s' (agree _)).mp spare

theorem Sorted.exists_binds {entries : List Entry} (sorted : Sorted entries) :
    ∃ contents : Contents, Binds entries contents := by
  have distinct : (entries.map keyOf).Nodup := sorted.imp ne_of_lt
  rw [show keyOf = BitVec.toInt ∘ Prod.fst from rfl, ← List.map_map] at distinct
  exact Maps.exists_binds distinct.of_map

/-- A search finds the entries of the tree, and nothing else. -/
theorem Holds.search_bound (holds : Holds s tree nodes levels) (enough : tree.labels.length < fuel) :
    Bound fuel s key data ↔ (key, data) ∈ tree.inorder := by
  obtain ⟨path, sub, found, rfl, surrounds⟩ := holds.split key
  have searched : rbtSearch fuel key s = _ :=
    rbtSearch_apply holds.stocked.good holds.rep holds.root (holds.height_lt enough).le
  rw [found] at searched
  cases sub with
  | nil =>
      constructor
      · rintro ⟨a, finds, notNull, _⟩
        rw [searched] at finds
        cases finds
        exact absurd rfl notNull
      · intro member
        have outside : (key, data) ∈ path.before ++ path.after := by
          simpa [Path.inorder_plug] using member
        exact absurd rfl (key_ne_of_surrounds surrounds outside)
  | node a red e l r =>
      obtain rfl : e.1 = key := direction_eq.mp (seek_found (congrArg Prod.snd found))
      obtain ⟨⟨live, cell, _⟩, _⟩ := rep_plug.mp holds.rep
      have notNull : a ≠ 0 := fun null => holds.stocked.good (null ▸ live)
      have inside : e ∈ (path.plug (node a red e l r)).inorder := by simp [Path.inorder_plug]
      constructor
      · rintro ⟨b, finds, _, rfl⟩
        rw [searched] at finds
        cases finds
        simpa [cell] using inside
      · intro member
        obtain ⟨contents, binds⟩ := holds.sorted.exists_binds
        have same : some e.2 = some data := (binds.present inside).symm.trans (binds.present member)
        exact ⟨a, searched, notNull, by simpa [cell] using same⟩

/-- A search ends at the node of its key, or nowhere. -/
theorem Holds.search_cases (holds : Holds s tree nodes levels) (enough : tree.labels.length < fuel) (key : Word) :
    (rbtSearch fuel key s = some (0, s) ∧ ∀ p, ¬ Bound fuel s key p) ∨
      ∃ a, rbtSearch fuel key s = some (a, s) ∧ a ≠ 0 ∧ a ∈ s.live ∧ (s.cell a).key = key ∧
        Bound fuel s key (s.cell a).data := by
  obtain ⟨path, sub, found, split, _⟩ := holds.split key
  have searched : rbtSearch fuel key s = some (addr (seek (direction key) [] tree).2, s) :=
    rbtSearch_apply holds.stocked.good holds.rep holds.root (holds.height_lt enough).le
  rw [found] at searched
  cases sub with
  | nil =>
      refine .inl ⟨searched, fun p bound => ?_⟩
      obtain ⟨a, finds, notNull, _⟩ := bound
      rw [searched] at finds
      cases finds
      exact notNull rfl
  | node a red e l r =>
      have same : e.1 = key := direction_eq.mp (seek_found (congrArg Prod.snd found))
      have rep : Rep s (path.plug (.node a red e l r)) s.glob.self true := split ▸ holds.rep
      obtain ⟨⟨live, cell, _⟩, _⟩ := rep_plug.mp rep
      have notNull : a ≠ 0 := fun null => holds.stocked.good (null ▸ live)
      exact .inr ⟨a, searched, notNull, live, by rw [cell]; exact same, a, searched, notNull, rfl⟩

theorem Holds.bound_iff {contents : Contents} (holds : Holds s tree nodes levels) (binds : Binds tree.inorder contents)
    (enough : tree.labels.length < fuel) : Bound fuel s key data ↔ contents key = some data :=
  (holds.search_bound enough).trans (binds key data)

/-!
## Insertion
-/

theorem rbtInsert_invalid (invalid : (isUpdate && !oldData) = true) :
    rbtInsert malloc fuel key data isUpdate oldData s = some ((.invParam, none), s) := by
  simp [rbtInsert, invalid]

private theorem rbtInsert_exists (holds : Holds s tree nodes levels) (enough : tree.labels.length < fuel)
    (member : (key, data) ∈ tree.inorder) (datum : Word) :
    rbtInsert malloc fuel key datum false oldData s = some ((.alreadyExist, none), s) := by
  obtain ⟨path, sub, found, rfl, surrounds⟩ := holds.split key
  cases sub with
  | nil =>
      have outside : (key, data) ∈ path.before ++ path.after := by
        simpa [Path.inorder_plug] using member
      exact absurd rfl (key_ne_of_surrounds surrounds outside)
  | node a red e l r =>
      obtain ⟨notNull, located⟩ := holds.locate found (Path.plug_node_ne_nil _ _ _ _ _ _)
        (holds.height_lt enough).le
      simp [rbtInsert, notNull, located, stop]

theorem rbtInsert_noRoot (valid : (isUpdate && !oldData) = false) (fails : FirstNodeFails malloc s)
    (enough : 0 < fuel) :
    rbtInsert malloc fuel key data isUpdate oldData s = some ((.ok, none), s.miss) := by
  obtain ⟨root, unsupplied⟩ := fails
  obtain ⟨fuel, rfl⟩ : ∃ more, fuel = more + 1 := ⟨fuel - 1, by omega⟩
  simp [rbtInsert, valid, root, rbtInsertRoot, poolPopNode_unsupplied unsupplied, finish,
    checkIntegrity]

theorem rbtInsert_noNode (valid : (isUpdate && !oldData) = false) (holds : Holds s tree nodes levels)
    (enough : tree.labels.length < fuel) (absent : ∀ datum, (key, datum) ∉ tree.inorder)
    (unsupplied : ¬ Supplied malloc s) (rooted : s.glob.root ≠ 0) :
    rbtInsert malloc fuel key data isUpdate oldData s = some ((.noMemory, none), s.miss) := by
  obtain ⟨path, sub, found, rfl, surrounds⟩ := holds.split key
  cases sub with
  | nil =>
      have nonempty : path.plug (.nil : RbTree) ≠ .nil := by
        rw [holds.root] at rooted
        exact mt (addr_eq_zero holds.stocked.good holds.rep).mpr rooted
      obtain ⟨notNull, located⟩ := holds.locate found nonempty (holds.height_lt enough).le
      simp [rbtInsert, valid, notNull, located, stop, poolPopNode_unsupplied unsupplied]
  | node a red e l r =>
      obtain rfl : e.1 = key := direction_eq.mp (seek_found (congrArg Prod.snd found))
      exact absurd (by simp [Path.inorder_plug]) (absent e.2)

/-- What an insertion leaves, whatever the allocations do. -/
theorem rbtInsert_outcome (malloc : Malloc) (holds : Holds s tree nodes levels) (enough : tree.labels.length + 1 < fuel)
    (key data : Word) (isUpdate oldData : Bool) :
    ∃ code old s' tree' nodes' levels',
      rbtInsert malloc fuel key data isUpdate oldData s = some ((code, old), s') ∧
      Holds s' tree' nodes' levels' ∧ tree'.labels.length ≤ tree.labels.length + 1 ∧
      ((isUpdate && !oldData) = false → FirstNodeFails malloc s → code = .ok ∧ tree' = tree) ∧
      ((isUpdate && !oldData) = true ∨ ¬ FirstNodeFails malloc s →
        (code = .ok → (key, data) ∈ tree'.inorder) ∧ (code ≠ .ok → Unchanged s s')) := by
  cases valid : isUpdate && !oldData with
  | true =>
      refine ⟨.invParam, none, s, tree, nodes, levels, rbtInsert_invalid valid, holds, by omega, ?_, ?_⟩
      · intro refused
        cases refused
      · exact fun _ => ⟨fun ok => (by cases ok), fun _ => .refl s⟩
  | false =>
      by_cases fails : FirstNodeFails malloc s
      · have here : rbtInsert malloc fuel key data isUpdate oldData s = some ((.ok, none), s.miss) :=
          rbtInsert_noRoot valid fails (by omega)
        refine ⟨.ok, none, s.miss, tree, nodes, levels, here, holds.unchanged (.miss s), by omega,
          fun _ _ => ⟨rfl, rfl⟩, ?_⟩
        rintro (refused | not)
        · cases refused
        · exact absurd fails not
      · obtain ⟨contents, binds⟩ := holds.sorted.exists_binds
        by_cases supplied : contents key = none → Supplied malloc s
        · obtain ⟨s', tree', nodes', levels', runs, holds', binds', longer⟩ :=
            rbtInsert_serves key data isUpdate oldData supplied holds binds enough
          refine ⟨_, _, s', tree', nodes', levels', runs, holds', longer, fun _ first => absurd first fails,
            fun _ => ⟨fun ok => (binds' key data).mpr ?_, fun refused => ?_⟩⟩
          · unfold Contents.insert at ok ⊢
            rw [valid] at ok ⊢
            cases bound : contents key with
            | none => simp
            | some old =>
                cases isUpdate with
                | false => simp [bound] at ok
                | true => simp
          · cases bound : contents key with
            | none => simp [Contents.insert, valid, bound] at refused
            | some old =>
                cases isUpdate with
                | true => simp [Contents.insert, valid, bound] at refused
                | false =>
                    have inside : tree.labels.length < fuel := by omega
                    rw [rbtInsert_exists holds inside ((binds key old).mpr bound) data] at runs
                    obtain rfl : s = s' := congrArg Prod.snd (Option.some.inj runs)
                    exact .refl s
        · simp only [Classical.not_imp] at supplied
          obtain ⟨fresh, unsupplied⟩ := supplied
          have absent : ∀ datum, (key, datum) ∉ tree.inorder := binds.noEntry fresh
          have rooted : s.glob.root ≠ 0 := fun empty => fails ⟨empty, unsupplied⟩
          have inside : tree.labels.length < fuel := by omega
          refine ⟨.noMemory, none, s.miss, tree, nodes, levels,
            rbtInsert_noNode valid holds inside absent unsupplied rooted, holds.unchanged (.miss s),
            by omega, fun _ first => absurd first fails, fun _ => ⟨fun ok => (by cases ok), fun _ => .miss s⟩⟩

/-- An insertion that is no update adds its entry or changes nothing. -/
theorem rbtInsert_adds (malloc : Malloc) (holds : Holds s tree nodes levels) (enough : tree.labels.length + 1 < fuel)
    (key data : Word) :
    ∃ code old s' tree' nodes' levels',
      rbtInsert malloc fuel key data false false s = some ((code, old), s') ∧ Holds s' tree' nodes' levels' ∧
      tree'.labels.length ≤ tree.labels.length + 1 ∧
      ((code = .ok ∧ (∀ datum, (key, datum) ∉ tree.inorder) ∧
          ∀ e, e ∈ tree'.inorder ↔ e = (key, data) ∨ e ∈ tree.inorder) ∨
        ((code = .ok → FirstNodeFails malloc s) ∧ Unchanged s s')) := by
  obtain ⟨contents, binds⟩ := holds.sorted.exists_binds
  have inside : tree.labels.length < fuel := by omega
  cases bound : contents key with
  | some old =>
      refine ⟨.alreadyExist, none, s, tree, nodes, levels,
        rbtInsert_exists holds inside ((binds key old).mpr bound) data, holds, by omega, .inr ⟨?_, .refl s⟩⟩
      intro ok
      cases ok
  | none =>
      have absent : ∀ datum, (key, datum) ∉ tree.inorder := binds.noEntry bound
      by_cases supplied : Supplied malloc s
      · obtain ⟨s', tree', nodes', levels', runs, holds', binds', longer⟩ :=
          rbtInsert_serves key data false false (fun _ => supplied) holds binds enough
        simp only [Contents.insert, Bool.false_and, Bool.false_eq_true, if_false, bound] at runs binds'
        refine ⟨.ok, none, s', tree', nodes', levels', runs, holds', longer, .inl ⟨rfl, absent, ?_⟩⟩
        rintro ⟨key', datum⟩
        rw [binds' key' datum, Function.update_apply]
        by_cases same : key' = key
        · subst same
          simp [absent datum, eq_comm]
        · simp [same, binds key' datum]
      · by_cases empty : s.glob.root = 0
        · exact ⟨.ok, none, s.miss, tree, nodes, levels, rbtInsert_noRoot rfl ⟨empty, supplied⟩ (by omega),
            holds.unchanged (.miss s), by omega, .inr ⟨fun _ => ⟨empty, supplied⟩, .miss s⟩⟩
        · refine ⟨.noMemory, none, s.miss, tree, nodes, levels,
            rbtInsert_noNode rfl holds inside absent supplied empty, holds.unchanged (.miss s), by omega,
            .inr ⟨?_, .miss s⟩⟩
          intro ok
          cases ok

/-!
## Calls
-/

/-- Whatever the allocations do, a call returns and keeps the tree. -/
theorem Call.run_holds (malloc : Malloc) (holds : Holds s tree nodes levels)
    (enough : tree.labels.length + 1 < fuel) (call : Call) :
    ∃ reply s' tree' nodes' levels', call.run malloc fuel s = some (reply, s') ∧
      Holds s' tree' nodes' levels' ∧ tree'.labels.length ≤ tree.labels.length + 1 := by
  obtain ⟨contents, binds⟩ := holds.sorted.exists_binds
  cases call with
  | insert key data isUpdate oldData =>
      obtain ⟨code, old, s', tree', nodes', levels', runs, holds', longer, _⟩ :=
        rbtInsert_outcome malloc holds enough key data isUpdate oldData
      exact ⟨.inserted code old, s', tree', nodes', levels', by simp [Call.run, runs], holds', longer⟩
  | remove key out =>
      obtain ⟨s', tree', nodes', levels', runs, holds', _, longer⟩ :=
        rbtRemove_serves holds binds enough key out
      let result := (contents.remove key out).1
      exact ⟨.removed result.1 result.2, s', tree', nodes', levels', by simp [Call.run, runs, result],
        holds', longer⟩
  | search key =>
      obtain ⟨s', tree', nodes', levels', runs, holds', _, longer⟩ :=
        rbtSearch_serves malloc holds binds enough key
      exact ⟨_, s', tree', nodes', levels', runs, holds', longer⟩

private theorem runCalls_holds {replies : List Reply} (calls : List Call) (holds : Holds s tree nodes levels)
    (enough : tree.labels.length + calls.length < fuel)
    (runs : runCalls malloc fuel calls s = some (replies, s')) :
    ∃ tree' nodes' levels', Holds s' tree' nodes' levels' ∧
      tree'.labels.length ≤ tree.labels.length + calls.length := by
  induction calls generalizing s tree nodes levels replies with
  | nil =>
      cases runs
      exact ⟨tree, nodes, levels, holds, Nat.le_add_right ..⟩
  | cons call calls ih =>
      simp only [List.length_cons] at enough ⊢
      have inside : tree.labels.length + 1 < fuel := by omega
      obtain ⟨reply, s₁, tree₁, nodes₁, levels₁, first, holds₁, longer⟩ :=
        call.run_holds malloc holds inside
      simp only [runCalls, bind_apply, first, andThen_some] at runs
      cases rest : runCalls malloc fuel calls s₁ with
      | none =>
          rw [rest] at runs
          cases runs
      | some result =>
          rw [rest] at runs
          cases runs
          obtain ⟨tree', nodes', levels', holds', total⟩ := ih holds₁ (by omega) rest
          exact ⟨tree', nodes', levels', holds', by omega⟩

end Calls

/-- The calls led from a new tree to this state. -/
def Reached (malloc : Malloc) (fuel : Nat) (calls : List Call) (s : RbMachine) : Prop :=
  ∃ start poolSize mode created replies, 0 ∉ start.live ∧
    rbtNewTree malloc true poolSize mode start = some (.ok, created) ∧
    runCalls malloc fuel calls created = some (replies, s)

theorem Reached.holds {malloc : Malloc} {fuel : Nat} {calls : List Call} {s : RbMachine}
    (reached : Reached malloc fuel calls s) (enough : calls.length < fuel) :
    ∃ tree nodes levels, Holds s tree nodes levels ∧ tree.labels.length ≤ calls.length := by
  obtain ⟨start, poolSize, mode, created, replies, good, creates, runs⟩ := reached
  obtain ⟨nodes, holds⟩ := rbtNewTree_holds good creates
  obtain ⟨tree, nodes', levels, holds', longer⟩ := runCalls_holds calls holds (by simpa using enough) runs
  exact ⟨tree, nodes', levels, holds', by simpa using longer⟩

/-- The result of an insertion is true: on success the key has the datum, and otherwise
nothing changed. -/
def Truthful (fuel : Nat) (s s' : RbMachine) (key data : Word) (code : Code) : Prop :=
  (code = .ok → Bound fuel s' key data) ∧ (code ≠ .ok → Unchanged s s')

/-- The result of an insertion is true but for a first node that cannot be had. -/
theorem rbtInsert_truthful_iff (malloc : Malloc) (calls : List Call) (fuel : Nat)
    (enough : calls.length + 1 < fuel) (s : RbMachine) (reached : Reached malloc fuel calls s)
    (key data : Word) (isUpdate oldData : Bool) :
    ∃ code old s', rbtInsert malloc fuel key data isUpdate oldData s = some ((code, old), s') ∧
      (Truthful fuel s s' key data code ↔
        ((isUpdate && !oldData) = true ∨ ¬ FirstNodeFails malloc s)) := by
  obtain ⟨tree, nodes, levels, holds, length⟩ := reached.holds (by omega)
  have inside : tree.labels.length + 1 < fuel := by omega
  obtain ⟨code, old, s', tree', nodes', levels', runs, holds', longer, failing, fine⟩ :=
    rbtInsert_outcome malloc holds inside key data isUpdate oldData
  have short : tree'.labels.length < fuel := by omega
  refine ⟨code, old, s', runs, ?_, fun condition => ?_⟩
  · rintro ⟨bound, _⟩
    by_contra not
    simp only [not_or, not_not, Bool.not_eq_true] at not
    obtain ⟨valid, fails⟩ := not
    obtain ⟨ok, rfl⟩ := failing valid fails
    have empty : tree' = .nil := by
      have root := fails.1
      rw [holds.root] at root
      exact (addr_eq_zero holds.stocked.good holds.rep).mp root
    have member := (holds'.search_bound short).mp (bound ok)
    rw [empty] at member
    cases member
  · obtain ⟨bound, unchanged⟩ := fine condition
    exact ⟨fun ok => (holds'.search_bound short).mpr (bound ok), unchanged⟩

/-- An allocator that serves the first call only. -/
def Malloc.firstOnly : Malloc where
  pick used count := if count = 0 then Malloc.bump.pick used count else none
  fresh := by
    intro used count address picked
    split at picked
    · exact Malloc.bump.fresh used count address picked
    · cases picked

/-- The tree after `rbt_new_tree`, where the header took the only allocation. -/
def headerOnly : RbMachine :=
  ((rbtNewTree Malloc.firstOnly true 0 0 emptyMemory).get rfl).2

private theorem headerOnly_reached : Reached Malloc.firstOnly 3 [] headerOnly :=
  ⟨emptyMemory, 0, 0, headerOnly, [], by simp [emptyMemory], rfl, rfl⟩

theorem rbtInsert_truthful_iff_headerOnly :
    ∃ code old s', rbtInsert Malloc.firstOnly 3 5 50 true false headerOnly = some ((code, old), s') ∧
      (Truthful 3 headerOnly s' 5 50 code ↔
        ((true && !false) = true ∨ ¬ FirstNodeFails Malloc.firstOnly headerOnly)) :=
  rbtInsert_truthful_iff Malloc.firstOnly [] 3 (by decide) headerOnly headerOnly_reached 5 50 true false

/-- `rbt_insert` returns 0, and the tree is still empty. -/
theorem rbtInsert_untruthful : ¬ ∀ (malloc : Malloc) (calls : List Call) (fuel : Nat) (s : RbMachine),
    calls.length + 1 < fuel → Reached malloc fuel calls s →
    ∀ key data isUpdate oldData code old s',
      rbtInsert malloc fuel key data isUpdate oldData s = some ((code, old), s') →
        Truthful fuel s s' key data code := by
  intro claimed
  have truthful := claimed Malloc.firstOnly [] 3 headerOnly (by decide) headerOnly_reached 5 50 false false
    .ok none headerOnly.miss rfl
  obtain ⟨a, finds, notNull, _⟩ := truthful.1 rfl
  have misses : rbtSearch 3 5 headerOnly.miss = some (0, headerOnly.miss) := rfl
  rw [misses] at finds
  cases finds
  exact notNull rfl

end GbfLibrary.Rbtree
