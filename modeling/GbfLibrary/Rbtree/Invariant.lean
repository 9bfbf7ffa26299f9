import GbfLibrary.Rbtree.Search

/-!
# The tree between two calls

`Holds` is what every call finds and leaves: a represented, balanced search
tree, beside a pool of zeroed nodes that are chained by their parent pointers.
-/

set_option autoImplicit false

namespace GbfLibrary.Rbtree

open Memory Prog Trees ColoredTree

/-!
## The pool
-/

def PoolRep (s : RbMachine) : List Addr → Addr → Prop
  | [], pool => pool = 0
  | a :: rest, pool =>
      pool = a ∧ a ∈ s.live ∧ ∃ next, s.cell a = ⟨0, 0, 0, next, 0, 0⟩ ∧ PoolRep s rest next

theorem PoolRep.readsNodes (nodes : List Addr) (pool : Addr) :
    Local nodes fun s : RbMachine => PoolRep s nodes pool := by
  intro s s' agree
  induction nodes generalizing pool with
  | nil => exact Iff.rfl
  | cons a rest ih =>
      have here := agree a (by simp)
      have beyond := fun next => ih next (agree.mono (by simp))
      simp only [PoolRep, here.1, here.2, beyond]

theorem PoolRep.live {s : RbMachine} {nodes : List Addr} {pool : Addr}
    (rep : PoolRep s nodes pool) : ∀ a ∈ nodes, a ∈ s.live := by
  induction nodes generalizing pool with
  | nil => simp
  | cons a rest ih =>
      obtain ⟨_, live, next, _, beyond⟩ := rep
      simpa [live] using ih beyond

theorem Rep.live {s : RbMachine} {tree : RbTree} {parent : Addr} {root : Bool}
    (rep : Rep s tree parent root) : ∀ a ∈ tree.labels, a ∈ s.live := by
  induction tree generalizing parent root with
  | nil => simp
  | node a red e l r leftIH rightIH =>
      obtain ⟨live, _, left, right⟩ := rep
      intro b member
      simp only [labels_node, List.mem_cons, List.mem_append] at member
      rcases member with rfl | inLeft | inRight
      · exact live
      · exact leftIH left b inLeft
      · exact rightIH right b inRight

/-- A state with a pool, on which allocation may continue. -/
structure Stocked (s : RbMachine) (used : List Addr) (nodes : List Addr) : Prop where
  spare : PoolRep s nodes s.glob.pool
  nodup : (used ++ nodes).Nodup
  live : ∀ a ∈ used, a ∈ s.live
  good : 0 ∉ s.live

section Pool

variable {malloc : Malloc} {s : RbMachine} {used nodes : List Addr}

/-- What `pool_pop_node` yields: a zeroed node that nothing else uses. -/
structure Popped (s s' : RbMachine) (used : List Addr) (a : Addr) (nodes : List Addr) :
    Prop where
  notNull : a ≠ 0
  live : a ∈ s'.live
  cell : ∃ stale, s'.cell a = ⟨0, 0, 0, stale, 0, 0⟩
  stocked : Stocked s' (a :: used) nodes
  glob : s'.glob = { s.glob with pool := s'.glob.pool }
  agree : AgreeOn used s s'

/-- The next node can be had. -/
def Supplied (malloc : Malloc) (s : RbMachine) : Prop :=
  s.glob.pool ≠ 0 ∨ malloc.pick (s.live ∪ s.others) s.callocs ≠ none

theorem supplied_of_succeeds (succeeds : malloc.Succeeds) : Supplied malloc s := by
  obtain ⟨a, picked⟩ := succeeds (s.live ∪ s.others) s.callocs
  exact .inr (by simp [picked])

theorem poolPopNode_unsupplied (unsupplied : ¬ Supplied malloc s) :
    poolPopNode malloc s = some (0, s.miss) := by
  simp only [Supplied, not_or, not_not] at unsupplied
  simp [poolPopNode, unsupplied.1, calloc_none Node.zero unsupplied.2]

/-- Where the pool is empty, a new node comes from the allocator. -/
theorem poolPopNode_exact (supplied : Supplied malloc s) (stocked : Stocked s used nodes) :
    ∃ a s', poolPopNode malloc s = some (a, s') ∧ Popped s s' used a nodes.tail ∧ s'.live = insert a s.live ∧
      s'.others = s.others ∧ (nodes = a :: nodes.tail ∨ nodes = [] ∧ a ∉ s.live) := by
  obtain ⟨spare, nodup, live, good⟩ := stocked
  cases nodes with
  | nil =>
      have empty : s.glob.pool = 0 := spare
      obtain ⟨a, picked⟩ := Option.ne_none_iff_exists'.mp (supplied.resolve_left (by simp [empty]))
      obtain ⟨runs, notNull, fresh, _⟩ := calloc_some Node.zero picked
      have outside : a ∉ used := fun member => fresh (live a member)
      refine ⟨a, s.extend a Node.zero, by simp [poolPopNode, empty, runs], ⟨notNull, by simp,
        ⟨0, by simp [Node.zero]⟩, ⟨by simpa [PoolRep] using empty, ?_, ?_, ?_⟩, by simp, ?_⟩, by simp, by simp,
        .inr ⟨rfl, fresh⟩⟩
      · simpa [outside] using nodup
      · simpa using fun b member => Or.inr (live b member)
      · simpa [good] using notNull.symm
      · exact .extend outside
  | cons a rest =>
      obtain ⟨here, present, next, cell, beyond⟩ := spare
      have notNull : a ≠ 0 := fun null => good (null ▸ present)
      have moved : (used ++ a :: rest).Perm (a :: (used ++ rest)) := List.perm_middle
      refine ⟨a, s.withGlob { s.glob with pool := next }, ?_, ⟨notNull, by simpa using present,
        ⟨next, by simpa using cell⟩, ⟨?_, ?_, ?_, by simpa using good⟩, by simp, .withGlob _⟩, ?_, by simp,
        .inl rfl⟩
      · simp [poolPopNode, here, notNull, present, cell]
      · simpa using (PoolRep.readsNodes rest next).withGlob.mpr beyond
      · simpa using moved.nodup_iff.mp nodup
      · simpa [present] using live
      · rw [Machine.withGlob_live, Finset.insert_eq_of_mem present]

/-- A round of the loop that fills the pool. -/
theorem Stocked.added_exact {a : Addr} (stocked : Stocked s [] nodes)
    (picked : malloc.pick (s.live ∪ s.others) s.callocs = some a) (left : Nat) :
    ∃ s', fillPool malloc (left + 1) s = fillPool malloc left s' ∧ Stocked s' [] (a :: nodes) ∧
      s'.glob = { s.glob with pool := a } ∧ s'.live = insert a s.live ∧ s'.others = s.others := by
  obtain ⟨spare, nodup, _, good⟩ := stocked
  obtain ⟨runs, notNull, fresh, _⟩ := calloc_some Node.zero picked
  have outside : a ∉ nodes := fun member => fresh (spare.live a member)
  cases nodes with
  | nil =>
      have empty : s.glob.pool = 0 := spare
      refine ⟨(s.extend a Node.zero).withGlob { s.glob with pool := a }, ?_, ?_, by simp, by simp, by simp⟩
      · simp [fillPool, runs, notNull, empty]
      · refine ⟨⟨rfl, by simp, 0, by simp [Node.zero], rfl⟩, by simp, by simp, ?_⟩
        simpa [good] using notNull.symm
  | cons b rest =>
      obtain ⟨here, present, after, cell, beyond⟩ := spare
      have bNotNull : b ≠ 0 := fun null => good (null ▸ present)
      simp only [List.mem_cons, not_or] at outside
      let linked := (s.extend a Node.zero).modify a fun n => { n with parent := b }
      refine ⟨linked.withGlob { s.glob with pool := a }, ?_, ?_, by simp, by simp [linked], by simp [linked]⟩
      · simp [fillPool, setParent, runs, notNull, here, bNotNull, linked]
      · refine ⟨⟨rfl, by simp [linked], b, by simp [linked, Node.zero], rfl, ?_⟩, ?_, by simp, ?_⟩
        · refine ⟨by simp [linked, present], after, ?_, ?_⟩
          · simp [linked, outside, Machine.extend_cell_of_ne (Ne.symm outside.1), cell]
          · have reads := PoolRep.readsNodes rest after
            exact reads.withGlob.mpr ((reads.modify outside.2).mpr
              ((reads.extend outside.2).mpr beyond))
        · simpa [outside] using nodup
        · simpa [linked, good] using notNull.symm

theorem Stocked.added {a : Addr} (stocked : Stocked s [] nodes)
    (picked : malloc.pick (s.live ∪ s.others) s.callocs = some a) (left : Nat) :
    ∃ s', fillPool malloc (left + 1) s = fillPool malloc left s' ∧ Stocked s' [] (a :: nodes) ∧
      s'.glob = { s.glob with pool := a } := by
  obtain ⟨s', step, stocked', glob, _⟩ := stocked.added_exact picked left
  exact ⟨s', step, stocked', glob⟩

private theorem fillPool_succeeds (succeeds : malloc.Succeeds) (left : Nat) (stocked : Stocked s [] nodes) :
    ∃ s', fillPool malloc left s = some (true, s') := by
  induction left generalizing s nodes with
  | zero => exact ⟨s, rfl⟩
  | succ left ih =>
      obtain ⟨a, picked⟩ := succeeds (s.live ∪ s.others) s.callocs
      obtain ⟨s₁, step, stocked₁, _⟩ := stocked.added picked left
      obtain ⟨s', fills⟩ := ih stocked₁
      exact ⟨s', step.trans fills⟩

private theorem fillPool_stocked {s' : RbMachine} (left : Nat) (stocked : Stocked s [] nodes)
    (fills : fillPool malloc left s = some (true, s')) :
    ∃ nodes', Stocked s' [] nodes' ∧ s'.glob = { s.glob with pool := s'.glob.pool } := by
  induction left generalizing s nodes with
  | zero =>
      cases fills
      exact ⟨nodes, stocked, rfl⟩
  | succ left ih =>
      cases pick : malloc.pick (s.live ∪ s.others) s.callocs with
      | none => simp [fillPool, calloc_none Node.zero pick] at fills
      | some a =>
          obtain ⟨s₁, step, stocked₁, glob₁⟩ := stocked.added pick left
          rw [step] at fills
          obtain ⟨nodes', stocked', glob'⟩ := ih stocked₁ fills
          refine ⟨nodes', stocked', ?_⟩
          rw [glob', glob₁]

end Pool

/-!
## The invariant
-/

structure Holds (s : RbMachine) (tree : RbTree) (nodes : List Addr) (levels : Nat) : Prop where
  rep : Rep s tree s.glob.self true
  root : s.glob.root = addr tree
  stocked : Stocked s tree.labels nodes
  balanced : tree.Balanced levels
  black : tree.isRed = false
  depth : s.glob.depth = levels
  sorted : Sorted tree.inorder
  count : s.glob.count = tree.labels.length

section Holds

variable {malloc : Malloc} {s : RbMachine} {tree : RbTree} {nodes : List Addr} {levels fuel : Nat}

theorem Holds.height_lt (_holds : Holds s tree nodes levels) (enough : tree.labels.length < fuel) :
    tree.height < fuel :=
  tree.height_le_length_labels.trans_lt enough

theorem Holds.finish (holds : Holds s tree nodes levels) (enough : tree.labels.length < fuel) :
    finish fuel s = some (.ok, s) := by
  have checked := checkIntegrity_apply holds.stocked.good holds.rep holds.balanced holds.sorted
    (holds.height_lt enough)
  by_cases mode : s.glob.mode &&& RBT_MODE_INTEGRITY = 0
  · simp [Rbtree.finish, mode]
  · simp [Rbtree.finish, holds.root, checked]

/-- The header that `rbt_new_tree` fills in. -/
theorem newHeader_stocked {self : Addr} {s₁ : RbMachine} {fresh : Header} (good : 0 ∉ s₁.live)
    (header : fresh = { Header.zero with self := self, poolSize := fresh.poolSize }) :
    Stocked (s₁.withGlob fresh) [] [] := by
  rw [header]
  exact ⟨rfl, by simp, by simp, by simpa using good⟩

theorem Stocked.emptyTree {self : Addr} {poolSize : Nat} {mode : Word} (stocked : Stocked s [] nodes)
    (header : s.glob = { Header.zero with self := self, poolSize := poolSize, pool := s.glob.pool }) :
    Holds (s.withGlob { s.glob with mode := mode }) .nil nodes 0 := by
  refine ⟨trivial, ?_, ⟨?_, by simpa using stocked.nodup, by simp, by simpa using stocked.good⟩,
    .nil, rfl, ?_, ?_, ?_⟩
  · rw [Machine.withGlob_glob, header]
    rfl
  · exact (PoolRep.readsNodes nodes _).withGlob.mpr stocked.spare
  · rw [Machine.withGlob_glob, header]
    rfl
  · simp [Sorted]
  · rw [Machine.withGlob_glob, header]
    rfl

theorem rbtNewTree_apply (succeeds : malloc.Succeeds) (start : RbMachine) (good : 0 ∉ start.live)
    (poolSize : Nat) (mode : Word) :
    ∃ s nodes, rbtNewTree malloc true poolSize mode start = some (.ok, s) ∧
      Holds s .nil nodes 0 := by
  obtain ⟨self, s₁, runs, notNull, live, cell, glob⟩ := callocOther_apply succeeds start
  let fresh : Header := { Header.zero with self := self, poolSize := poolSize }
  have empty : Stocked (s₁.withGlob fresh) [] [] := newHeader_stocked (live ▸ good) rfl
  obtain ⟨s₂, fills⟩ := fillPool_succeeds succeeds poolSize empty
  obtain ⟨nodes, stocked, glob₂⟩ := fillPool_stocked poolSize empty fills
  refine ⟨s₂.withGlob { s₂.glob with mode := mode }, nodes, ?_, stocked.emptyTree glob₂⟩
  simp [rbtNewTree, runs, notNull, fresh] at fills ⊢
  simp [fills]

/-- Whatever the allocations do, a tree that was created is empty. -/
theorem rbtNewTree_holds {start : RbMachine} {poolSize : Nat} {mode : Word} (good : 0 ∉ start.live)
    (creates : rbtNewTree malloc true poolSize mode start = some (.ok, s)) :
    ∃ nodes, Holds s .nil nodes 0 := by
  cases pick : malloc.pick (start.live ∪ start.others) start.callocs with
  | none => simp [rbtNewTree, callocOther, pick] at creates
  | some self =>
      have notNull : self ≠ 0 := (malloc.fresh _ _ _ pick).1
      let s₁ : RbMachine :=
        { start with others := insert self start.others, callocs := start.callocs + 1 }
      have runs : callocOther malloc start = some (self, s₁) := by simp [callocOther, pick, s₁]
      let fresh : Header := { Header.zero with self := self, poolSize := poolSize }
      have empty : Stocked (s₁.withGlob fresh) [] [] := newHeader_stocked good rfl
      simp only [rbtNewTree, runs, bind_apply, andThen_some, notNull, setGlob_apply, if_false,
        Prog.ite_apply, Bool.true_eq_false] at creates
      cases fills : fillPool malloc poolSize (s₁.withGlob fresh) with
      | none =>
          rw [fills] at creates
          cases creates
      | some result =>
          obtain ⟨filled, s₂⟩ := result
          rw [fills] at creates
          cases filled with
          | false =>
              simp only [andThen_some, Bool.false_eq_true, if_false, bind_apply] at creates
              cases frees : freePool (poolSize + 1) s₂ with
              | none =>
                  rw [frees] at creates
                  cases creates
              | some result =>
                  rw [frees, andThen_some, bind_apply] at creates
                  cases last : (freeOther self : RbProg Unit) result.2 with
                  | none =>
                      rw [last] at creates
                      cases creates
                  | some result =>
                      rw [last] at creates
                      cases creates
          | true =>
              obtain ⟨nodes, stocked, glob₂⟩ := fillPool_stocked poolSize empty fills
              cases creates
              exact ⟨nodes, stocked.emptyTree glob₂⟩

end Holds

end GbfLibrary.Rbtree
