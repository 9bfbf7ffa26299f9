import GbfLibrary.Rbtree.Contents
import GbfLibrary.Rbtree.Insert
import GbfLibrary.Rbtree.Invariant
import GbfLibrary.Rbtree.Remove

/-!
# Insertion and removal

Both calls keep the invariant, and change the entries in search order by the
one entry they are about.
-/

set_option autoImplicit false

namespace GbfLibrary.Rbtree

open Memory Prog Trees ColoredTree Maps

theorem Sorted.insert {first last : List Entry} {e : Entry} (sorted : Sorted (first ++ last))
    (before : ∀ x ∈ first, x.1.toInt < e.1.toInt) (after : ∀ y ∈ last, e.1.toInt < y.1.toInt) :
    Sorted (first ++ e :: last) := by
  simp only [Sorted, List.map_append, List.map_cons, List.pairwise_append, List.pairwise_cons,
    List.mem_map, List.mem_cons, forall_exists_index, and_imp, forall_apply_eq_imp_iff₂,
    forall_eq_or_imp, keyOf] at sorted ⊢
  exact ⟨sorted.1, ⟨after, sorted.2.1⟩, fun x member => ⟨before x member, sorted.2.2 x member⟩⟩

/-- No other entry of a sorted list has the same key. -/
theorem Sorted.key_ne {first last : List Entry} {e : Entry} (sorted : Sorted (first ++ e :: last)) :
    ∀ x ∈ first ++ last, x.1 ≠ e.1 := by
  intro x member same
  have tail : Sorted ([e] ++ last) := sorted.sublist (by simp)
  rcases List.mem_append.mp member with before | after
  · have smaller := sorted.across before (List.mem_cons_self ..)
    simp [same] at smaller
  · have larger := tail.across (List.mem_singleton_self e) after
    simp [same] at larger

section Transport

variable {s s' : RbMachine} {used more touched nodes : List Addr}

theorem Stocked.within (stocked : Stocked s used nodes) (within : Within touched s s')
    (pool : s'.glob.pool = s.glob.pool) (included : touched ⊆ used) (moved : more.Perm used) :
    Stocked s' more nodes := by
  obtain ⟨spare, nodup, live, good⟩ := stocked
  have apart := (List.nodup_append'.mp nodup).2.2
  refine ⟨?_, ?_, ?_, within.live ▸ good⟩
  · rw [pool]
    exact ((PoolRep.readsNodes nodes _).within within
      fun a inNodes inTouched => apart (included inTouched) inNodes).mpr spare
  · exact (moved.append_right nodes).nodup_iff.mpr nodup
  · intro a member
    rw [within.live]
    exact live a (moved.subset member)

theorem Stocked.release {a : Addr} (stocked : Stocked s (a :: used) nodes) {g : Header}
    (pool : g.pool = s.glob.pool) : Stocked ((s.release a).withGlob g) used nodes := by
  obtain ⟨spare, nodup, live, good⟩ := stocked
  simp only [List.cons_append, List.nodup_cons, List.mem_append, not_or] at nodup
  obtain ⟨⟨outside, notSpare⟩, nodup⟩ := nodup
  refine ⟨?_, nodup, ?_, by simpa using fun _ => good⟩
  · have reads := PoolRep.readsNodes nodes s.glob.pool
    rw [Machine.withGlob_glob, pool]
    exact reads.withGlob.mpr ((reads.release notSpare).mpr spare)
  · intro b member
    have different : b ≠ a := fun same => outside (same ▸ member)
    simpa [different] using live b (List.mem_cons_of_mem a member)

end Transport

/-!
## Insertion
-/

section Insert

variable {malloc : Malloc} {s : RbMachine} {tree : RbTree} {nodes : List Addr} {levels fuel : Nat}
  {key data : Word}

theorem Popped.arriving {s₁ s₂ : RbMachine} {path : RbPath} {a : Addr}
    (holds : Holds s (path.plug .nil) nodes levels)
    (surrounds : path.Surrounds (direction key)) {nodes' : List Addr}
    (popped : Popped s s₁ (path.plug .nil).labels a nodes')
    (filled : s₂ = (s₁.modify a fun n => { n with data := data }).modify a
      fun n => { n with key := key }) :
    Arriving s₂ path a (key, data) .nil .nil 0 := by
  subst filled
  obtain ⟨stale, cell⟩ := popped.cell
  have self : s₁.glob.self = s.glob.self := by rw [popped.glob]
  have rep₁ : Rep s₁ (path.plug .nil) s.glob.self true :=
    (Rep.readsLabels _ _ _ _ _ popped.agree).mp holds.rep
  have frames := (rep_plug.mp rep₁).2
  have labels : (path.plug (.nil : RbTree)).labels.Perm path.labels := path.labels_plug .nil
  have outside : a ∉ path.labels := by
    have distinct := popped.stocked.nodup
    simp only [List.cons_append, List.nodup_cons, List.mem_append, not_or, labels.mem_iff] at distinct
    exact distinct.1.1
  refine ⟨⟨by simpa using popped.live, ⟨stale, by simp [cell, statusOf_zero]⟩, trivial, trivial⟩,
    ?_, ?_, ?_, by simpa using popped.stocked.good, ?_, rfl, rfl⟩
  · simpa [outside, self] using frames
  · have top : s.glob.root = path.top 0 := by simpa using holds.root
    rw [Machine.modify_glob, Machine.modify_glob, popped.glob]
    exact top
  · have distinct := (List.nodup_append'.mp holds.stocked.nodup).1
    simpa [outside] using labels.nodup_iff.mp distinct
  · have sorted := holds.sorted
    rw [Path.inorder_plug] at sorted
    exact sorted.insert (fun x member => direction_gt.mp (surrounds.before x member))
      fun y member => direction_lt.mp (surrounds.after y member)

theorem Holds.grown {s₁ s₂ s₃ : RbMachine} {path : RbPath} {a : Addr} {tree' : RbTree}
    {deeper : Nat} {nodes' : List Addr} (holds : Holds s (path.plug .nil) nodes levels)
    (popped : Popped s s₁ (path.plug .nil).labels a nodes')
    (arriving : Arriving s₂ path a (key, data) .nil .nil 0) (filled : Within [a] s₁ s₂)
    (glob₂ : s₂.glob = s₁.glob) (grow : Grow path a (key, data) .nil .nil tree' deeper)
    (grown : Grown s₂ s₃ tree' deeper (playing path a .nil .nil)) :
    Holds (s₃.withGlob { s₃.glob with count := s₃.glob.count + 1 }) tree' nodes'
      (levels + deeper) := by
  obtain ⟨height, empty, frames⟩ := Path.Balanced.of_plug holds.balanced holds.black
  obtain ⟨balanced, black⟩ := grow.balanced frames empty empty rfl rfl
  have hole : (path.plug (.nil : RbTree)).labels.Perm path.labels := path.labels_plug .nil
  have labels : tree'.labels.Perm (a :: (path.plug (.nil : RbTree)).labels) :=
    grow.labels.trans (hole.symm.cons a)
  have glob : s₃.glob = { s.glob with
      pool := s₁.glob.pool, root := addr tree', depth := s.glob.depth + deeper } := by
    rw [grown.glob, glob₂, popped.glob]
  have within : Within (playing path a .nil .nil) s₁ s₃ := (filled.mono (by simp)).trans grown.within
  have stocked : Stocked s₃ tree'.labels nodes' :=
    popped.stocked.within within (by rw [glob]) (hole.symm.cons a).subset labels
  refine ⟨?_, by simp [glob], ⟨?_, stocked.nodup, stocked.live, stocked.good⟩, balanced, black, ?_,
    ?_, ?_⟩
  · have self : s₂.glob.self = s₃.glob.self := by rw [glob, glob₂, popped.glob]
    simpa [← self] using grown.rep
  · exact (PoolRep.readsNodes nodes' _).withGlob.mpr stocked.spare
  · simp [glob, holds.depth]
  · have sorted := arriving.sorted
    rwa [← grow.inorder] at sorted
  · simp [glob, holds.count, labels.length_eq]

/-- What an insertion of a new key leaves: a node came from the front of the pool, or from the allocator. -/
structure Inserted (s s' : RbMachine) (tree' : RbTree) (used nodes : List Addr) (levels' : Nat) (a : Addr) : Prop where
  holds : Holds s' tree' nodes.tail levels'
  labels : tree'.labels.Perm (a :: used)
  front : nodes = a :: nodes.tail ∨ nodes = [] ∧ a ∉ s.live
  live : s'.live = insert a s.live
  others : s'.others = s.others
  self : s'.glob.self = s.glob.self

/-- A new node below the hole where the search for its key ended. -/
theorem insertBelow {path : RbPath} (key data : Word) (supplied : Supplied malloc s)
    (holds : Holds s (path.plug .nil) nodes levels) (nonempty : path ≠ [])
    (surrounds : path.Surrounds (direction key)) (enough : path.labels.length + 1 < fuel) :
    ∃ s' tree' levels' a,
      (do
        let node ← poolPopNode malloc
        if node = 0 then return (Code.noMemory, none)
        else (do
          store node fun n => { n with data := data }
          store node fun n => { n with key := key }
          insertLoop fuel node (parentOf 0 path)
          setGlob fun tree => { tree with count := tree.count + 1 }
          let code ← finish fuel
          return (code, none)) : RbProg (Code × Option Word)) s = some ((.ok, none), s') ∧
      Inserted s s' tree' (path.plug (.nil : RbTree)).labels nodes levels' a ∧
      tree'.inorder = path.before ++ (key, data) :: path.after := by
  obtain ⟨a, s₁, pops, popped, live, others, front⟩ := poolPopNode_exact supplied holds.stocked
  obtain ⟨s₂, filled⟩ : ∃ s₂, s₂ = (s₁.modify a fun n => { n with data := data }).modify a
      fun n => { n with key := key } := ⟨_, rfl⟩
  have arriving := popped.arriving holds surrounds filled
  have glob₂ : s₂.glob = s₁.glob := by simp [filled]
  have within₂ : Within [a] s₁ s₂ := by
    rw [filled]
    exact ((Within.refl _ _).modify (by simp)).modify (by simp)
  obtain ⟨height, empty, frames⟩ := Path.Balanced.of_plug holds.balanced holds.black
  obtain ⟨tree', deeper, grow⟩ := Grow.exists_of_balanced path frames a (key, data) .nil .nil
  have short : path.length ≤ fuel := by
    have := path.length_le_length_labels
    omega
  obtain ⟨s₃, loops, grown⟩ := insertLoop_grow grow short nonempty arriving
  have holds' := holds.grown popped arriving within₂ glob₂ grow grown
  have longer : tree'.labels.length < fuel := by
    have := grow.labels.length_eq
    simp at this
    omega
  rw [parentOf_of_ne_nil nonempty 0] at loops
  have hole : (path.plug (.nil : RbTree)).labels.Perm path.labels := path.labels_plug .nil
  refine ⟨_, tree', levels + deeper, a, ?_, ⟨holds', grow.labels.trans (hole.symm.cons a), front, ?_, ?_, ?_⟩,
    by simpa using grow.inorder⟩
  · simp [pops, popped.notNull, popped.live, ← filled, loops, holds'.finish longer]
  · rw [Machine.withGlob_live, grown.within.live, within₂.live, live]
  · show s₃.others = s.others
    rw [grown.within.others, within₂.others, others]
  · rw [Machine.withGlob_glob, grown.glob, glob₂, popped.glob]

private theorem insertRoot (key data : Word) (supplied : Supplied malloc s) (holds : Holds s .nil nodes levels)
    (enough : 1 < fuel) :
    ∃ s' tree' levels' a,
      (do
        let _ ← rbtInsertRoot malloc key data
        let code ← finish fuel
        return (code, none) : RbProg (Code × Option Word)) s = some ((.ok, none), s') ∧
      Inserted s s' tree' [] nodes levels' a ∧ tree'.inorder = [(key, data)] := by
  obtain ⟨a, s₁, pops, popped, live, others, front⟩ := poolPopNode_exact supplied holds.stocked
  obtain ⟨stale, cell⟩ := popped.cell
  obtain ⟨pool, glob⟩ : ∃ pool, s₁.glob = { s.glob with pool := pool } := ⟨_, popped.glob⟩
  obtain ⟨s₂, runs, cell₂, glob₂, within⟩ : ∃ s₂, rbtInsertRoot malloc key data s = some (.ok, s₂) ∧
      s₂.cell a = ⟨statusOf false false true, key, data, s.glob.self, 0, 0⟩ ∧
      s₂.glob = { s.glob with pool := s₁.glob.pool, count := 1, depth := 1, root := a } ∧
      Within [a] s₁ s₂ := by
    refine Exists.intro ?state (And.intro ?runs ?result)
    case runs =>
      simp [rbtInsertRoot, setRoot, setBlack, setParent, pops, popped.notNull, popped.live]
      rfl
    case result =>
      refine ⟨by simp [cell, glob, ← statusOf_zero], by simp [glob], ?_⟩
      apply_rules [Within.modify, Within.withGlob]
      all_goals first | exact .refl _ _ | simp
  have holds' : Holds s₂ (node a false (key, data) .nil .nil) nodes.tail 1 := by
    refine ⟨?_, by simp [glob₂], ?_, .black .nil .nil rfl, rfl, by simp [glob₂], ?_, ?_⟩
    · refine ⟨within.live ▸ popped.live, ?_, trivial, trivial⟩
      simp [cell₂, glob₂]
    · exact popped.stocked.within within (by rw [glob₂]) (by simp) (by simp)
    · simp [Sorted]
    · simp [glob₂]
  have finishes : finish fuel s₂ = some (.ok, s₂) := holds'.finish enough
  exact ⟨s₂, _, 1, a, by simp [runs, finishes],
    ⟨holds', .refl _, front, within.live.trans live, within.others.trans others, by rw [glob₂]⟩, rfl⟩

/-- The node that has the key already gets the new datum. -/
theorem Holds.replaceDatum (data : Word) {path : RbPath} {a : Addr} {red : Bool} {e : Entry} {l r : RbTree}
    (holds : Holds s (path.plug (node a red e l r)) nodes levels) :
    Holds (s.modify a fun n => { n with data := data }) (path.plug (node a red (e.1, data) l r))
      nodes levels := by
  obtain ⟨rep, root, stocked, balanced, black, depth, sorted, count⟩ := holds
  have labels : (path.plug (node a red (e.1, data) l r)).labels.Perm
      (path.plug (node a red e l r)).labels :=
    (path.labels_plug (node a red (e.1, data) l r)).trans
      (path.labels_plug (node a red e l r)).symm
  have distinct := (path.labels_plug (node a red e l r)).nodup_iff.mp
    (List.nodup_append'.mp stocked.nodup).1
  simp only [labels_node, List.cons_append, List.nodup_cons, List.mem_append, not_or] at distinct
  obtain ⟨⟨⟨notLeft, notRight⟩, notAbove⟩, _⟩ := distinct
  obtain ⟨⟨live, cell, left, right⟩, frames⟩ := rep_plug.mp rep
  obtain ⟨height, nodeBalanced, outer⟩ := Path.Balanced.of_plug balanced black
  have same : Path.Balanced (node a red (e.1, data) l r).isRed path height levels := outer
  obtain ⟨balanced', black'⟩ := same.plug nodeBalanced.replace
  refine ⟨rep_plug.mpr ⟨?_, ?_⟩, by simpa using root, ?_, balanced', black', by simpa using depth,
    ?_, ?_⟩
  · simp [Rep, live, cell, left, right, notLeft, notRight]
  · simpa [notAbove] using frames
  · have within : Within [a] s (s.modify a fun n => { n with data := data }) :=
      (Within.refl _ _).modify (by simp)
    exact stocked.within within (by simp) (by simp [(path.labels_plug _).mem_iff]) labels
  · simpa [Sorted, Path.inorder_plug, keyOf] using sorted
  · simpa [labels.length_eq] using count

/-- A call replied, and left the tree with new contents. -/
def Serves {α : Type} (run : RbProg α) (s : RbMachine) (tree : RbTree) (reply : α)
    (contents : Contents) : Prop :=
  ∃ s' tree' nodes levels, run s = some (reply, s') ∧ Holds s' tree' nodes levels ∧
    Binds tree'.inorder contents ∧ tree'.labels.length ≤ tree.labels.length + 1

/-- The search for a key splits the tree where the key belongs. -/
theorem Holds.split (holds : Holds s tree nodes levels) (key : Word) :
    ∃ path sub, seek (direction key) [] tree = (path, sub) ∧ tree = path.plug sub ∧
      path.Surrounds (direction key) := by
  refine ⟨_, _, rfl, by simp [plug_seek], seek_surrounds (holds.sorted.searchable key) ⟨?_, ?_⟩⟩
  · simp [Path.before]
  · simp [Path.after]

theorem Holds.locate {path : RbPath} {sub : RbTree} (holds : Holds s tree nodes levels)
    (found : seek (direction key) [] tree = (path, sub)) (nonempty : tree ≠ .nil)
    (enough : tree.height ≤ fuel) :
    s.glob.root ≠ 0 ∧ locate fuel s.glob.root key s = some (stop (path, sub), s) := by
  rw [holds.root, ← found]
  exact ⟨mt (addr_eq_zero holds.stocked.good holds.rep).mp nonempty,
    locate_apply holds.stocked.good holds.rep nonempty enough⟩

theorem key_ne_of_surrounds {path : RbPath} {e : Entry}
    (surrounds : path.Surrounds (direction key)) (member : e ∈ path.before ++ path.after) :
    e.1 ≠ key := by
  intro same
  have here := direction_eq.mpr same
  rcases List.mem_append.mp member with before | after
  · simp [surrounds.before e before] at here
  · simp [surrounds.after e after] at here

theorem Holds.search {path : RbPath} {sub : RbTree} (holds : Holds s tree nodes levels)
    (found : seek (direction key) [] tree = (path, sub)) (enough : tree.labels.length < fuel) :
    rbtSearch fuel key s = some (addr sub, s) := by
  rw [rbtSearch_apply holds.stocked.good holds.rep holds.root (holds.height_lt enough).le, found]

theorem absent_of_surrounds {contents : Contents} {path : RbPath} (surrounds : path.Surrounds (direction key))
    (binds : Binds (path.plug (.nil : RbTree)).inorder contents) :
    Binds (path.before ++ path.after) contents ∧ contents key = none := by
  have bound : Binds (path.before ++ path.after) contents := by
    simpa [Path.inorder_plug] using binds
  exact ⟨bound, bound.absent fun e => key_ne_of_surrounds surrounds⟩

theorem Holds.entry {contents : Contents} {path : RbPath} {a : Addr} {red : Bool} {e : Entry} {l r : RbTree}
    (holds : Holds s (path.plug (node a red e l r)) nodes levels)
    (binds : Binds (path.plug (node a red e l r)).inorder contents) :
    Binds ((path.before ++ l.inorder) ++ (e.1, e.2) :: (r.inorder ++ path.after)) contents ∧
      contents e.1 = some e.2 ∧
      ∀ x ∈ (path.before ++ l.inorder) ++ (r.inorder ++ path.after), x.1 ≠ e.1 := by
  have bound : Binds ((path.before ++ l.inorder) ++ (e.1, e.2) :: (r.inorder ++ path.after)) contents := by
    simpa [Path.inorder_plug] using binds
  have sorted : Sorted ((path.before ++ l.inorder) ++ e :: (r.inorder ++ path.after)) := by
    simpa [Path.inorder_plug] using holds.sorted
  exact ⟨bound, bound.present (by simp), sorted.key_ne⟩

/-- The insertion of a key that the tree does not have. -/
theorem rbtInsert_fresh {path : RbPath} {isUpdate oldData : Bool} (data : Word) (supplied : Supplied malloc s)
    (holds : Holds s (path.plug .nil) nodes levels)
    (found : seek (direction key) [] (path.plug .nil) = (path, .nil)) (surrounds : path.Surrounds (direction key))
    (valid : (isUpdate && !oldData) = false) (enough : (path.plug (.nil : RbTree)).labels.length + 1 < fuel) :
    ∃ s' tree' levels' a, rbtInsert malloc fuel key data isUpdate oldData s = some ((.ok, none), s') ∧
      Inserted s s' tree' (path.plug (.nil : RbTree)).labels nodes levels' a ∧
      tree'.inorder = path.before ++ (key, data) :: path.after := by
  have short : (path.plug (.nil : RbTree)).height ≤ fuel :=
    (path.plug (.nil : RbTree)).height_le_length_labels.trans (by omega)
  have length := (path.labels_plug (.nil : RbTree)).length_eq
  by_cases empty : path = []
  · subst empty
    obtain ⟨s', tree', levels', a, runs, inserted, inorder⟩ := insertRoot key data supplied holds (by simpa using enough)
    have root : s.glob.root = 0 := holds.root
    refine ⟨s', tree', levels', a, ?_, inserted, inorder⟩
    simpa [rbtInsert, valid, root] using runs
  · have deep : path.labels.length + 1 < fuel := by
      simp at length
      omega
    obtain ⟨s', tree', levels', a, runs, inserted, inorder⟩ :=
      insertBelow key data supplied holds empty surrounds deep
    obtain ⟨notNull, located⟩ := holds.locate found (Path.plug_ne_nil empty _) short
    refine ⟨s', tree', levels', a, ?_, inserted, inorder⟩
    simp only [rbtInsert, valid, getGlob_apply, bind_apply, andThen_some, Prog.ite_apply,
      notNull, located, stop, if_false, Bool.false_eq_true]
    exact runs

theorem rbtInsert_serves {contents : Contents} (key data : Word) (isUpdate oldData : Bool)
    (supplied : contents key = none → Supplied malloc s) (holds : Holds s tree nodes levels)
    (binds : Binds tree.inorder contents) (enough : tree.labels.length + 1 < fuel) :
    Serves (rbtInsert malloc fuel key data isUpdate oldData) s tree
      (contents.insert key data isUpdate oldData).1
      (contents.insert key data isUpdate oldData).2 := by
  by_cases invalid : (isUpdate && !oldData) = true
  · exact ⟨s, tree, nodes, levels, by simp [rbtInsert, invalid, Contents.insert], holds,
      by simpa [Contents.insert, invalid] using binds, by omega⟩
  · obtain ⟨path, sub, found, rfl, surrounds⟩ := holds.split key
    have short : (path.plug sub).height ≤ fuel :=
      (path.plug sub).height_le_length_labels.trans (by omega)
    cases sub with
    | nil =>
        obtain ⟨bound, fresh⟩ := absent_of_surrounds surrounds binds
        have spec : contents.insert key data isUpdate oldData =
            ((.ok, none), Function.update contents key (some data)) := by
          simp [Contents.insert, invalid, fresh]
        obtain ⟨s', tree', levels', a, runs, inserted, inorder⟩ :=
          rbtInsert_fresh data (supplied fresh) holds found surrounds (by simpa using invalid) enough
        rw [spec]
        refine ⟨s', tree', _, levels', runs, inserted.holds, ?_, ?_⟩
        · rw [inorder]
          exact bound.insert fresh
        · rw [inserted.labels.length_eq, List.length_cons]
    | node a red e l r =>
        obtain rfl : e.1 = key := direction_eq.mp (seek_found (congrArg Prod.snd found))
        obtain ⟨bound, present, outside⟩ := holds.entry binds
        obtain ⟨notNull, located⟩ := holds.locate found (Path.plug_node_ne_nil _ _ _ _ _ _) short
        have live := (rep_plug.mp holds.rep).1.1
        have cell := (rep_plug.mp holds.rep).1.2.1
        cases isUpdate with
        | false =>
            refine ⟨s, _, nodes, levels, ?_, holds, ?_, by omega⟩
            · simp [rbtInsert, notNull, located, stop, Contents.insert, present]
            · simpa [Contents.insert, present] using binds
        | true =>
            have old : oldData = true := by simpa using invalid
            refine ⟨_, _, nodes, levels, ?_, holds.replaceDatum data, ?_, ?_⟩
            · simp [rbtInsert, notNull, located, stop, Contents.insert, present, old, live, cell]
            · simpa [Contents.insert, present, old, Path.inorder_plug] using bound.replace outside
            · simp [length_labels_eq_length_inorder, Path.inorder_plug]

end Insert

/-!
## Removal
-/

section Remove

variable {s : RbMachine} {tree : RbTree} {nodes : List Addr} {levels fuel : Nat} {key : Word}

/-- The state of `rbt_remove` at `free`: `freed` is out of the tree. -/
structure Unlinked (s s' : RbMachine) (tree : RbTree) (freed : Addr) (used nodes : List Addr)
    (levels : Nat) : Prop where
  rep : Rep s' tree s.glob.self true
  glob : s'.glob = { s.glob with root := addr tree, depth := levels }
  stocked : Stocked s' (freed :: tree.labels) nodes
  balanced : tree.Balanced levels
  black : tree.isRed = false
  count : s.glob.count = tree.labels.length + 1
  moved : (freed :: tree.labels).Perm used
  live : s'.live = s.live
  others : s'.others = s.others

/-- What a removal leaves: one node of the tree is freed. -/
structure Removed (s s' : RbMachine) (tree' : RbTree) (used nodes : List Addr) (levels' : Nat) : Prop where
  holds : Holds s' tree' nodes levels'
  freed : ∃ a, (a :: tree'.labels).Perm used ∧ s'.live = s.live.erase a
  others : s'.others = s.others
  self : s'.glob.self = s.glob.self

theorem Unlinked.free {s' : RbMachine} {freed : Addr} {used : List Addr} (data : Option Word)
    (unlinked : Unlinked s s' tree freed used nodes levels) (sorted : Sorted tree.inorder)
    (enough : s.glob.count ≤ fuel) :
    ∃ s'', (do
        free freed
        setGlob fun tree => { tree with count := tree.count - 1 }
        let code ← finish fuel
        return (code, data) : RbProg (Code × Option Word)) s' = some ((.ok, data), s'') ∧
      Removed s s'' tree used nodes levels := by
  obtain ⟨rep, glob, stocked, balanced, black, count, moved, same, others⟩ := unlinked
  have live := stocked.live freed (by simp)
  have outside : freed ∉ tree.labels := by
    have distinct := stocked.nodup
    simp only [List.cons_append, List.nodup_cons, List.mem_append, not_or] at distinct
    exact distinct.1.1
  have holds : Holds ((s'.release freed).withGlob { s'.glob with count := s'.glob.count - 1 }) tree
      nodes levels := by
    refine ⟨?_, by simp [glob], stocked.release rfl, balanced, black, by simp [glob], sorted, ?_⟩
    · have reads := Rep.readsLabels tree s.glob.self true
      have self : s'.glob.self = s.glob.self := by rw [glob]
      rw [Machine.withGlob_glob, self]
      exact reads.withGlob.mpr ((reads.release outside).mpr rep)
    · simp [glob, count]
  refine ⟨_, ?_, holds, ⟨freed, moved, by simp [same]⟩, by simpa using others, by simp [glob]⟩
  have finishes : finish fuel _ = some (.ok, _) := holds.finish (by omega)
  simp [free_apply live stocked.good, finishes]

/-- The invariant without the order of the entries, which does not hold while
the operated node keeps the entry to remove. -/
structure Shaped (s : RbMachine) (tree : RbTree) (nodes : List Addr) (levels : Nat) : Prop where
  rep : Rep s tree s.glob.self true
  root : s.glob.root = addr tree
  stocked : Stocked s tree.labels nodes
  balanced : tree.Balanced levels
  black : tree.isRed = false
  depth : s.glob.depth = levels
  count : s.glob.count = tree.labels.length

theorem Holds.shaped (holds : Holds s tree nodes levels) : Shaped s tree nodes levels :=
  ⟨holds.rep, holds.root, holds.stocked, holds.balanced, holds.black, holds.depth, holds.count⟩

/-- A node without children is ready for the loop. -/
theorem Shaped.leaving {path : RbPath} {op : Addr} {red : Bool} {e : Entry}
    (shaped : Shaped s (path.plug (node op red e .nil .nil)) nodes levels) : Leaving s path op red .nil := by
  obtain ⟨rep, root, stocked, balanced, black, depth, count⟩ := shaped
  have top : s.glob.root = path.top op := by simpa using root
  obtain ⟨⟨live, cell, _, _⟩, frames⟩ := rep_plug.mp rep
  have labels := path.labels_plug (node op red e .nil .nil)
  refine ⟨live, ⟨e, by simpa using cell⟩, trivial, by simpa using frames, top, ?_, stocked.good, rfl⟩
  simpa using labels.nodup_iff.mp (List.nodup_append'.mp stocked.nodup).1

/-- The loop takes out a node without children. -/
theorem removeLoop_unlinks {path : RbPath} {op : Addr} {red : Bool} {e : Entry}
    (shaped : Shaped s (path.plug (node op red e .nil .nil)) nodes levels)
    (enough : path.length < fuel) :
    ∃ s' tree' freed levels', removeLoop .off fuel true op s = some (freed, s') ∧
      Unlinked s s' tree' freed (path.plug (node op red e .nil .nil)).labels nodes levels' ∧
      tree'.inorder = path.before ++ path.after := by
  have leaving := shaped.leaving
  obtain ⟨rep, root, stocked, balanced, black, depth, count⟩ := shaped
  have labels := path.labels_plug (node op red e .nil .nil)
  obtain ⟨height, opBalanced, outer⟩ := Path.Balanced.of_plug balanced black
  obtain ⟨below, empty, _, _, rfl⟩ := opBalanced.subtrees
  obtain ⟨tree', freed, higher, shrink⟩ := Shrink.exists_of_balanced path outer op .nil
  obtain ⟨lower, total, balanced', black'⟩ := shrink.balanced outer empty rfl
  obtain ⟨s', runs, rep', glob, within⟩ := removeLoop_shrink shrink enough leaving
  have moved : (freed :: tree'.labels).Perm (path.plug (node op red e .nil .nil)).labels :=
    shrink.labels.trans labels.symm
  refine ⟨s', tree', freed, lower, runs,
    ⟨rep', ?_, ?_, balanced', black', ?_, moved, within.live, within.others⟩, by simpa using shrink.inorder⟩
  · rw [glob, depth, ← total]
    simp
  · refine stocked.within within (by rw [glob]) ?_ moved
    exact fun a member => labels.symm.subset member
  · simp [count, ← moved.length_eq]

/-- `rbt_remove` where the operated node has a red link. -/
def dropRedLink (op child : Addr) : RbProg Addr := do
  swapNodeData op child
  setBlackLink op
  let o ← load op
  let last ← load o.lnode
  setLnode last.parent 0
  pure o.lnode

/-- The red child of an operated node with a red link takes its place. -/
theorem redLink_unlinks {path : RbPath} {op b : Addr} {red : Bool} {e be : Entry}
    (shaped : Shaped s (path.plug (node op red e (node b true be .nil .nil) .nil)) nodes levels) :
    ∃ s' tree', dropRedLink op b s = some (b, s') ∧
      Unlinked s s' tree' b (path.plug (node op red e (node b true be .nil .nil) .nil)).labels nodes levels ∧
      tree'.inorder = path.before ++ be :: path.after := by
  obtain ⟨rep, root, stocked, balanced, black, depth, count⟩ := shaped
  have top : s.glob.root = path.top op := by simpa using root
  obtain ⟨⟨opLive, opCell, ⟨bLive, bCell, _, _⟩, _⟩, frames⟩ := rep_plug.mp rep
  have labels := path.labels_plug (node op red e (node b true be .nil .nil) .nil)
  have distinct := labels.nodup_iff.mp (List.nodup_append'.mp stocked.nodup).1
  simp only [labels_node, labels_nil, List.nil_append, List.append_nil, List.cons_append,
    List.nodup_cons, List.mem_cons, not_or] at distinct
  have moved : (b :: (path.plug (node op red be .nil .nil)).labels).Perm
      (path.plug (node op red e (node b true be .nil .nil) .nil)).labels := by
    refine ((path.labels_plug (node op red be .nil .nil)).cons b).trans (.trans ?_ labels.symm)
    simpa using List.Perm.swap op b path.labels
  obtain ⟨height, opBalanced, outer⟩ := Path.Balanced.of_plug balanced black
  have opBalanced' : (node op red be .nil .nil : RbTree).Balanced height := by
    obtain ⟨below, redBalanced, _, _, rfl⟩ := opBalanced.subtrees
    cases redBalanced with
    | red empty _ _ _ => exact .join empty empty rfl rfl
  have outer' : Path.Balanced (node op red be .nil .nil : RbTree).isRed path height levels := outer
  obtain ⟨balanced', black'⟩ := outer'.plug opBalanced'
  refine Exists.intro ?state ⟨path.plug (node op red be .nil .nil), And.intro ?runs ?result⟩
  case runs =>
    simp [dropRedLink, setBlackLink, setLnode, opLive, bLive, opCell, bCell, distinct]
    rfl
  case result =>
    refine ⟨⟨rep_plug.mpr ⟨?_, ?_⟩, ?_, ?_, balanced', black', ?_, moved, by simp, by simp⟩,
      by simp [Path.inorder_plug]⟩
    · simp [Rep, opLive, opCell, distinct]
    · simpa [distinct] using frames
    · simp only [Machine.modify_glob, addr_plug, addr_node, ← top, ← depth]
    · refine stocked.within (?_ : Within [op, b] s _) (by simp) ?_ moved
      · apply_rules [Within.modify]
        all_goals first | exact .refl _ _ | simp
      · simp [labels.mem_iff]
    · simp [count, ← moved.length_eq]

private theorem isEmpty_middle (inner path : RbPath) (frame : Frame Addr Entry) :
    (inner ++ frame :: path).isEmpty = false := by
  simp

theorem parentOf_middle (self a : Addr) (inner path : RbPath) (side : Side) (red : Bool)
    (e e' : Entry) (sibling : RbTree) :
    parentOf self (inner ++ ⟨side, a, red, e', sibling⟩ :: path) =
      parentOf self (inner ++ ⟨side, a, red, e, sibling⟩ :: path) := by
  cases inner <;> rfl

theorem RepPath.replace (e' : Entry) {self a hole : Addr} {inner path : RbPath} {side : Side}
    {red holeRed : Bool} {e : Entry} {sibling : RbTree}
    (frames : RepPath s self (inner ++ ⟨side, a, red, e, sibling⟩ :: path) hole holeRed)
    (nodup : (inner ++ ⟨side, a, red, e, sibling⟩ :: path : RbPath).labels.Nodup) :
    RepPath (s.modify a fun n => { n with key := e'.1, data := e'.2 }) self
      (inner ++ ⟨side, a, red, e', sibling⟩ :: path) hole holeRed := by
  induction inner generalizing hole holeRed with
  | nil =>
      simp only [List.nil_append, Path.labels_cons, List.nodup_cons, List.mem_append, not_or] at nodup
      cases side with
      | left =>
          obtain ⟨live, cell, beside, above⟩ := frames
          simp [RepPath, live, cell, beside, above, nodup]
      | right =>
          obtain ⟨live, cell, beside, above⟩ := frames
          simp [RepPath, live, cell, beside, above, nodup]
  | cons frame inner ih =>
      rcases frame with ⟨frameSide, b, bRed, be, other⟩
      have member : a ∈ Path.labels (inner ++ ⟨side, a, red, e, sibling⟩ :: path) := by
        simp [Path.labels_append]
      simp only [List.cons_append, Path.labels_cons, List.nodup_cons, List.nodup_append',
        List.mem_append, not_or] at nodup
      obtain ⟨⟨notBeside, notAbove⟩, _, aboveNodup, apart⟩ := nodup
      have different : b ≠ a := fun same => notAbove (same ▸ member)
      have outside : a ∉ other.labels := fun inside => apart inside member
      rw [List.cons_append] at frames ⊢
      cases frameSide with
      | left =>
          obtain ⟨live, cell, beside, above⟩ := frames
          refine ⟨by simpa using live, ?_, (Rep.modify outside).mpr beside, ih above aboveNodup⟩
          rw [Machine.modify_cell_of_ne different, cell,
            parentOf_middle self a inner path side red e e', isEmpty_middle, isEmpty_middle]
      | right =>
          obtain ⟨live, cell, beside, above⟩ := frames
          refine ⟨by simpa using live, ?_, (Rep.modify outside).mpr beside, ih above aboveNodup⟩
          rw [Machine.modify_cell_of_ne different, cell,
            parentOf_middle self a inner path side red e e', isEmpty_middle, isEmpty_middle]

theorem RepPath.entry {self hole : Addr} {path : RbPath} {holeRed : Bool}
    (frames : RepPath s self path hole holeRed) :
    ∀ frame ∈ path, frame.label ∈ s.live ∧ (s.cell frame.label).key = frame.entry.1 ∧
      (s.cell frame.label).data = frame.entry.2 := by
  induction path generalizing hole holeRed with
  | nil => simp
  | cons frame path ih =>
      rcases frame with ⟨side, a, red, e, sibling⟩
      cases side <;>
      · obtain ⟨live, cell, _, above⟩ := frames
        simpa [live, cell] using ih above

/-- The node with the key takes the entry of its successor, whose node is then
the operated one. -/
theorem swapSuccessor {path inner : RbPath} {a o : Addr} {red oRed : Bool} {e oe : Entry}
    {l : RbTree}
    (rep : Rep s (Path.plug (inner ++ ⟨.right, a, red, e, l⟩ :: path)
      (node o oRed oe .nil .nil)) s.glob.self true)
    (nodup : (Path.plug (inner ++ ⟨.right, a, red, e, l⟩ :: path)
      (node o oRed oe .nil .nil)).labels.Nodup) :
    ∃ s', swapNodeData a o s = some ((), s') ∧
      Rep s' (Path.plug (inner ++ ⟨.right, a, red, oe, l⟩ :: path) (node o oRed e .nil .nil))
        s.glob.self true ∧
      s'.glob = s.glob ∧ Within [a, o] s s' := by
  obtain ⟨⟨oLive, oCell, _, _⟩, frames⟩ := rep_plug.mp rep
  have distinct := (Path.labels_plug _ _).nodup_iff.mp nodup
  simp only [labels_node, labels_nil, List.nil_append, List.cons_append, List.nodup_cons] at distinct
  obtain ⟨outside, above⟩ := distinct
  have member : a ∈ Path.labels (inner ++ ⟨.right, a, red, e, l⟩ :: path) := by
    simp [Path.labels_append]
  have different : a ≠ o := fun same => outside (same ▸ member)
  obtain ⟨aLive, aKey, aData⟩ := frames.entry ⟨.right, a, red, e, l⟩ (by simp)
  refine ⟨_, swapNodeData_apply aLive oLive different, rep_plug.mpr ⟨?_, ?_⟩, by simp, ?_⟩
  · rw [isEmpty_middle] at oCell
    rw [parentOf_middle _ a inner path .right red e oe, isEmpty_middle]
    simp [Rep, oLive, oCell, different, aKey, aData]
  · have same : (s.modify a fun n => { n with key := (s.cell o).key, data := (s.cell o).data }) =
        s.modify a fun n => { n with key := oe.1, data := oe.2 } := by
      rw [oCell]
    rw [same]
    exact (RepPath.modify (by simpa [Path.labels_append] using outside)).mpr
      (frames.replace oe above)
  · exact ((Within.refl _ _).modify (by simp)).modify (by simp)

/-- `rbt_remove` from the operated node on. -/
def removeOperated (fuel : Nat) (op : Addr) (data : Option Word) :
    RbProg (Code × Option Word) := do
  let o ← load op
  let freed ← (if o.hasRedLink then dropRedLink op o.lnode else removeLoop .off fuel true op)
  free freed
  setGlob fun tree => { tree with count := tree.count - 1 }
  let code ← finish fuel
  return (code, data)

private theorem removeOperated_leaf {path : RbPath} {op : Addr} {red : Bool} {e : Entry}
    (data : Option Word) (shaped : Shaped s (path.plug (node op red e .nil .nil)) nodes levels)
    (sorted : Sorted (path.before ++ path.after)) (enough : s.glob.count ≤ fuel) :
    ∃ s' tree' levels', removeOperated fuel op data s = some ((.ok, data), s') ∧
      Removed s s' tree' (path.plug (node op red e .nil .nil)).labels nodes levels' ∧
      tree'.inorder = path.before ++ path.after := by
  obtain ⟨live, cell, _⟩ := (rep_plug.mp shaped.rep).1
  have short : path.length < fuel := by
    have frames := path.length_le_length_labels
    have length := (path.labels_plug (node op red e .nil .nil)).length_eq
    have count := shaped.count
    simp only [labels_node, labels_nil, List.nil_append, List.cons_append, List.length_cons] at length
    omega
  obtain ⟨s₁, tree', freed, levels', loops, unlinked, inorder⟩ := removeLoop_unlinks shaped short
  obtain ⟨s', runs, removed⟩ := unlinked.free data (inorder ▸ sorted) enough
  refine ⟨s', tree', levels', ?_, removed, inorder⟩
  simpa [removeOperated, live, cell, loops] using runs

private theorem removeOperated_link {path : RbPath} {op b : Addr} {red : Bool} {e be : Entry}
    (data : Option Word)
    (shaped : Shaped s (path.plug (node op red e (node b true be .nil .nil) .nil)) nodes levels)
    (sorted : Sorted (path.before ++ be :: path.after)) (enough : s.glob.count ≤ fuel) :
    ∃ s' tree' levels', removeOperated fuel op data s = some ((.ok, data), s') ∧
      Removed s s' tree' (path.plug (node op red e (node b true be .nil .nil) .nil)).labels nodes levels' ∧
      tree'.inorder = path.before ++ be :: path.after := by
  obtain ⟨live, cell, _⟩ := (rep_plug.mp shaped.rep).1
  obtain ⟨s₁, tree', swaps, unlinked, inorder⟩ := redLink_unlinks shaped
  obtain ⟨s', runs, removed⟩ := unlinked.free data (inorder ▸ sorted) enough
  refine ⟨s', tree', levels, ?_, removed, inorder⟩
  simpa [removeOperated, live, cell, swaps] using runs

/-- The swap with the successor keeps the shape. -/
theorem Shaped.swapped_within {path inner : RbPath} {a o : Addr} {red oRed : Bool} {e oe : Entry}
    {l : RbTree}
    (shaped : Shaped s (Path.plug (inner ++ ⟨.right, a, red, e, l⟩ :: path)
      (node o oRed oe .nil .nil)) nodes levels) :
    ∃ s', swapNodeData a o s = some ((), s') ∧ s'.glob = s.glob ∧ Within [a, o] s s' ∧
      Shaped s' (Path.plug (inner ++ ⟨.right, a, red, oe, l⟩ :: path) (node o oRed e .nil .nil))
        nodes levels ∧
      (Path.plug (inner ++ ⟨.right, a, red, oe, l⟩ :: path) (node o oRed e .nil .nil)).labels.Perm
        (Path.plug (inner ++ ⟨.right, a, red, e, l⟩ :: path) (node o oRed oe .nil .nil)).labels := by
  obtain ⟨rep, root, stocked, balanced, black, depth, count⟩ := shaped
  obtain ⟨s', swaps, rep', glob, within⟩ := swapSuccessor rep (List.nodup_append'.mp stocked.nodup).1
  have old := Path.labels_plug (inner ++ ⟨.right, a, red, e, l⟩ :: path) (node o oRed oe .nil .nil)
  have moved : (Path.plug (inner ++ ⟨.right, a, red, oe, l⟩ :: path)
      (node o oRed e .nil .nil)).labels.Perm
      (Path.plug (inner ++ ⟨.right, a, red, e, l⟩ :: path) (node o oRed oe .nil .nil)).labels := by
    refine (Path.labels_plug _ _).trans (.trans ?_ old.symm)
    simp [Path.labels_append]
  obtain ⟨height, leaf, frames⟩ := Path.Balanced.of_plug balanced black
  obtain ⟨balanced', black'⟩ : (Path.plug (inner ++ ⟨.right, a, red, oe, l⟩ :: path)
      (node o oRed e .nil .nil)).Balanced levels ∧ _ :=
    Path.Balanced.plug (frames.replace_middle oe) leaf.replace
  refine ⟨s', swaps, glob, within, ⟨by rwa [glob], ?_, ?_, balanced', black', by rwa [glob], ?_⟩, moved⟩
  · rw [glob, root]
    simp [Path.plug_append]
  · refine stocked.within within (by rw [glob]) ?_ moved
    simp [old.mem_iff, Path.labels_append]
  · rw [glob, count, moved.length_eq]

theorem Shaped.swapped {path inner : RbPath} {a o : Addr} {red oRed : Bool} {e oe : Entry} {l : RbTree}
    (shaped : Shaped s (Path.plug (inner ++ ⟨.right, a, red, e, l⟩ :: path)
      (node o oRed oe .nil .nil)) nodes levels) :
    ∃ s', swapNodeData a o s = some ((), s') ∧ s'.glob = s.glob ∧
      Shaped s' (Path.plug (inner ++ ⟨.right, a, red, oe, l⟩ :: path) (node o oRed e .nil .nil))
        nodes levels := by
  obtain ⟨s', swaps, glob, _, shaped', _⟩ := shaped.swapped_within
  exact ⟨s', swaps, glob, shaped'⟩

/-- `rbt_remove` once the node is found. -/
def removeFound (fuel : Nat) (node rnode : Addr) (data : Option Word) :
    RbProg (Code × Option Word) := do
  let op ← (if rnode ≠ 0 then (do
      let op ← rbtFirst fuel rnode
      swapNodeData node op
      pure op)
    else pure node)
  removeOperated fuel op data

theorem rbtRemove_found {a : Addr} {out : Bool} (searched : rbtSearch fuel key s = some (a, s))
    (notNull : a ≠ 0) (live : a ∈ s.live) :
    rbtRemove fuel key out s = removeFound fuel a (s.cell a).rnode
      (if out then some (s.cell a).data else none) s := by
  simp [rbtRemove, rbtRemoveWatched, searched, notNull, live, removeFound, removeOperated, dropRedLink]

/-- The removal takes exactly the entry of the node out. -/
theorem removeFound_apply {path : RbPath} {a : Addr} {red : Bool} {e : Entry} {l r : RbTree}
    (data : Option Word) (holds : Holds s (path.plug (node a red e l r)) nodes levels)
    (enough : (path.plug (node a red e l r)).labels.length + 1 < fuel) :
    ∃ s' tree' levels', removeFound fuel a (addr r) data s = some ((.ok, data), s') ∧
      Removed s s' tree' (path.plug (node a red e l r)).labels nodes levels' ∧
      tree'.inorder = (path.before ++ l.inorder) ++ (r.inorder ++ path.after) := by
  have count : s.glob.count ≤ fuel := by
    rw [holds.count]
    omega
  have sorted : Sorted ((path.before ++ l.inorder) ++ (r.inorder ++ path.after)) := by
    refine holds.sorted.sublist ?_
    simp [Path.inorder_plug]
  obtain ⟨height, balanced, outer⟩ := Path.Balanced.of_plug holds.balanced holds.black
  obtain ⟨below, left, right, rightBlack, _⟩ := balanced.subtrees
  by_cases empty : r = .nil
  · subst empty
    cases right with
    | nil =>
        cases link : l.isRed with
        | false =>
            obtain rfl := left.nil_of_height_zero link
            obtain ⟨s', tree', levels', runs, removed, inorder⟩ :=
              removeOperated_leaf data holds.shaped (by simpa using sorted) count
            exact ⟨s', tree', levels', by simpa [removeFound] using runs, removed,
              by simpa using inorder⟩
        | true =>
            obtain ⟨b, be, bl, br, rfl, blBalanced, brBalanced, blBlack, brBlack⟩ := left.red_node link
            obtain rfl := blBalanced.nil_of_height_zero blBlack
            obtain rfl := brBalanced.nil_of_height_zero brBlack
            obtain ⟨s', tree', levels', runs, removed, inorder⟩ :=
              removeOperated_link data holds.shaped (by simpa using sorted) count
            exact ⟨s', tree', levels', by simpa [removeFound] using runs, removed,
              by simpa using inorder⟩
  · obtain ⟨⟨_, _, _, rRep⟩, _⟩ := rep_plug.mp holds.rep
    have good := holds.stocked.good
    have notNull := mt (addr_eq_zero good rRep).mp empty
    have short : r.height ≤ fuel := by
      have length := (path.labels_plug (node a red e l r)).length_eq
      simp only [labels_node, List.cons_append, List.length_cons, List.length_append] at length
      exact r.height_le_length_labels.trans (by omega)
    obtain ⟨inner, o, oRed, oe, rr, rfl, first, runs⟩ := firstLoop_apply good rRep empty short
    obtain ⟨_, leaf, _⟩ := Path.Balanced.of_plug right rightBlack
    obtain ⟨_, leafLeft, leafRight, leafRightBlack, _⟩ := leaf.subtrees
    cases leafLeft with
    | nil =>
        obtain rfl := leafRight.nil_of_height_zero leafRightBlack
        have whole : path.plug (node a red e l (inner.plug (node o oRed oe .nil .nil))) =
            Path.plug (inner ++ ⟨.right, a, red, e, l⟩ :: path) (node o oRed oe .nil .nil) := by
          simp [Path.plug_append]
        obtain ⟨s₁, swaps, glob, within, shaped, labels⟩ := (whole ▸ holds.shaped).swapped_within
        have same : (path.before ++ l.inorder) ++ ((inner.plug (node o oRed oe .nil .nil)).inorder ++
            path.after) = Path.before (inner ++ ⟨.right, a, red, oe, l⟩ :: path) ++
              Path.after (inner ++ ⟨.right, a, red, oe, l⟩ :: path) := by
          simp [Path.before_append, Path.after_append, Path.inorder_plug, Path.before, Path.after,
            first]
        obtain ⟨s', tree', levels', removes, ⟨holds', ⟨freed, moved, live⟩, others, self⟩, inorder⟩ :=
          removeOperated_leaf data shaped (same ▸ sorted) (by rwa [glob])
        refine ⟨s', tree', levels', ?_, ⟨holds', ⟨freed, moved.trans (whole ▸ labels), live.trans (by rw [within.live])⟩,
          others.trans within.others, by rw [self, glob]⟩, by rw [same, inorder]⟩
        simp [-addr_plug, removeFound, notNull, rbtFirst, runs, swaps, removes]

theorem rbtRemove_serves {contents : Contents} (holds : Holds s tree nodes levels)
    (binds : Binds tree.inorder contents) (enough : tree.labels.length + 1 < fuel) (key : Word)
    (out : Bool) :
    Serves (rbtRemove fuel key out) s tree (contents.remove key out).1
      (contents.remove key out).2 := by
  obtain ⟨path, sub, found, rfl, surrounds⟩ := holds.split key
  have searched : rbtSearch fuel key s = some (addr sub, s) := holds.search found (by omega)
  cases sub with
  | nil =>
      obtain ⟨bound, fresh⟩ := absent_of_surrounds surrounds binds
      refine ⟨s, _, nodes, levels, ?_, holds, ?_, by omega⟩
      · simp [rbtRemove, rbtRemoveWatched, searched, Contents.remove, fresh]
      · simpa [Contents.remove, fresh] using binds
  | node a red e l r =>
      obtain rfl : e.1 = key := direction_eq.mp (seek_found (congrArg Prod.snd found))
      obtain ⟨bound, present, outside⟩ := holds.entry binds
      obtain ⟨⟨live, cell, _⟩, _⟩ := rep_plug.mp holds.rep
      have notNull : a ≠ 0 := fun null => holds.stocked.good (null ▸ live)
      obtain ⟨s', tree', levels', runs, removed, inorder⟩ :=
        removeFound_apply (if out then some e.2 else none) holds enough
      refine ⟨s', tree', nodes, levels', ?_, removed.holds, ?_, ?_⟩
      · simpa [rbtRemove_found searched notNull live, cell, Contents.remove, present] using runs
      · rw [inorder]
        simpa [Contents.remove, present] using bound.erase outside
      · simp only [length_labels_eq_length_inorder, inorder, Path.inorder_plug, inorder_node,
          List.length_append, List.length_cons]
        omega

end Remove

end GbfLibrary.Rbtree
