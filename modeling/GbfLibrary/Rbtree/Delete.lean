import GbfLibrary.Rbtree.Failures

/-!
# What a tree leaves behind

`rbt_delete_tree` frees the nodes of the tree and the header. The nodes that wait in the
pool are nobody's then.
-/

set_option autoImplicit false

namespace GbfLibrary.Rbtree

open Memory Prog Trees ColoredTree Maps

/-- `delete_sub_tree`. -/
def deleteSubTree : Nat → Addr → RbProg Unit
  | 0, _ => fault
  | fuel + 1, root => do
    let node ← load root
    if node.lnode ≠ 0 then deleteSubTree fuel node.lnode else pure ()
    let node ← load root
    if node.rnode ≠ 0 then deleteSubTree fuel node.rnode else pure ()
    free root

/-- `rbt_delete_tree` of a tree that is not null. -/
def rbtDeleteTree (fuel : Nat) : RbProg Unit := do
  let tree ← getGlob
  if tree.root ≠ 0 then deleteSubTree fuel tree.root else pure ()
  freeOther tree.self

/-!
## Freeing a list of nodes
-/

/-- The state after these nodes were freed. -/
def without (s : RbMachine) (addrs : List Addr) : RbMachine := { s with live := s.live \ addrs.toFinset }

section Without

variable {s : RbMachine} {addrs more : List Addr} {a : Addr}

@[simp] theorem without_glob (s : RbMachine) (addrs : List Addr) : (without s addrs).glob = s.glob := rfl

@[simp] theorem without_others (s : RbMachine) (addrs : List Addr) : (without s addrs).others = s.others := rfl

@[simp] theorem without_cell (s : RbMachine) (addrs : List Addr) : (without s addrs).cell = s.cell := rfl

private theorem mem_without : a ∈ (without s addrs).live ↔ a ∈ s.live ∧ a ∉ addrs := by
  simp [without]

private theorem without_nil (s : RbMachine) : without s [] = s := by
  simp [without]

private theorem without_without (s : RbMachine) (addrs more : List Addr) :
    without (without s addrs) more = without s (addrs ++ more) := by
  simp [without, sdiff_sdiff]

private theorem without_release (s : RbMachine) (addrs : List Addr) (a : Addr) :
    (without s addrs).release a = without s (a :: addrs) := by
  simp [without, Machine.release, Finset.sdiff_insert]

private theorem without_perm (moved : addrs.Perm more) : without s addrs = without s more := by
  have same : addrs.toFinset = more.toFinset := List.toFinset_eq_of_perm _ _ moved
  rw [without, without, same]

theorem AgreeOn.without (apart : more.Disjoint addrs) : AgreeOn more s (without s addrs) := by
  intro a member
  have outside : a ∉ addrs := fun inside => apart member inside
  simp [mem_without, outside]

end Without

theorem ite_andThen {α : Type} {c : Prop} [Decidable c] {walk : RbProg Unit} {next : RbProg α} {s s' : RbMachine}
    (walks : c → walk s = some ((), s')) (skips : ¬ c → s' = s) :
    (if c then walk >>= fun _ => next else next) s = next s' := by
  by_cases here : c
  · rw [if_pos here, bind_apply, walks here, andThen_some]
  · rw [if_neg here, skips here]

section Deletion

variable {s : RbMachine} {tree : RbTree} {nodes : List Addr} {parent : Addr} {root : Bool} {levels fuel : Nat}

/-- `delete_sub_tree` frees the nodes of the tree, each of them once. -/
theorem deleteSubTree_apply (good : 0 ∉ s.live) (rep : Rep s tree parent root) (nodup : tree.labels.Nodup)
    (nonempty : tree ≠ .nil) (enough : tree.height ≤ fuel) :
    deleteSubTree fuel (addr tree) s = some ((), without s tree.labels) := by
  induction tree generalizing s parent root fuel with
  | nil => exact absurd rfl nonempty
  | node a red e l r leftIH rightIH =>
      obtain ⟨live, cell, left, right⟩ := rep
      simp only [labels_node, List.nodup_cons, List.nodup_append', List.mem_append, not_or] at nodup
      obtain ⟨⟨notLeft, notRight⟩, leftNodup, rightNodup, apart⟩ := nodup
      simp only [height] at enough
      obtain ⟨fuel, rfl⟩ : ∃ more, fuel = more + 1 := ⟨fuel - 1, by omega⟩
      let s₁ := without s l.labels
      have good₁ : 0 ∉ s₁.live := fun inside => good (mem_without.mp inside).1
      have live₁ : a ∈ s₁.live := mem_without.mpr ⟨live, notLeft⟩
      have right₁ : Rep s₁ r a false := (Rep.readsLabels r a false s s₁ (AgreeOn.without apart.symm)).mp right
      have goesLeft : addr l ≠ 0 → deleteSubTree fuel (addr l) s = some ((), s₁) := fun leftNotNull =>
        leftIH good left leftNodup (fun empty => leftNotNull (congrArg addr empty)) (by omega)
      have noLeft : ¬ addr l ≠ 0 → s₁ = s := fun leftNull => by
        have empty : l = .nil := (addr_eq_zero good left).mp (not_not.mp leftNull)
        simp [s₁, empty, without_nil]
      have goesRight : addr r ≠ 0 → deleteSubTree fuel (addr r) s₁ = some ((), without s₁ r.labels) :=
        fun rightNotNull =>
          rightIH good₁ right₁ rightNodup (fun empty => rightNotNull (congrArg addr empty)) (by omega)
      have noRight : ¬ addr r ≠ 0 → without s₁ r.labels = s₁ := fun rightNull => by
        have empty : r = .nil := (addr_eq_zero good₁ right₁).mp (not_not.mp rightNull)
        simp [empty, without_nil]
      have last : a ∈ (without s₁ r.labels).live := mem_without.mpr ⟨live₁, notRight⟩
      have goodLast : 0 ∉ (without s₁ r.labels).live := fun inside => good₁ (mem_without.mp inside).1
      have cell₁ : s₁.cell a = s.cell a := rfl
      rw [addr_node, deleteSubTree, bind_apply, load_apply live, andThen_some, cell]
      refine (ite_andThen goesLeft noLeft).trans ?_
      rw [bind_apply, load_apply live₁, andThen_some, cell₁, cell]
      refine (ite_andThen goesRight noRight).trans ?_
      rw [free_apply last goodLast, without_release, without_without, labels_node,
        without_perm List.perm_middle]

private theorem rbtDeleteTree_apply (holds : Holds s tree nodes levels) (header : s.glob.self ∈ s.others)
    (notNull : s.glob.self ≠ 0) (enough : tree.height ≤ fuel) :
    rbtDeleteTree fuel s =
      some ((), { without s tree.labels with others := s.others.erase s.glob.self }) := by
  have nodup := (List.nodup_append'.mp holds.stocked.nodup).1
  have frees : s.glob.root ≠ 0 → deleteSubTree fuel s.glob.root s = some ((), without s tree.labels) := by
    rw [holds.root]
    exact fun notNull => deleteSubTree_apply holds.stocked.good holds.rep nodup
      (fun empty => notNull (congrArg addr empty)) enough
  have nothing : ¬ s.glob.root ≠ 0 → without s tree.labels = s := fun null => by
    have empty : tree = .nil := (addr_eq_zero holds.stocked.good holds.rep).mp (holds.root ▸ not_not.mp null)
    simp [empty, without_nil]
  have self : s.glob.self ∈ (without s tree.labels).others := header
  rw [rbtDeleteTree, bind_apply, getGlob_apply, andThen_some]
  refine (ite_andThen frees nothing).trans ?_
  rw [freeOther, if_neg notNull, if_pos self]
  rfl

end Deletion

/-!
## What a failed creation leaves
-/

section Creation

variable {malloc : Malloc} {s : RbMachine} {nodes : List Addr} {fuel : Nat}

private theorem freePool_apply (stocked : Stocked s [] nodes) (enough : nodes.length < fuel) :
    ∃ s', freePool fuel s = some ((), s') ∧ s'.live = s.live \ nodes.toFinset ∧ s'.others = s.others ∧
      s'.glob.self = s.glob.self := by
  induction nodes generalizing s fuel with
  | nil =>
      obtain ⟨fuel, rfl⟩ : ∃ more, fuel = more + 1 := ⟨fuel - 1, by simp at enough; omega⟩
      have empty : s.glob.pool = 0 := stocked.spare
      exact ⟨s, by simp [freePool, empty], by simp, rfl, rfl⟩
  | cons a rest ih =>
      simp only [List.length_cons] at enough
      obtain ⟨fuel, rfl⟩ : ∃ more, fuel = more + 1 := ⟨fuel - 1, by omega⟩
      obtain ⟨⟨here, present, next, cell, beyond⟩, nodup, _, good⟩ := stocked
      simp only [List.nil_append, List.nodup_cons] at nodup
      have notNull : a ≠ 0 := fun null => good (null ▸ present)
      let s₁ := (s.withGlob { s.glob with pool := next }).release a
      have stocked₁ : Stocked s₁ [] rest := by
        refine ⟨?_, by simpa using nodup.2, by simp, by simpa [s₁] using fun _ => good⟩
        have reads := PoolRep.readsNodes rest next
        exact (reads.release nodup.1).mpr (reads.withGlob.mpr beyond)
      obtain ⟨s', runs, live, others, self⟩ := ih stocked₁ (show rest.length < fuel by omega)
      refine ⟨s', ?_, ?_, others, self⟩
      · rw [← runs]
        simp [freePool, here, notNull, present, cell, free, s₁]
      · rw [live]
        simp [s₁, Finset.erase_sdiff_comm, Finset.sdiff_insert]

/-- The nodes in the pool are all that `fillPool` allocated, whether it could go on or not. -/
theorem fillPool_exact (malloc : Malloc) (left : Nat) (stocked : Stocked s [] nodes) :
    ∃ filled s' more, fillPool malloc left s = some (filled, s') ∧ Stocked s' [] (more ++ nodes) ∧
      s'.glob = { s.glob with pool := s'.glob.pool } ∧ s'.live = s.live ∪ more.toFinset ∧ s'.others = s.others ∧
      (∀ a ∈ more, a ∉ s.live) ∧ more.length ≤ left ∧ (filled = true → more.length = left) := by
  induction left generalizing s nodes with
  | zero => exact ⟨true, s, [], rfl, stocked, rfl, by simp, rfl, by simp, le_refl _, fun _ => rfl⟩
  | succ left ih =>
      cases pick : malloc.pick (s.live ∪ s.others) s.callocs with
      | none =>
          refine ⟨false, s.miss, [], ?_, ?_, rfl, by simp, rfl, by simp, by simp, by simp⟩
          · simp [fillPool, calloc_none Node.zero pick]
          · obtain ⟨spare, nodup, live, good⟩ := stocked
            exact ⟨(PoolRep.readsNodes nodes _ s s.miss .miss).mp spare, nodup, live, good⟩
      | some a =>
          obtain ⟨s₁, step, stocked₁, glob₁, live₁, others₁⟩ := stocked.added_exact pick left
          obtain ⟨filled, s', more, fills, stocked', glob', live', others', fresh, short, full⟩ := ih stocked₁
          have outside : a ∉ s.live := fun member =>
            (malloc.fresh _ _ _ pick).2 (Finset.mem_union_left _ member)
          refine ⟨filled, s', more ++ [a], step.trans fills, by simpa using stocked', ?_, ?_, others'.trans others₁, ?_,
            by simpa using short, fun done => by simpa using full done⟩
          · rw [glob', glob₁]
          · rw [live', live₁]
            ext b
            simp
          · intro b member
            rcases List.mem_append.mp member with inside | last
            · exact fun old => fresh b inside (live₁ ▸ Finset.mem_insert_of_mem old)
            · rwa [List.mem_singleton.mp last]

/-- The nodes of the tree and of its pool are what was allocated since `start`. -/
structure Owned (start s : RbMachine) (tree : RbTree) (nodes : List Addr) : Prop where
  live : s.live = start.live ∪ (tree.labels ++ nodes).toFinset
  apart : ∀ a ∈ tree.labels ++ nodes, a ∉ start.live
  others : s.others = insert s.glob.self start.others
  header : s.glob.self ∉ start.others
  notNull : s.glob.self ≠ 0

/-- The same objects, with the same owner. -/
structure SameHeap (s s' : RbMachine) : Prop where
  live : s'.live = s.live
  others : s'.others = s.others

/-- A creation returns a tree with its nodes in the pool, or it returns an error and has freed all. -/
theorem rbtNewTree_exact (malloc : Malloc) (start : RbMachine) (good : 0 ∉ start.live) (poolSize : Nat) (mode : Word) :
    ∃ code s, rbtNewTree malloc true poolSize mode start = some (code, s) ∧
      (code ≠ .ok → code = .noMemory ∧ SameHeap start s) ∧
      (code = .ok → ∃ nodes, Holds s .nil nodes 0 ∧ Owned start s .nil nodes ∧ nodes.length = poolSize) := by
  cases pick : malloc.pick (start.live ∪ start.others) start.callocs with
  | none =>
      refine ⟨.noMemory, start.miss, ?_, fun _ => ⟨rfl, rfl, rfl⟩, fun ok => by cases ok⟩
      simp [rbtNewTree, callocOther, pick, Machine.miss]
  | some self =>
      obtain ⟨notNull, unused⟩ := malloc.fresh _ _ _ pick
      have header : self ∉ start.others := fun member => unused (Finset.mem_union_right _ member)
      let s₁ : RbMachine := { start with others := insert self start.others, callocs := start.callocs + 1 }
      have runs : callocOther malloc start = some (self, s₁) := by simp [callocOther, pick, s₁]
      let fresh : Header := { Header.zero with self := self, poolSize := poolSize }
      have empty : Stocked (s₁.withGlob fresh) [] [] := newHeader_stocked good rfl
      obtain ⟨filled, s₂, nodes, fills, stocked, glob₂, live₂, others₂, apart, short, full⟩ :=
        fillPool_exact malloc poolSize empty
      rw [List.append_nil] at stocked
      have disjoint : ∀ a ∈ nodes, a ∉ start.live := apart
      have self₂ : s₂.glob.self = self := by rw [glob₂]; rfl
      cases filled with
      | true =>
          refine ⟨.ok, s₂.withGlob { s₂.glob with mode := mode }, ?_, fun not => absurd rfl not, fun _ =>
            ⟨nodes, stocked.emptyTree glob₂, ⟨?_, ?_, ?_, ?_, ?_⟩, full rfl⟩⟩
          · simp [rbtNewTree, runs, notNull, fresh] at fills ⊢
            simp [fills]
          · simpa using live₂
          · simpa using disjoint
          · simpa [self₂] using others₂
          · simpa [self₂] using header
          · simpa [self₂] using notNull
      | false =>
          obtain ⟨s₃, frees, live₃, others₃, self₃⟩ := freePool_apply stocked (show nodes.length < poolSize + 1 by omega)
          have present : self ∈ s₃.others := by
            rw [others₃, others₂]
            exact Finset.mem_insert_self ..
          refine ⟨.noMemory, { s₃ with others := s₃.others.erase self }, ?_, fun _ => ⟨rfl, ?_, ?_⟩,
            fun ok => by cases ok⟩
          · simp [rbtNewTree, runs, notNull, fresh] at fills ⊢
            simp [fills, frees, freeOther, notNull, present]
          · show s₃.live = start.live
            rw [live₃, live₂]
            refine Finset.union_sdiff_cancel_right (Finset.disjoint_left.mpr fun a old new => ?_)
            exact disjoint a (List.mem_toFinset.mp new) old
          · show s₃.others.erase self = start.others
            rw [others₃, others₂]
            exact Finset.erase_insert header

end Creation

/-!
## Calls
-/

/-- The reply to the insertion of a key that was not there. -/
def Reply.isNew (reply : Reply) : Bool := reply == .inserted .ok none

section Calls

variable {malloc : Malloc} {start s s' : RbMachine} {tree tree' : RbTree} {nodes : List Addr} {levels levels' fuel : Nat}
  {a : Addr}

theorem Owned.inserted (owned : Owned start s tree nodes) (inserted : Inserted s s' tree' tree.labels nodes levels' a) :
    Owned start s' tree' nodes.tail := by
  obtain ⟨live, apart, others, header, notNull⟩ := owned
  obtain ⟨holds, labels, front, live', others', self⟩ := inserted
  have known : ∀ b, b ∈ tree'.labels ++ nodes.tail ↔ b = a ∨ b ∈ tree.labels ++ nodes := by
    intro b
    rcases front with pooled | ⟨rfl, _⟩
    · rw [pooled, List.tail_cons]
      simp only [List.mem_append, labels.mem_iff, List.mem_cons]
      tauto
    · simp [labels.mem_iff]
  have outside : a ∉ start.live := by
    rcases front with pooled | ⟨_, fresh⟩
    · have first : a ∈ nodes := by
        rw [pooled]
        exact List.mem_cons_self
      exact apart a (List.mem_append_right _ first)
    · exact fun old => fresh (live ▸ Finset.mem_union_left _ old)
  refine ⟨?_, fun b member => ?_, by rw [others', others, self], self ▸ header, self ▸ notNull⟩
  · ext b
    rw [live', live]
    simp only [Finset.mem_insert, Finset.mem_union, List.mem_toFinset, known]
    tauto
  · rcases (known b).mp member with rfl | old
    · exact outside
    · exact apart b old

theorem Owned.removed (holds : Holds s tree nodes levels) (owned : Owned start s tree nodes)
    (removed : Removed s s' tree' tree.labels nodes levels') : Owned start s' tree' nodes := by
  obtain ⟨live, apart, others, header, notNull⟩ := owned
  obtain ⟨_, ⟨a, moved, live'⟩, others', self⟩ := removed
  have known : ∀ b, b ∈ tree.labels ++ nodes ↔ b = a ∨ b ∈ tree'.labels ++ nodes := by
    intro b
    simp only [List.mem_append, ← moved.mem_iff, List.mem_cons, or_assoc]
  have distinct : (a :: (tree'.labels ++ nodes)).Nodup :=
    (moved.append_right nodes).nodup_iff.mpr holds.stocked.nodup
  have gone := (List.nodup_cons.mp distinct).1
  have outside : a ∉ start.live := apart a ((known a).mpr (.inl rfl))
  refine ⟨?_, fun b member => apart b ((known b).mpr (.inr member)), by rw [others', others, self], self ▸ header,
    self ▸ notNull⟩
  ext b
  rw [live', live]
  simp only [Finset.mem_erase, Finset.mem_union, List.mem_toFinset, known]
  by_cases same : b = a
  · subst same
    simp [outside, gone]
  · simp [same]

/-- A call that allocates and frees nothing. -/
theorem Owned.sameHeap (owned : Owned start s tree nodes) (same : SameHeap s s') (self : s'.glob.self = s.glob.self)
    (labels : tree'.labels.Perm tree.labels) : Owned start s' tree' nodes := by
  obtain ⟨live, apart, others, header, notNull⟩ := owned
  have known : ∀ b, b ∈ tree'.labels ++ nodes ↔ b ∈ tree.labels ++ nodes :=
    fun b => (labels.append_right nodes).mem_iff
  refine ⟨?_, fun b member => apart b ((known b).mp member), by rw [same.others, others, self], self ▸ header,
    self ▸ notNull⟩
  ext b
  rw [same.live, live]
  simp only [Finset.mem_union, List.mem_toFinset, known]

/-- What every call leaves: the tree and the pool own all that was allocated, and each new key took a node of the
pool while there was one. -/
def Leaves (start : RbMachine) (tree : RbTree) (nodes : List Addr) (isNew : Bool) (s' : RbMachine) : Prop :=
  ∃ tree' nodes' levels', Holds s' tree' nodes' levels' ∧ Owned start s' tree' nodes' ∧
    tree'.labels.length ≤ tree.labels.length + 1 ∧ nodes'.length = nodes.length - (if isNew then 1 else 0)

/-- A call that changes neither the tree nor the pool. -/
theorem Leaves.same {isNew : Bool} (holds : Holds s' tree nodes levels) (owned : Owned start s tree nodes)
    (same : SameHeap s s') (self : s'.glob.self = s.glob.self) (notNew : isNew = true → nodes = []) :
    Leaves start tree nodes isNew s' := by
  refine ⟨tree, nodes, levels, holds, owned.sameHeap same self (.refl _), by omega, ?_⟩
  cases isNew with
  | true => simp [notNew rfl]
  | false => simp

theorem PoolRep.eq_nil (good : 0 ∉ s.live) (rep : PoolRep s nodes 0) : nodes = [] := by
  cases nodes with
  | nil => rfl
  | cons a rest => exact absurd (rep.1 ▸ rep.2.1) good

/-- A node that cannot be had leaves nothing in the pool. -/
theorem Holds.pool_nil (holds : Holds s tree nodes levels) (unsupplied : ¬ Supplied malloc s) : nodes = [] := by
  simp only [Supplied, not_or, not_not] at unsupplied
  exact PoolRep.eq_nil holds.stocked.good (unsupplied.1 ▸ holds.stocked.spare)

theorem rbtInsert_leaves (malloc : Malloc) (holds : Holds s tree nodes levels) (owned : Owned start s tree nodes)
    (enough : tree.labels.length + 1 < fuel) (key data : Word) (isUpdate oldData : Bool) :
    ∃ code old s', rbtInsert malloc fuel key data isUpdate oldData s = some ((code, old), s') ∧
      Leaves start tree nodes (Reply.inserted code old).isNew s' := by
  cases valid : isUpdate && !oldData with
  | true =>
      exact ⟨.invParam, none, s, rbtInsert_invalid valid, .same holds owned ⟨rfl, rfl⟩ rfl (by simp [Reply.isNew])⟩
  | false =>
      obtain ⟨path, sub, found, rfl, surrounds⟩ := holds.split key
      cases sub with
      | nil =>
          by_cases supplied : Supplied malloc s
          · obtain ⟨s', tree', levels', a, runs, inserted, _⟩ :=
              rbtInsert_fresh data supplied holds found surrounds valid enough
            refine ⟨.ok, none, s', runs, tree', nodes.tail, levels', inserted.holds, owned.inserted inserted, ?_, ?_⟩
            · rw [inserted.labels.length_eq, List.length_cons]
            · simp [Reply.isNew]
          · have none_left : nodes = [] := holds.pool_nil supplied
            have kept : Holds s.miss (path.plug .nil) nodes levels := holds.unchanged (.miss s)
            have inside : (path.plug (.nil : RbTree)).labels.length < fuel := by omega
            by_cases unrooted : s.glob.root = 0
            · exact ⟨.ok, none, s.miss, rbtInsert_noRoot valid ⟨unrooted, supplied⟩ (by omega),
                .same kept owned ⟨rfl, rfl⟩ rfl fun _ => none_left⟩
            · have absent : ∀ datum, (key, datum) ∉ (path.plug (.nil : RbTree)).inorder := by
                intro datum member
                have outside : (key, datum) ∈ path.before ++ path.after := by
                  simpa [Path.inorder_plug] using member
                exact absurd rfl (key_ne_of_surrounds surrounds outside)
              exact ⟨.noMemory, none, s.miss, rbtInsert_noNode valid holds inside absent supplied unrooted,
                .same kept owned ⟨rfl, rfl⟩ rfl fun _ => none_left⟩
      | node a red e l r =>
          obtain rfl : e.1 = key := direction_eq.mp (seek_found (congrArg Prod.snd found))
          have short : (path.plug (node a red e l r)).height ≤ fuel :=
            (path.plug (node a red e l r)).height_le_length_labels.trans (by omega)
          obtain ⟨notNull, located⟩ := holds.locate found (Path.plug_node_ne_nil _ _ _ _ _ _) short
          have live := (rep_plug.mp holds.rep).1.1
          cases isUpdate with
          | false =>
              refine ⟨.alreadyExist, none, s, by simp [rbtInsert, notNull, located, stop],
                .same holds owned ⟨rfl, rfl⟩ rfl (by simp [Reply.isNew])⟩
          | true =>
              have old : oldData = true := by simpa using valid
              have labels : (path.plug (node a red (e.1, data) l r)).labels.Perm (path.plug (node a red e l r)).labels :=
                (path.labels_plug (node a red (e.1, data) l r)).trans (path.labels_plug (node a red e l r)).symm
              refine ⟨.ok, some (s.cell a).data, s.modify a fun n => { n with data := data }, ?_,
                path.plug (node a red (e.1, data) l r), nodes, levels, holds.replaceDatum data,
                owned.sameHeap ⟨by simp, by simp⟩ (by simp) labels, ?_, ?_⟩
              · simp [rbtInsert, notNull, located, stop, old, live]
              · rw [labels.length_eq]
                omega
              · simp [Reply.isNew]

private theorem rbtRemove_leaves (holds : Holds s tree nodes levels) (owned : Owned start s tree nodes)
    (enough : tree.labels.length + 1 < fuel) (key : Word) (out : Bool) :
    ∃ code data s', rbtRemove fuel key out s = some ((code, data), s') ∧ Leaves start tree nodes false s' := by
  obtain ⟨path, sub, found, rfl, surrounds⟩ := holds.split key
  have searched : rbtSearch fuel key s = some (addr sub, s) := holds.search found (by omega)
  cases sub with
  | nil =>
      exact ⟨.notFound, none, s, by simp [rbtRemove, rbtRemoveWatched, searched], .same holds owned ⟨rfl, rfl⟩ rfl (by simp)⟩
  | node a red e l r =>
      obtain ⟨⟨live, cell, _⟩, _⟩ := rep_plug.mp holds.rep
      have notNull : a ≠ 0 := fun null => holds.stocked.good (null ▸ live)
      obtain ⟨s', tree', levels', runs, removed, _⟩ :=
        removeFound_apply (if out then some (s.cell a).data else none) holds enough
      obtain ⟨freed, moved, _⟩ := removed.freed
      have shorter := moved.length_eq
      rw [List.length_cons] at shorter
      refine ⟨.ok, if out then some (s.cell a).data else none, s', ?_, tree', nodes, levels', removed.holds, owned.removed holds removed, by omega, by simp⟩
      rw [rbtRemove_found searched notNull live, cell]
      simpa [cell] using runs

private theorem Call.run_leaves (malloc : Malloc) (holds : Holds s tree nodes levels) (owned : Owned start s tree nodes)
    (enough : tree.labels.length + 1 < fuel) (call : Call) :
    ∃ reply s', call.run malloc fuel s = some (reply, s') ∧ Leaves start tree nodes reply.isNew s' := by
  cases call with
  | insert key data isUpdate oldData =>
      obtain ⟨code, old, s', runs, leaves⟩ := rbtInsert_leaves malloc holds owned enough key data isUpdate oldData
      exact ⟨.inserted code old, s', by simp [Call.run, runs], leaves⟩
  | remove key out =>
      obtain ⟨code, data, s', runs, leaves⟩ := rbtRemove_leaves holds owned enough key out
      exact ⟨.removed code data, s', by simp [Call.run, runs], leaves⟩
  | search key =>
      obtain ⟨path, sub, found, rfl, _⟩ := holds.split key
      have searched : rbtSearch fuel key s = some (addr sub, s) := holds.search found (by omega)
      have same : ∀ reply, Reply.isNew (.searched reply) = true → nodes = [] := fun reply new => by
        simp [Reply.isNew] at new
      cases sub with
      | nil =>
          exact ⟨.searched none, s, by simp [Call.run, searched], .same holds owned ⟨rfl, rfl⟩ rfl (same _)⟩
      | node a red e l r =>
          have live := (rep_plug.mp holds.rep).1.1
          have notNull : a ≠ 0 := fun null => holds.stocked.good (null ▸ live)
          refine ⟨.searched (some ((s.cell a).key, (s.cell a).data)), s, ?_,
            .same holds owned ⟨rfl, rfl⟩ rfl (same _)⟩
          simp [Call.run, searched, notNull, live]

private theorem runCalls_owned (malloc : Malloc) (calls : List Call) (holds : Holds s tree nodes levels)
    (owned : Owned start s tree nodes) (enough : tree.labels.length + calls.length < fuel) :
    ∃ replies s' tree' nodes' levels', runCalls malloc fuel calls s = some (replies, s') ∧
      Holds s' tree' nodes' levels' ∧ Owned start s' tree' nodes' ∧
      tree'.labels.length ≤ tree.labels.length + calls.length ∧
      nodes'.length = nodes.length - replies.countP Reply.isNew := by
  induction calls generalizing s tree nodes levels with
  | nil => exact ⟨[], s, tree, nodes, levels, rfl, holds, owned, le_refl _, rfl⟩
  | cons call calls ih =>
      simp only [List.length_cons] at enough
      have inside : tree.labels.length + 1 < fuel := by omega
      obtain ⟨reply, s₁, first, tree₁, nodes₁, levels₁, holds₁, owned₁, longer, fewer⟩ :=
        call.run_leaves malloc holds owned inside
      obtain ⟨replies, s', tree', nodes', levels', rest, holds', owned', total, left⟩ := ih holds₁ owned₁ (by omega)
      refine ⟨reply :: replies, s', tree', nodes', levels', by simp [runCalls, first, rest], holds', owned', ?_, ?_⟩
      · rw [List.length_cons]
        omega
      · rw [left, fewer, List.countP_cons]
        omega

end Calls

/-- A tree that is created, used and deleted, whatever the allocations do: its header and all its nodes are freed, and
what is left is the nodes that wait in its pool, those that no new key used up. -/
theorem rbtDeleteTree_leaves (malloc : Malloc) (start : RbMachine) (good : 0 ∉ start.live) (poolSize : Nat)
    (mode : Word) (calls : List Call) (fuel : Nat) (enough : calls.length < fuel) :
    ∃ code s, rbtNewTree malloc true poolSize mode start = some (code, s) ∧
      (code ≠ .ok → s.live = start.live ∧ s.others = start.others) ∧
      (code = .ok → ∃ replies used tree pool levels s',
        runCalls malloc fuel calls s = some (replies, used) ∧ Holds used tree pool levels ∧
        rbtDeleteTree fuel used = some ((), s') ∧
        used.glob.self ∉ start.others ∧ used.others = insert used.glob.self start.others ∧
        s'.others = start.others ∧ (∀ a ∈ tree.labels, a ∈ used.live ∧ a ∉ s'.live) ∧
        s'.live = start.live ∪ pool.toFinset ∧ Disjoint start.live pool.toFinset ∧ pool.Nodup ∧
        pool.length = poolSize - replies.countP Reply.isNew) := by
  obtain ⟨code, s, creates, fails, succeeds⟩ := rbtNewTree_exact malloc start good poolSize mode
  refine ⟨code, s, creates, fun not => ⟨(fails not).2.live, (fails not).2.others⟩, fun ok => ?_⟩
  obtain ⟨nodes, holds, owned, full⟩ := succeeds ok
  obtain ⟨replies, used, tree, pool, levels, runs, holds', owned', total, fewer⟩ :=
    runCalls_owned malloc calls holds owned (by simpa using enough)
  obtain ⟨live, apart, others, header, notNull⟩ := owned'
  obtain ⟨_, nodup, disjoint⟩ := List.nodup_append'.mp holds'.stocked.nodup
  have short : tree.height ≤ fuel := by
    have := tree.height_le_length_labels
    rw [labels_nil, List.length_nil] at total
    omega
  have deletes := rbtDeleteTree_apply holds' (others ▸ Finset.mem_insert_self ..) notNull short
  have outside : ∀ a ∈ tree.labels, a ∉ start.live := fun a inTree => apart a (List.mem_append_left _ inTree)
  have left : used.live \ tree.labels.toFinset = start.live ∪ pool.toFinset := by
    rw [live]
    ext a
    simp only [Finset.mem_sdiff, Finset.mem_union, List.mem_toFinset, List.mem_append]
    have inPool : a ∈ tree.labels → a ∉ pool := fun inTree member => disjoint inTree member
    have before := outside a
    tauto
  refine ⟨replies, used, tree, pool, levels, _, runs, holds', deletes, header, others, ?_, ?_, left, ?_, nodup, ?_⟩
  · show used.others.erase used.glob.self = start.others
    rw [others]
    exact Finset.erase_insert header
  · intro a inTree
    constructor
    · rw [live]
      exact Finset.mem_union_right _ (List.mem_toFinset.mpr (List.mem_append_left _ inTree))
    · exact fun there => (Finset.mem_sdiff.mp there).2 (List.mem_toFinset.mpr inTree)
  · refine Finset.disjoint_left.mpr fun a old member => ?_
    exact apart a (List.mem_append_right _ (List.mem_toFinset.mp member)) old
  · rw [fewer, full]

theorem rbtDeleteTree_leaves_two :
    ∃ code s, rbtNewTree .bump true 3 0 emptyMemory = some (code, s) ∧
      (code ≠ .ok → s.live = emptyMemory.live ∧ s.others = emptyMemory.others) ∧
      (code = .ok → ∃ replies used tree pool levels s',
        runCalls .bump 3 [.insert 7 70 false false, .remove 7 true] s = some (replies, used) ∧
        Holds used tree pool levels ∧ rbtDeleteTree 3 used = some ((), s') ∧
        used.glob.self ∉ emptyMemory.others ∧ used.others = insert used.glob.self emptyMemory.others ∧
        s'.others = emptyMemory.others ∧ (∀ a ∈ tree.labels, a ∈ used.live ∧ a ∉ s'.live) ∧
        s'.live = emptyMemory.live ∪ pool.toFinset ∧ Disjoint emptyMemory.live pool.toFinset ∧ pool.Nodup ∧
        pool.length = 3 - replies.countP Reply.isNew) :=
  rbtDeleteTree_leaves .bump emptyMemory (by simp [emptyMemory]) 3 0 _ 3 (by decide)

end GbfLibrary.Rbtree
