import GbfLibrary.TwoThree.Header
import GbfLibrary.TwoThree.Runs

/-!
# The memory of a 2-3 tree

What is allocated beside the nodes of the tree. An insertion that splits nodes and a deletion that joins them keep
it, and every insertion of a key that is present adds the node that it made.
-/

set_option autoImplicit false

namespace GbfLibrary.TwoThree

open Memory Prog Trees Tree23 Maps

/-- `lbs_23tree_release`, which has no statement. -/
def release : TreeProg Unit := pure ()

/-- Replies to insertions of keys that were present. -/
def Reply.isPresent (reply : Reply) : Bool := reply.status == .alreadyExist

/-- After the call the same records are outside the tree, beside a new one if the reply is that the key is present. -/
def Accounts (prog : TreeProg Reply) (s : TreeMachine) (tree : LbsTree) : Prop :=
  ∃ s' reply tree' levels', prog s = some (reply, s') ∧ Holds s' tree' levels' ∧
    tree'.inorder.length ≤ tree.inorder.length + 1 ∧
    ((reply.isPresent = false ∧ s'.beside tree'.labels = s.beside tree.labels) ∨
      reply.isPresent = true ∧ ∃ m, m ∉ s.live ∧ s'.beside tree'.labels = Insert.insert m (s.beside tree.labels))

/-- A new tree has a header, which is no node. -/
theorem newTree_allocates {malloc : Malloc} (succeeds : malloc.Succeeds) {start s : TreeMachine} {slot : Addr}
    (creates : newTree malloc start = some (slot, s)) :
    slot ∉ start.others ∧ s.others = Insert.insert slot start.others ∧ s.live = start.live := by
  obtain ⟨a, picked⟩ := succeeds (start.live ∪ start.others) start.callocs
  obtain ⟨allocates, notNull, _, fresh⟩ := callocOther_some picked
  simp only [newTree, bind_apply, allocates, andThen_some, if_neg notNull] at creates
  cases creates
  exact ⟨fresh, rfl, rfl⟩

section Accounts

variable {malloc : Malloc} {s : TreeMachine} {tree : LbsTree} {levels fuel : Nat} {key value : Word}

private theorem insert_accounts (holds : Holds s tree levels)
    (serves : malloc.Serves ((landing key tree).full + 1) s.heap) (enough : levels < fuel) (valueSome : value ≠ 0#32)
    (valid : key ≠ INVALID_KEY_VALUE) : Accounts ((Call.insert value key).run malloc fuel) s tree := by
  obtain ⟨path, sub, ends, rfl, surrounds, here⟩ := holds.split key
  rw [landing, ends] at serves
  by_cases empty : sub = nil
  · subst empty
    cases path with
    | nil =>
        obtain ⟨s', m, (runs : TwoThree.insert malloc fuel value key s = _), holds', kept⟩ :=
          insert_empty serves holds valueSome valid
        exact ⟨s', ⟨.ok, none⟩, _, 1, by simp [Call.run, runs], holds', by simp, .inl ⟨rfl, kept⟩⟩
    | cons frame path =>
        obtain ⟨s', tree', levels', runs, holds', more, kept⟩ :=
          insert_below serves holds ends surrounds valueSome valid enough.le
        refine ⟨s', ⟨.ok, none⟩, tree', levels', by simp [Call.run, runs], holds', ?_, .inl ⟨rfl, kept⟩⟩
        rw [more, Path23.inorder_plug]
        simp
        omega
  · obtain ⟨m, picked, _⟩ := serves
    obtain ⟨s', runs, holds', stray, fresh, live⟩ :=
      insert_found ⟨m, picked, trivial⟩ holds ends empty valueSome valid enough.le
    have outside : stray ∉ (path.plug sub).labels := fun member => fresh (holds.rep.live stray member)
    exact ⟨s', ⟨.alreadyExist, none⟩, _, levels, by simp [Call.run, runs], holds', by omega,
      .inr ⟨rfl, stray, fresh, Machine.beside_stray live outside⟩⟩

theorem delete_accounts (holds : Holds s tree levels) (enough : levels < fuel) (valid : key ≠ INVALID_KEY_VALUE) :
    Accounts ((Call.delete key).run malloc fuel) s tree := by
  obtain ⟨path, sub, ends, rfl, _, here⟩ := holds.split key
  by_cases empty : sub = nil
  · subst empty
    obtain ⟨status, runs, _, notPresent⟩ := delete_absent holds ends valid enough
    refine ⟨s, ⟨status, none⟩, _, levels, by simp [Call.run, runs], holds, by omega, .inl ⟨?_, rfl⟩⟩
    simpa [Reply.isPresent] using notPresent
  · obtain ⟨s', tree', levels', first, e, last, runs, holds', whole, _, less, kept⟩ :=
      delete_found holds ends here empty valid enough.le
    refine ⟨s', ⟨.ok, none⟩, tree', levels', by simp [Call.run, runs], holds', ?_, .inl ⟨rfl, kept⟩⟩
    rw [less, whole]
    simp
    omega

theorem search_accounts (holds : Holds s tree levels) (enough : levels < fuel) (valid : key ≠ INVALID_KEY_VALUE) :
    Accounts ((Call.search key).run malloc fuel) s tree := by
  obtain ⟨path, sub, ends, rfl, _, here⟩ := holds.split key
  by_cases empty : sub = nil
  · subst empty
    have runs := search_absent holds ends valid enough
    exact ⟨s, ⟨.notFound, none⟩, _, levels, by simp [Call.run, runs], holds, by omega, .inl ⟨rfl, rfl⟩⟩
  · obtain ⟨value, runs, _⟩ := search_found holds ends empty here valid enough.le
    exact ⟨s, ⟨.ok, some value⟩, _, levels, by simp [Call.run, runs], holds, by omega, .inl ⟨rfl, rfl⟩⟩

private theorem Call.run_accounts (succeeds : malloc.Succeeds) (holds : Holds s tree levels) (enough : levels < fuel)
    (call : Call) (valid : call.Valid) : Accounts (call.run malloc fuel) s tree := by
  cases call with
  | insert value key => exact insert_accounts holds (succeeds.serves _ _) enough valid.1 valid.2
  | delete key => exact delete_accounts holds enough valid
  | search key => exact search_accounts holds enough valid

private theorem runCalls_strays (succeeds : malloc.Succeeds) (calls : List Call) (valid : ∀ call ∈ calls, call.Valid)
    (holds : Holds s tree levels) (enough : tree.inorder.length + calls.length < fuel) :
    ∃ s' replies tree' levels' lost, runCalls malloc fuel calls s = some (replies, s') ∧ Holds s' tree' levels' ∧
      s'.beside tree'.labels = s.beside tree.labels ∪ lost ∧ Disjoint (s.beside tree.labels) lost ∧
      lost.card = replies.countP Reply.isPresent := by
  induction calls generalizing s tree levels with
  | nil =>
      exact ⟨s, [], tree, levels, ∅, rfl, holds, (Finset.union_empty _).symm, Finset.disjoint_empty_right _, rfl⟩
  | cons call calls ih =>
      have high := holds.uniform.le_length
      simp only [List.length_cons] at enough
      obtain ⟨first, others⟩ := List.forall_mem_cons.mp valid
      have room : levels < fuel := by omega
      obtain ⟨s₁, reply, tree₁, levels₁, runs, holds₁, longer, here⟩ := call.run_accounts succeeds holds room first
      obtain ⟨s', replies, tree', levels', lost, rest, holds', whole, apart, count⟩ := ih others holds₁ (by omega)
      have both : runCalls malloc fuel (call :: calls) s = some (reply :: replies, s') := by
        simp [runCalls, runs, rest]
      rcases here with ⟨notPresent, kept⟩ | ⟨present, m, fresh, kept⟩
      · rw [kept] at whole apart
        refine ⟨s', _, tree', levels', lost, both, holds', whole, apart, ?_⟩
        rw [List.countP_cons_of_neg (by simp [notPresent]), count]
      · rw [kept] at whole apart
        obtain ⟨notLost, apart⟩ := Finset.disjoint_insert_left.mp apart
        have outside : m ∉ s.beside tree.labels := fun member => fresh (Machine.mem_beside.mp member).1
        refine ⟨s', _, tree', levels', Insert.insert m lost, both, holds', ?_, ?_, ?_⟩
        · rw [whole, Finset.insert_union, Finset.union_insert]
        · exact Finset.disjoint_insert_right.mpr ⟨outside, apart⟩
        · rw [Finset.card_insert_of_notMem notLost, List.countP_cons_of_pos (by simp [present]), count]

end Accounts

/-- When no allocation fails, a sequence of calls leaves, beside what was there before the tree, its header, its nodes
and exactly one record for every insertion of a key that was present, and releasing the tree frees nothing. -/
theorem release_strays (malloc : Malloc) (succeeds : malloc.Succeeds) (start : TreeMachine) (good : 0 ∉ start.live)
    (calls : List Call) (valid : ∀ call ∈ calls, call.Valid) (fuel : Nat) (enough : calls.length < fuel) :
    ∃ slot s replies used s' tree lost, newTree malloc start = some (slot, s) ∧
      runCalls malloc fuel calls s = some (replies, used) ∧ WellFormed used tree ∧ release used = some ((), s') ∧
      s'.live = start.live ∪ tree.labels.toFinset ∪ lost ∧
      Disjoint start.live (tree.labels.toFinset ∪ lost) ∧ Disjoint tree.labels.toFinset lost ∧
      lost.card = replies.countP Reply.isPresent ∧
      slot ∉ start.others ∧ s'.others = Insert.insert slot start.others := by
  obtain ⟨slot, s, creates, _, holds⟩ := newTree_apply succeeds start good
  obtain ⟨fresh, header, live⟩ := newTree_allocates succeeds creates
  obtain ⟨used, replies, tree, levels, lost, runs, holds', whole, apart, count⟩ :=
    runCalls_strays succeeds calls valid holds (by simpa using enough)
  have others : used.others = s.others := runCalls_spares malloc fuel calls s replies used runs
  rw [labels_nil, Machine.beside_nil, live] at whole apart
  have inside : tree.labels.toFinset ⊆ used.live := fun a member => holds'.rep.live a (List.mem_toFinset.mp member)
  have outside : Disjoint (start.live ∪ lost) tree.labels.toFinset := whole ▸ Finset.sdiff_disjoint
  obtain ⟨old, new⟩ := Finset.disjoint_union_left.mp outside
  refine ⟨slot, s, replies, used, used, tree, lost, creates, runs, holds'.wellFormed, rfl, ?_, ?_, new.symm, count, fresh,
    others.trans header⟩
  · rw [Finset.union_right_comm, ← whole]
    exact (Finset.sdiff_union_of_subset inside).symm
  · exact Finset.disjoint_union_right.mpr ⟨old, apart⟩

/-- The second insertion of the key 2 leaves a record, and the deletion of the key 7 none. -/
theorem release_strays_twice :
    ∃ slot s replies used s' tree lost, newTree .bump emptyMemory = some (slot, s) ∧
      runCalls .bump 5 [.insert 20 2, .insert 70 7, .insert 21 2, .delete 7] s = some (replies, used) ∧
      WellFormed used tree ∧ release used = some ((), s') ∧
      s'.live = emptyMemory.live ∪ tree.labels.toFinset ∪ lost ∧
      Disjoint emptyMemory.live (tree.labels.toFinset ∪ lost) ∧ Disjoint tree.labels.toFinset lost ∧
      lost.card = replies.countP Reply.isPresent ∧
      slot ∉ emptyMemory.others ∧ s'.others = Insert.insert slot emptyMemory.others :=
  release_strays .bump Malloc.bump_succeeds emptyMemory (by simp [emptyMemory])
    [.insert 20 2, .insert 70 7, .insert 21 2, .delete 7] (by simp [Call.Valid, INVALID_KEY_VALUE]) 5 (by decide)

end GbfLibrary.TwoThree
