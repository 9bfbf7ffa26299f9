import GbfLibrary.Rbtree.Update
import GbfLibrary.Rbtree.WellFormed

/-!
# Sequences of calls

Every sequence of calls on a new tree replies as a finite map does and leaves a
well-formed tree.
-/

set_option autoImplicit false

namespace GbfLibrary.Rbtree

open Memory Prog Trees ColoredTree Maps

section Runs

variable {malloc : Malloc} {s : RbMachine} {tree : RbTree} {nodes : List Addr}
  {levels fuel : Nat} {contents : Contents}

theorem rbtSearch_serves (malloc : Malloc) (holds : Holds s tree nodes levels)
    (binds : Binds tree.inorder contents) (enough : tree.labels.length + 1 < fuel) (key : Word) :
    Serves ((Call.search key).run malloc fuel) s tree (.searched (contents.search key)) contents := by
  obtain ⟨path, sub, found, rfl, surrounds⟩ := holds.split key
  have searched : rbtSearch fuel key s = some (addr sub, s) := holds.search found (by omega)
  refine ⟨s, _, nodes, levels, ?_, holds, binds, by omega⟩
  cases sub with
  | nil =>
      obtain ⟨_, fresh⟩ := absent_of_surrounds surrounds binds
      simp [Call.run, searched, Contents.search, fresh]
  | node a red e l r =>
      obtain rfl : e.1 = key := direction_eq.mp (seek_found (congrArg Prod.snd found))
      obtain ⟨_, present, _⟩ := holds.entry binds
      obtain ⟨⟨live, cell, _⟩, _⟩ := rep_plug.mp holds.rep
      have notNull : a ≠ 0 := fun null => holds.stocked.good (null ▸ live)
      simp [Call.run, searched, Contents.search, present, notNull, live, cell]

theorem Call.run_serves (succeeds : malloc.Succeeds) (holds : Holds s tree nodes levels)
    (binds : Binds tree.inorder contents) (enough : tree.labels.length + 1 < fuel) (call : Call) :
    Serves (call.run malloc fuel) s tree (call.meaning contents).1 (call.meaning contents).2 := by
  cases call with
  | insert key data isUpdate oldData =>
      obtain ⟨s', tree', nodes', levels', runs, rest⟩ :=
        rbtInsert_serves key data isUpdate oldData (fun _ => supplied_of_succeeds succeeds) holds binds
          enough
      exact ⟨s', tree', nodes', levels', by simp [Call.run, runs, Call.meaning], rest⟩
  | remove key out =>
      obtain ⟨s', tree', nodes', levels', runs, rest⟩ :=
        rbtRemove_serves holds binds enough key out
      exact ⟨s', tree', nodes', levels', by simp [Call.run, runs, Call.meaning], rest⟩
  | search key => exact rbtSearch_serves malloc holds binds enough key

theorem runCalls_serves (succeeds : malloc.Succeeds) (calls : List Call)
    (holds : Holds s tree nodes levels) (binds : Binds tree.inorder contents)
    (enough : tree.labels.length + calls.length < fuel) :
    ∃ s' tree' nodes' levels',
      runCalls malloc fuel calls s = some ((meaning calls contents).1, s') ∧
      Holds s' tree' nodes' levels' ∧ Binds tree'.inorder (meaning calls contents).2 := by
  induction calls generalizing s tree nodes levels contents with
  | nil => exact ⟨s, tree, nodes, levels, rfl, holds, binds⟩
  | cons call calls ih =>
      simp only [List.length_cons] at enough
      have room : tree.labels.length + 1 < fuel := by omega
      obtain ⟨s₁, tree₁, nodes₁, levels₁, runs, holds₁, binds₁, length⟩ :=
        call.run_serves succeeds holds binds room
      obtain ⟨s', tree', nodes', levels', rest, holds', binds'⟩ := ih holds₁ binds₁ (by omega)
      exact ⟨s', tree', nodes', levels', by simp [runCalls, runs, rest, meaning], holds', binds'⟩

end Runs

/-- No call of the map is answered with `RBT_CODE_CORRUPT`. -/
def Reply.isCorrupt : Reply → Bool
  | .inserted code _ => code == .corrupt
  | .removed code _ => code == .corrupt
  | .searched _ => false

private theorem Call.meaning_not_corrupt (call : Call) (contents : Contents) :
    (call.meaning contents).1.isCorrupt = false := by
  cases call with
  | insert key data isUpdate oldData =>
      simp only [Call.meaning, Contents.insert, Reply.isCorrupt]
      split
      · rfl
      · split
        · rfl
        · split <;> rfl
  | remove key out =>
      simp only [Call.meaning, Contents.remove, Reply.isCorrupt]
      split <;> rfl
  | search key => rfl

private theorem meaning_not_corrupt (calls : List Call) (contents : Contents) :
    ∀ reply ∈ (meaning calls contents).1, reply.isCorrupt = false := by
  induction calls generalizing contents with
  | nil => simp [meaning]
  | cons call calls ih =>
      simpa [meaning, call.meaning_not_corrupt] using ih _

/-- A memory without any object. -/
def emptyMemory : RbMachine := ⟨∅, ∅, fun _ => Node.zero, Header.zero, 0⟩

/-- After every sequence of calls the tree obeys the rules of `rbtree.h`. -/
theorem runCalls_wellFormed (malloc : Malloc) (succeeds : malloc.Succeeds) (start : RbMachine)
    (good : 0 ∉ start.live) (poolSize : Nat) (mode : Word) (calls : List Call) (fuel : Nat)
    (enough : calls.length < fuel) :
    ∃ s replies s' tree, rbtNewTree malloc true poolSize mode start = some (.ok, s) ∧
      runCalls malloc fuel calls s = some (replies, s') ∧ WellFormed s' tree := by
  obtain ⟨s, nodes, creates, holds⟩ := rbtNewTree_apply succeeds start good poolSize mode
  obtain ⟨s', tree, nodes', levels, runs, holds', _⟩ :=
    runCalls_serves succeeds calls holds Binds.empty (by simpa using enough)
  exact ⟨s, _, s', tree, creates, runs, holds'.wellFormed⟩

theorem runCalls_wellFormed_small :
    ∃ s replies s' tree, rbtNewTree .bump true 2 0 emptyMemory = some (.ok, s) ∧
      runCalls .bump 5 [.insert 2 20 false false, .insert 7 70 true true, .insert 5 50 false false,
        .remove 2 true] s = some (replies, s') ∧ WellFormed s' tree :=
  runCalls_wellFormed .bump Malloc.bump_succeeds emptyMemory (by simp [emptyMemory]) 2 0 _ 5
    (by decide)

/-- Every sequence of calls replies as a finite map. -/
theorem runCalls_meaning (malloc : Malloc) (succeeds : malloc.Succeeds) (start : RbMachine)
    (good : 0 ∉ start.live) (poolSize : Nat) (mode : Word) (calls : List Call) (fuel : Nat)
    (enough : calls.length < fuel) :
    ∃ s replies s', rbtNewTree malloc true poolSize mode start = some (.ok, s) ∧
      runCalls malloc fuel calls s = some (replies, s') ∧
      replies = (meaning calls Contents.empty).1 ∧
      ∀ reply ∈ replies, reply.isCorrupt = false := by
  obtain ⟨s, nodes, creates, holds⟩ := rbtNewTree_apply succeeds start good poolSize mode
  obtain ⟨s', tree, nodes', levels, runs, _⟩ :=
    runCalls_serves succeeds calls holds Binds.empty (by simpa using enough)
  exact ⟨s, _, s', creates, runs, rfl, meaning_not_corrupt calls _⟩

theorem runCalls_meaning_small :
    ∃ s replies s', rbtNewTree .bump true 0 RBT_MODE_INTEGRITY emptyMemory = some (.ok, s) ∧
      runCalls .bump 4 [.insert 2 20 false false, .remove 2 true, .search 2] s =
        some (replies, s') ∧
      replies = (meaning [.insert 2 20 false false, .remove 2 true, .search 2]
        Contents.empty).1 ∧
      ∀ reply ∈ replies, reply.isCorrupt = false :=
  runCalls_meaning .bump Malloc.bump_succeeds emptyMemory (by simp [emptyMemory]) 0
    RBT_MODE_INTEGRITY _ 4 (by decide)

/-- An update without a place for the old data binds nothing, although the key is absent. -/
theorem runCalls_refusesAbsent : ¬ ∀ (malloc : Malloc), malloc.Succeeds → ∀ (start : RbMachine), 0 ∉ start.live →
    ∀ (poolSize : Nat) (mode : Word) (fuel : Nat) (front back : List Call) (key data : Word) (isUpdate oldData : Bool),
      (front ++ .insert key data isUpdate oldData :: back).length < fuel → (meaning front Contents.empty).2 key = none →
        ∃ s replies s', rbtNewTree malloc true poolSize mode start = some (.ok, s) ∧
          runCalls malloc fuel (front ++ .insert key data isUpdate oldData :: back) s = some (replies, s') ∧
          replies[front.length]? = some (.inserted .ok none) := by
  intro all
  obtain ⟨s, replies, s', creates, runs, reply⟩ := all .bump Malloc.bump_succeeds emptyMemory (by simp [emptyMemory]) 0 0 2
    [] [] 5 50 true false (by decide) rfl
  have refused : runCalls .bump 2 [.insert 5 50 true false] s = some ([.inserted .invParam none], s) := rfl
  rw [List.nil_append, refused] at runs
  cases runs
  cases reply

end GbfLibrary.Rbtree
