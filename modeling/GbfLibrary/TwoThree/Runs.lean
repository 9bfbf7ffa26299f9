import GbfLibrary.Maps.Bindings
import GbfLibrary.TwoThree.Delete
import GbfLibrary.TwoThree.WellFormed

/-!
# Sequences of calls on a 2-3 tree

Every sequence of calls on a new tree is answered as a finite map demands and
leaves a well-formed tree. The map and the demands on the answers are not taken
from the code.
-/

set_option autoImplicit false

namespace GbfLibrary.TwoThree

open Memory Prog Trees Tree23 Maps

/-- A finite map from keys to values. -/
abbrev Contents := Word → Option Word

def Contents.empty : Contents := fun _ => none

/-- `call.Answers before reply after`: the reply is right for a map `before`,
and the call makes the map `after` of it. -/
inductive Call.Answers : Call → Contents → Reply → Contents → Prop where
  | inserted {value key : Word} {map : Contents} : map key = none →
      (insert value key).Answers map ⟨.ok, none⟩ (Function.update map key (some value))
  | insertRefused {value key : Word} {map : Contents} {status : Status} : map key ≠ none →
      status ≠ .ok → (insert value key).Answers map ⟨status, none⟩ map
  | deleted {key : Word} {map : Contents} : map key ≠ none →
      (delete key).Answers map ⟨.ok, none⟩ (Function.update map key none)
  | deleteRefused {key : Word} {map : Contents} {status : Status} : map key = none →
      status ≠ .ok → (delete key).Answers map ⟨status, none⟩ map
  | found {key value : Word} {map : Contents} : map key = some value →
      (search key).Answers map ⟨.ok, some value⟩ map
  | notFound {key : Word} {map : Contents} : map key = none →
      (search key).Answers map ⟨.notFound, none⟩ map

/-- A sequence of right answers, from one map to another. -/
inductive Answered : List Call → Contents → List Reply → Contents → Prop where
  | nil {map : Contents} : Answered [] map [] map
  | cons {call : Call} {calls : List Call} {reply : Reply} {replies : List Reply}
      {before between after : Contents} (here : call.Answers before reply between)
      (rest : Answered calls between replies after) :
      Answered (call :: calls) before (reply :: replies) after

/-- A call is answered well and leaves a tree that holds the new map. -/
def Serves (prog : TreeProg Reply) (s : TreeMachine) (tree : LbsTree) (call : Call)
    (map : Contents) : Prop :=
  ∃ s' reply tree' levels' map', prog s = some (reply, s') ∧ Holds s' tree' levels' ∧
    call.Answers map reply map' ∧ Binds tree'.inorder map' ∧
    tree'.inorder.length ≤ tree.inorder.length + 1

section Runs

variable {malloc : Malloc} {s : TreeMachine} {tree : LbsTree} {levels fuel : Nat} {map : Contents}
  {key value : Word}

theorem Holds.exists_binds (holds : Holds s tree levels) : ∃ map : Contents, Binds tree.inorder map := by
  have distinct : (tree.inorder.map rank).Nodup := holds.sorted.imp ne_of_lt
  rw [show rank = BitVec.toNat ∘ Prod.fst from rfl, ← List.map_map] at distinct
  exact Maps.exists_binds distinct.of_map

theorem insert_serves (holds : Holds s tree levels)
    (serves : malloc.Serves ((landing key tree).full + 1) s.heap) (binds : Binds tree.inorder map)
    (enough : levels < fuel) (valueSome : value ≠ 0#32) (valid : key ≠ INVALID_KEY_VALUE) :
    Serves ((Call.insert value key).run malloc fuel) s tree (.insert value key) map := by
  obtain ⟨path, sub, ends, rfl, surrounds, here⟩ := holds.split key
  rw [landing, ends] at serves
  have entries := Path23.inorder_plug path sub
  by_cases empty : sub = nil
  · subst empty
    rw [inorder_nil, List.nil_append] at entries
    rw [entries] at binds
    have fresh : map key = none := binds.absent fun e => key_ne_of_surrounds surrounds
    have inserted : Binds (path.before ++ (key, value) :: path.after)
        (Function.update map key (some value)) := binds.insert fresh
    cases path with
    | nil =>
        obtain ⟨s', m, (runs : TwoThree.insert malloc fuel value key s = _), holds', _⟩ :=
          insert_empty serves holds valueSome valid
        exact ⟨s', _, _, 1, _, by simp [Call.run, runs], holds', .inserted fresh,
          by simpa [Path23.before, Path23.after] using inserted, by simp⟩
    | cons frame path =>
        obtain ⟨s', tree', levels', runs, holds', more, _⟩ :=
          insert_below serves holds ends surrounds valueSome valid enough.le
        refine ⟨s', _, tree', levels', _, by simp [Call.run, runs], holds', .inserted fresh,
          more ▸ inserted, ?_⟩
        rw [more, entries]
        simp
        omega
  · obtain ⟨old, member⟩ := exists_of_matches here empty
    have bound : map key = some old := binds.present (by simp [entries, member])
    obtain ⟨m, picked, _⟩ := serves
    obtain ⟨s', runs, holds', _⟩ :=
      insert_found ⟨m, picked, trivial⟩ holds ends empty valueSome valid enough.le
    exact ⟨s', ⟨.alreadyExist, none⟩, _, levels, map, by simp [Call.run, runs], holds',
      .insertRefused (by simp [bound]) (by simp), binds, by omega⟩

theorem delete_serves (holds : Holds s tree levels) (binds : Binds tree.inorder map)
    (enough : levels < fuel) (valid : key ≠ INVALID_KEY_VALUE) :
    Serves ((Call.delete key).run malloc fuel) s tree (.delete key) map := by
  obtain ⟨path, sub, ends, rfl, surrounds, here⟩ := holds.split key
  have entries := Path23.inorder_plug path sub
  by_cases empty : sub = nil
  · subst empty
    rw [inorder_nil, List.nil_append] at entries
    have absent : map key = none :=
      (entries ▸ binds).absent fun e => key_ne_of_surrounds surrounds
    obtain ⟨status, runs, refused, _⟩ := delete_absent holds ends valid enough
    exact ⟨s, _, _, levels, map, by simp [Call.run, runs], holds, .deleteRefused absent refused,
      binds, by omega⟩
  · obtain ⟨old, member⟩ := exists_of_matches here empty
    have bound : map key = some old := binds.present (by simp [entries, member])
    obtain ⟨s', tree', levels', first, e, last, runs, holds', whole, rfl, less, _⟩ :=
      delete_found holds ends here empty valid enough.le
    rw [whole] at binds
    have sorted := holds.sorted
    rw [whole] at sorted
    have others : ∀ x ∈ first ++ last, x.1 ≠ e.1 := fun x inRest same =>
      sorted.rank_ne x inRest (by simp [rank, same])
    refine ⟨s', _, tree', levels', _, by simp [Call.run, runs], holds', .deleted (by simp [bound]),
      less ▸ binds.erase others, ?_⟩
    rw [less, whole]
    simp
    omega

theorem search_found {path : LbsPath} {sub : LbsTree} (holds : Holds s (path.plug sub) levels)
    (ends : descend (direction key) [] (path.plug sub) = (path, sub)) (nonempty : sub ≠ nil)
    (here : sub.Matches (direction key)) (valid : key ≠ INVALID_KEY_VALUE) (enough : levels ≤ fuel) :
    ∃ value, TwoThree.search fuel key s = some ((.ok, some value), s) ∧
      (key, value) ∈ (path.plug sub).inorder := by
  have wholeSome : path.plug sub ≠ nil := Path23.plug_ne_nil nonempty
  have searches := holds.search wholeSome valid enough
  obtain ⟨subRep, _⟩ := rep_plug.mp holds.rep
  have subSome := subRep.addr_ne holds.good nonempty
  have subLive := subRep.addr_live subSome
  rw [ends] at searches
  cases sub with
  | nil => exact absurd rfl nonempty
  | two a e l r =>
      obtain rfl := direction_eq.mp here
      obtain ⟨_, _, cell, _⟩ := subRep
      simp only [addr_two] at subSome subLive
      refine ⟨e.2, ?_, by simp [Path23.inorder_plug]⟩
      simp [TwoThree.search, valid, searches, outcome, subSome, subLive, cell]
  | three a e f l m r =>
      obtain ⟨_, _, _, cell, _⟩ := subRep
      simp only [addr_three] at subSome subLive
      by_cases first : e.1 = key
      · subst first
        refine ⟨e.2, ?_, by simp [Path23.inorder_plug]⟩
        simp [TwoThree.search, valid, searches, outcome, subSome, subLive, cell]
      · obtain rfl := direction_eq.mp (here.resolve_left fun same => first (direction_eq.mp same))
        refine ⟨f.2, ?_, by simp [Path23.inorder_plug]⟩
        simp [TwoThree.search, valid, searches, outcome, first, subSome, subLive, cell]

theorem search_absent {path : LbsPath} (holds : Holds s (path.plug nil) levels)
    (ends : descend (direction key) [] (path.plug nil) = (path, nil)) (valid : key ≠ INVALID_KEY_VALUE)
    (enough : levels < fuel) : TwoThree.search fuel key s = some ((.notFound, none), s) := by
  cases path with
  | nil =>
      obtain ⟨fuel, rfl⟩ : ∃ more, fuel = more + 1 := ⟨fuel - 1, by omega⟩
      have empty : s.glob.root = 0 := holds.root
      simp [TwoThree.search, valid, empty, searchNodeOrParent]
  | cons frame path =>
      have searches := holds.search (Path23.plug_cons_ne_nil frame path nil) valid enough.le
      have frameSome : frame.label ≠ 0 := fun null =>
        holds.good (null ▸ holds.rep.live _ (Path23.label_mem_plug frame path nil))
      rw [ends] at searches
      simp [TwoThree.search, valid, searches, outcome, frameSome]

theorem search_serves (holds : Holds s tree levels) (binds : Binds tree.inorder map)
    (enough : levels < fuel) (valid : key ≠ INVALID_KEY_VALUE) :
    Serves ((Call.search key).run malloc fuel) s tree (.search key) map := by
  obtain ⟨path, sub, ends, rfl, surrounds, here⟩ := holds.split key
  by_cases empty : sub = nil
  · subst empty
    have entries := Path23.inorder_plug path (nil : LbsTree)
    rw [inorder_nil, List.nil_append] at entries
    have absent : map key = none :=
      (entries ▸ binds).absent fun e => key_ne_of_surrounds surrounds
    exact ⟨s, _, _, levels, map, by simp [Call.run, search_absent holds ends valid enough], holds, .notFound absent,
      binds, by omega⟩
  · obtain ⟨value, runs, member⟩ := search_found holds ends empty here valid enough.le
    exact ⟨s, _, _, levels, map, by simp [Call.run, runs], holds,
      .found (binds.present member), binds, by omega⟩

theorem Call.run_serves (succeeds : malloc.Succeeds) (holds : Holds s tree levels)
    (binds : Binds tree.inorder map) (enough : levels < fuel) (call : Call) (valid : call.Valid) :
    Serves (call.run malloc fuel) s tree call map := by
  cases call with
  | insert value key => exact insert_serves holds (succeeds.serves _ _) binds enough valid.1 valid.2
  | delete key => exact delete_serves holds binds enough valid
  | search key => exact search_serves holds binds enough valid

theorem runCalls_serves (succeeds : malloc.Succeeds) (calls : List Call)
    (valid : ∀ call ∈ calls, call.Valid) (holds : Holds s tree levels)
    (binds : Binds tree.inorder map) (enough : tree.inorder.length + calls.length < fuel) :
    ∃ s' replies tree' levels' map', runCalls malloc fuel calls s = some (replies, s') ∧
      Holds s' tree' levels' ∧ Answered calls map replies map' ∧ Binds tree'.inorder map' := by
  induction calls generalizing s tree levels map with
  | nil => exact ⟨s, [], tree, levels, map, rfl, holds, .nil, binds⟩
  | cons call calls ih =>
      have high := holds.uniform.le_length
      simp only [List.length_cons] at enough
      obtain ⟨first, others⟩ := List.forall_mem_cons.mp valid
      have room : levels < fuel := by omega
      obtain ⟨s₁, reply, tree₁, levels₁, map₁, runs, holds₁, answers, binds₁, longer⟩ :=
        call.run_serves succeeds holds binds room first
      obtain ⟨s', replies, tree', levels', map', rest, holds', answered, binds'⟩ :=
        ih others holds₁ binds₁ (by omega)
      exact ⟨s', _, tree', levels', map', by simp [runCalls, runs, rest], holds',
        .cons answers answered, binds'⟩

end Runs

/-- A memory without any object. -/
def emptyMemory : TreeMachine := ⟨∅, ∅, fun _ => Node.zero, ⟨0, 0, 0, 0⟩, 0⟩

/-- After every sequence of calls there is a 2-3 tree in memory. -/
theorem runCalls_isTwoThree (malloc : Malloc) (succeeds : malloc.Succeeds) (start : TreeMachine)
    (good : 0 ∉ start.live) (calls : List Call) (valid : ∀ call ∈ calls, call.Valid) (fuel : Nat)
    (enough : calls.length < fuel) :
    ∃ slot s replies s' tree, newTree malloc start = some (slot, s) ∧ slot ≠ 0 ∧
      runCalls malloc fuel calls s = some (replies, s') ∧ WellFormed s' tree := by
  obtain ⟨slot, s, creates, notNull, holds⟩ := newTree_apply succeeds start good
  obtain ⟨s', replies, tree, levels, map, runs, holds', _⟩ :=
    runCalls_serves succeeds calls valid holds Binds.empty (by simpa using enough)
  exact ⟨slot, s, replies, s', tree, creates, notNull, runs, holds'.wellFormed⟩

theorem runCalls_isTwoThree_small :
    ∃ slot s replies s' tree, newTree .bump emptyMemory = some (slot, s) ∧ slot ≠ 0 ∧
      runCalls .bump 4 [.insert 20 2, .insert 70 7, .delete 2] s = some (replies, s') ∧
      WellFormed s' tree :=
  runCalls_isTwoThree .bump Malloc.bump_succeeds emptyMemory (by simp [emptyMemory])
    [.insert 20 2, .insert 70 7, .delete 2]
    (by simp [Call.Valid, INVALID_KEY_VALUE]) 4 (by decide)

/-- Every sequence of calls is answered as a finite map demands. -/
theorem runCalls_answered (malloc : Malloc) (succeeds : malloc.Succeeds) (start : TreeMachine)
    (good : 0 ∉ start.live) (calls : List Call) (valid : ∀ call ∈ calls, call.Valid) (fuel : Nat)
    (enough : calls.length < fuel) :
    ∃ slot s replies s' map, newTree malloc start = some (slot, s) ∧ slot ≠ 0 ∧
      runCalls malloc fuel calls s = some (replies, s') ∧
      Answered calls Contents.empty replies map := by
  obtain ⟨slot, s, creates, notNull, holds⟩ := newTree_apply succeeds start good
  obtain ⟨s', replies, tree, levels, map, runs, _, answered, _⟩ :=
    runCalls_serves succeeds calls valid holds Binds.empty (by simpa using enough)
  exact ⟨slot, s, replies, s', map, creates, notNull, runs, answered⟩

theorem runCalls_answered_small :
    ∃ slot s replies s' map, newTree .bump emptyMemory = some (slot, s) ∧ slot ≠ 0 ∧
      runCalls .bump 4 [.insert 20 2, .search 2, .delete 2] s = some (replies, s') ∧
      Answered [.insert 20 2, .search 2, .delete 2] Contents.empty replies map :=
  runCalls_answered .bump Malloc.bump_succeeds emptyMemory (by simp [emptyMemory])
    [.insert 20 2, .search 2, .delete 2]
    (by simp [Call.Valid, INVALID_KEY_VALUE]) 4 (by decide)

end GbfLibrary.TwoThree
