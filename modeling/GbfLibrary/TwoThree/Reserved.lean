import GbfLibrary.TwoThree.Runs

/-!
# Insertions of the reserved key

`lbs_23tree_insert` does not check its key. In the search an empty right key counts as the
reserved one, so a node with one key on the right-hand edge of the tree refuses it.
-/

set_option autoImplicit false

namespace GbfLibrary.TwoThree

open Memory Prog Trees Tree23 Maps

/-- On the way to the right there is a node with one key. -/
inductive OneKeyOnRight (s : TreeMachine) : Addr → Prop where
  | here {a : Addr} : a ≠ 0 → (s.cell a).rkey = INVALID_KEY_VALUE → OneKeyOnRight s a
  | beyond {a : Addr} : a ≠ 0 → OneKeyOnRight s (s.cell a).rchild → OneKeyOnRight s a

/-- The nodes and the header are as before; another node may have been allocated. -/
structure Unaltered (s s' : TreeMachine) : Prop where
  live : ∀ a ∈ s.live, a ∈ s'.live
  cell : ∀ a ∈ s.live, s'.cell a = s.cell a
  glob : s'.glob = s.glob

section Search

variable {malloc : Malloc} {s : TreeMachine} {tree : LbsTree} {parent : Addr} {root : Int}
  {levels fuel : Nat} {value : Word}

private theorem lt_reserved {key : Word} (valid : key ≠ INVALID_KEY_VALUE) :
    key < INVALID_KEY_VALUE ∧ ¬ INVALID_KEY_VALUE < key := by
  have different : key.toNat ≠ INVALID_KEY_VALUE.toNat := fun same => valid (BitVec.eq_of_toNat_eq same)
  have top : INVALID_KEY_VALUE.toNat = 2 ^ 32 - 1 := rfl
  have bound := key.isLt
  simp only [BitVec.lt_def]
  omega

theorem OneKeyOnRight.notNull {a : Addr} (onRight : OneKeyOnRight s a) : a ≠ 0 := by
  cases onRight <;> assumption

theorem OneKeyOnRight.agree {s' : TreeMachine} (rep : Rep s tree parent root)
    (onRight : OneKeyOnRight s (addr tree)) (agree : AgreeOn tree.labels s s') :
    OneKeyOnRight s' (addr tree) := by
  induction tree generalizing parent root with
  | nil => exact absurd rfl onRight.notNull
  | two a e l r _ _ =>
      refine .here onRight.notNull ?_
      rw [addr_two, (agree a (by simp)).2, rep.2.2.1]
  | three a e f l m r _ _ rightIH =>
      obtain ⟨_, _, fValid, cell, _, _, right⟩ := rep
      cases onRight with
      | here _ one =>
          rw [addr_three, cell] at one
          exact absurd one fValid
      | beyond notNull onRight =>
          rw [addr_three, cell] at onRight
          refine .beyond notNull ?_
          rw [addr_three, (agree a (by simp)).2, cell]
          exact rightIH right onRight (agree.mono fun b inside => by simp [inside])

/-- The search stops at the first node with one key. -/
theorem searchNodeOrParent_reserved (good : 0 ∉ s.live) (rep : Rep s tree parent root)
    (uniform : tree.Uniform levels) (onRight : OneKeyOnRight s (addr tree)) (enough : levels ≤ fuel) :
    ∃ a, a ≠ 0 ∧ searchNodeOrParent fuel (addr tree) INVALID_KEY_VALUE s = some ((a, .rvalue), s) := by
  induction tree generalizing parent root levels fuel with
  | nil => exact absurd rfl onRight.notNull
  | two a e l r _ _ =>
      cases uniform with
      | two =>
          obtain ⟨fuel, rfl⟩ : ∃ more, fuel = more + 1 := ⟨fuel - 1, by omega⟩
          obtain ⟨live, valid, cell, _⟩ := rep
          have notNull : a ≠ 0 := fun null => good (null ▸ live)
          exact ⟨a, notNull, by simp [searchNodeOrParent, live, cell, notNull, valid, SearchResult.found]⟩
  | three a e f l m r _ _ rightIH =>
      cases uniform with
      | three leftEven middleEven rightEven =>
          obtain ⟨fuel, rfl⟩ : ∃ more, fuel = more + 1 := ⟨fuel - 1, by omega⟩
          obtain ⟨live, eValid, fValid, cell, left, _, right⟩ := rep
          have notNull : a ≠ 0 := fun null => good (null ▸ live)
          have beyond : OneKeyOnRight s (addr r) := by
            cases onRight with
            | here _ one =>
                rw [addr_three, cell] at one
                exact absurd one fValid
            | beyond _ right => rwa [addr_three, cell] at right
          have inner : addr l ≠ 0 := by
            rw [ne_eq, left.addr_eq_zero good leftEven, ← right.addr_eq_zero good rightEven]
            exact beyond.notNull
          obtain ⟨b, bNotNull, runs⟩ := rightIH right rightEven beyond (Nat.le_of_succ_le_succ enough)
          refine ⟨b, bNotNull, ?_⟩
          simpa [searchNodeOrParent, live, cell, notNull, eValid, fValid, SearchResult.found, inner,
            Node.posibleSubtree, lt_reserved eValid, lt_reserved fValid] using runs

/-- The reserved key is refused, and the tree is left alone. -/
theorem insert_reserved (succeeds : malloc.Succeeds) (holds : Holds s tree levels)
    (onRight : OneKeyOnRight s s.glob.root) (valueSome : value ≠ 0#32) (enough : levels ≤ fuel) :
    ∃ s', TwoThree.insert malloc fuel value INVALID_KEY_VALUE s = some (.alreadyExist, s') ∧
      Holds s' tree levels ∧ Unaltered s s' := by
  obtain ⟨m, picked⟩ := succeeds s.heap.1 s.heap.2
  obtain ⟨creates, notNull, fresh⟩ := newNode_some picked value INVALID_KEY_VALUE
  obtain ⟨s₁, extended⟩ : ∃ s₁, s₁ = s.extend m
      ⟨0, 0, 0, 0, 0, 0, INVALID_KEY_VALUE, value, INVALID_KEY_VALUE, 0⟩ := ⟨_, rfl⟩
  rw [← extended] at creates
  have holds₁ : Holds s₁ tree levels := extended ▸ holds.extend notNull fresh _
  have rootSome : s₁.glob.root ≠ 0 := by
    rw [holds₁.root, ← holds.root]
    exact onRight.notNull
  have onRight₁ : OneKeyOnRight s₁ (addr tree) := by
    rw [holds.root] at onRight
    refine onRight.agree holds.rep ?_
    rw [extended]
    exact .extend fun member => fresh (holds.rep.live m member)
  obtain ⟨a, aNotNull, searches⟩ :=
    searchNodeOrParent_reserved holds₁.good holds₁.rep holds₁.uniform onRight₁ enough
  rw [← holds₁.root] at searches
  refine ⟨s₁, ?_, holds₁, ⟨fun b live => ?_, fun b live => ?_, by rw [extended, Machine.extend_glob]⟩⟩
  · simp [TwoThree.insert, valueSome, creates, notNull, rootSome, searches, aNotNull]
  · simp [extended, live]
  · rw [extended]
    exact Machine.extend_cell_of_ne fun same => fresh (same ▸ live)

end Search

/-!
## Sequences of insertions
-/

/-- Values and their keys, inserted one after the other. -/
def runInserts (malloc : Malloc) (fuel : Nat) : List (Word × Word) → TreeProg (List Status)
  | [] => return []
  | (value, key) :: rest => do
    let status ← TwoThree.insert malloc fuel value key
    let statuses ← runInserts malloc fuel rest
    return status :: statuses

/-- The reserved key always meets a node with one key on the right-hand edge. -/
def Guarded (malloc : Malloc) (fuel : Nat) : List (Word × Word) → TreeMachine → Prop
  | [], _ => True
  | (value, key) :: rest, s =>
    (key = INVALID_KEY_VALUE → OneKeyOnRight s s.glob.root) ∧
      ∀ status s', TwoThree.insert malloc fuel value key s = some (status, s') →
        Guarded malloc fuel rest s'

section Sequences

variable {malloc : Malloc} {s : TreeMachine} {tree : LbsTree} {levels fuel : Nat} {key value : Word}

private theorem insert_guarded (succeeds : malloc.Succeeds) (holds : Holds s tree levels)
    (guarded : key = INVALID_KEY_VALUE → OneKeyOnRight s s.glob.root) (valueSome : value ≠ 0#32)
    (enough : levels < fuel) :
    ∃ status s' tree' levels', TwoThree.insert malloc fuel value key s = some (status, s') ∧
      Holds s' tree' levels' ∧ tree.inorder ⊆ tree'.inorder ∧
      tree'.inorder.length ≤ tree.inorder.length + 1 ∧
      (key = INVALID_KEY_VALUE → status ≠ .ok ∧ Unaltered s s') ∧
      (key ≠ INVALID_KEY_VALUE → status = .ok → (key, value) ∈ tree'.inorder) := by
  by_cases reserved : key = INVALID_KEY_VALUE
  · subst reserved
    obtain ⟨s', runs, holds', unaltered⟩ :=
      insert_reserved succeeds holds (guarded rfl) valueSome enough.le
    exact ⟨_, s', tree, levels, runs, holds', List.Subset.refl _, Nat.le_succ _,
      fun _ => ⟨by simp, unaltered⟩, fun valid => absurd rfl valid⟩
  · obtain ⟨map, binds⟩ := holds.exists_binds
    obtain ⟨s', reply, tree', levels', map', runs, holds', answers, binds', longer⟩ :=
      insert_serves holds (succeeds.serves _ _) binds enough valueSome reserved
    cases inserts : TwoThree.insert malloc fuel value key s with
    | none => simp [Call.run, inserts] at runs
    | some result =>
        obtain ⟨status, s₁⟩ := result
        simp only [Call.run, bind_apply, inserts, andThen_some, pure_apply, Option.some.injEq,
          Prod.mk.injEq] at runs
        obtain ⟨rfl, rfl⟩ := runs
        refine ⟨status, s₁, tree', levels', rfl, holds', ?_, longer, fun same => absurd same reserved, ?_⟩
        · rintro ⟨k, v⟩ member
          have before : map k = some v := binds.present member
          apply (binds' k v).mpr
          cases answers with
          | inserted fresh =>
              have different : k ≠ key := by
                rintro rfl
                rw [before] at fresh
                cases fresh
              rwa [Function.update_of_ne different]
          | insertRefused => exact before
        · rintro _ rfl
          apply (binds' key value).mpr
          cases answers with
          | inserted => simp
          | insertRefused _ refused => exact absurd rfl refused

/-- A guarded sequence of insertions keeps the entries that it finds. -/
theorem runInserts_keeps (succeeds : malloc.Succeeds) (calls : List (Word × Word))
    (valuesSome : ∀ call ∈ calls, call.1 ≠ 0) (holds : Holds s tree levels)
    (guarded : Guarded malloc fuel calls s) (enough : tree.inorder.length + calls.length < fuel) :
    ∃ statuses s' tree' levels', runInserts malloc fuel calls s = some (statuses, s') ∧
      Holds s' tree' levels' ∧ tree.inorder ⊆ tree'.inorder ∧
      tree'.inorder.length ≤ tree.inorder.length + calls.length := by
  induction calls generalizing s tree levels with
  | nil => exact ⟨[], s, tree, levels, rfl, holds, List.Subset.refl _, Nat.le_refl _⟩
  | cons call calls ih =>
      obtain ⟨value, key⟩ := call
      obtain ⟨here, later⟩ := guarded
      obtain ⟨valueSome, valuesSome⟩ := List.forall_mem_cons.mp valuesSome
      have high := holds.uniform.le_length
      simp only [List.length_cons] at enough ⊢
      obtain ⟨status, s₁, tree₁, levels₁, inserts, holds₁, kept, longer, _⟩ :=
        insert_guarded succeeds holds here valueSome (show levels < fuel by omega)
      obtain ⟨statuses, s', tree', levels', runs, holds', keeps, total⟩ :=
        ih valuesSome holds₁ (later status s₁ inserts) (by omega)
      exact ⟨status :: statuses, s', tree', levels', by simp [runInserts, inserts, runs], holds',
        List.Subset.trans kept keeps, by omega⟩

theorem Holds.finds (holds : Holds s tree levels) (member : (key, value) ∈ tree.inorder)
    (valid : key ≠ INVALID_KEY_VALUE) (enough : levels ≤ fuel) :
    TwoThree.search fuel key s = some ((.ok, some value), s) := by
  obtain ⟨map, binds⟩ := holds.exists_binds
  obtain ⟨path, sub, ends, rfl, surrounds, here⟩ := holds.split key
  by_cases empty : sub = nil
  · subst empty
    rw [Path23.inorder_plug, inorder_nil, List.nil_append] at member
    exact absurd rfl (key_ne_of_surrounds surrounds member)
  · obtain ⟨found, runs, inside⟩ := search_found holds ends empty here valid enough
    have same : some found = some value := (binds.present inside).symm.trans (binds.present member)
    rw [runs, same]

theorem Guarded.append {before after : List (Word × Word)} {statuses : List Status} {s' : TreeMachine}
    (guarded : Guarded malloc fuel (before ++ after) s)
    (runs : runInserts malloc fuel before s = some (statuses, s')) : Guarded malloc fuel after s' := by
  induction before generalizing s statuses with
  | nil =>
      cases runs
      exact guarded
  | cons call before ih =>
      obtain ⟨value, key⟩ := call
      cases inserts : TwoThree.insert malloc fuel value key s with
      | none => simp [runInserts, inserts] at runs
      | some result =>
          obtain ⟨status, s₁⟩ := result
          cases rest : runInserts malloc fuel before s₁ with
          | none => simp [runInserts, inserts, rest] at runs
          | some result =>
              simp [runInserts, inserts, rest] at runs
              obtain ⟨-, rfl⟩ := runs
              exact ih (guarded.2 status s₁ inserts) rest

theorem Guarded.take {before after : List (Word × Word)}
    (guarded : Guarded malloc fuel (before ++ after) s) : Guarded malloc fuel before s := by
  induction before generalizing s with
  | nil => trivial
  | cons call before ih =>
      obtain ⟨value, key⟩ := call
      exact ⟨guarded.1, fun status s' inserts => ih (guarded.2 status s' inserts)⟩

end Sequences

/-- A guarded sequence of insertions refuses the reserved key and loses no other. -/
theorem runInserts_refuses_or_finds (malloc : Malloc) (succeeds : malloc.Succeeds) (start : TreeMachine)
    (good : 0 ∉ start.live) (slot : Addr) (s : TreeMachine)
    (creates : newTree malloc start = some (slot, s)) (before : List (Word × Word)) (value key : Word)
    (after : List (Word × Word)) (valuesSome : ∀ call ∈ before ++ (value, key) :: after, call.1 ≠ 0)
    (fuel : Nat) (enough : before.length + after.length + 1 < fuel)
    (guarded : Guarded malloc fuel (before ++ (value, key) :: after) s) :
    ∃ statuses₁ s₁ status s₂ statuses₂ s₃, runInserts malloc fuel before s = some (statuses₁, s₁) ∧
      TwoThree.insert malloc fuel value key s₁ = some (status, s₂) ∧
      runInserts malloc fuel after s₂ = some (statuses₂, s₃) ∧
      (key = INVALID_KEY_VALUE → status ≠ .ok ∧ Unaltered s₁ s₂) ∧
      (key ≠ INVALID_KEY_VALUE → status = .ok →
        TwoThree.search fuel key s₃ = some ((.ok, some value), s₃)) := by
  obtain ⟨slot', s', created, _, holds⟩ := newTree_apply succeeds start good
  obtain rfl : s' = s := congrArg Prod.snd (Option.some.inj (created.symm.trans creates))
  obtain ⟨earlier, laterSome⟩ := List.forall_mem_append.mp valuesSome
  obtain ⟨valueSome, later⟩ := List.forall_mem_cons.mp laterSome
  obtain ⟨statuses₁, s₁, tree₁, levels₁, runs₁, holds₁, _, length₁⟩ :=
    runInserts_keeps succeeds before earlier holds guarded.take (by simp; omega)
  obtain ⟨here, next⟩ := guarded.append runs₁
  simp only [inorder_nil, List.length_nil] at length₁
  have high₁ := holds₁.uniform.le_length
  obtain ⟨status, s₂, tree₂, levels₂, inserts, holds₂, _, length₂, refused, accepted⟩ :=
    insert_guarded succeeds holds₁ here valueSome (show levels₁ < fuel by omega)
  obtain ⟨statuses₂, s₃, tree₃, levels₃, runs₂, holds₃, keeps, length₃⟩ :=
    runInserts_keeps succeeds after later holds₂ (next status s₂ inserts) (by omega)
  have high₃ := holds₃.uniform.le_length
  refine ⟨statuses₁, s₁, status, s₂, statuses₂, s₃, runs₁, inserts, runs₂, refused, fun valid ok => ?_⟩
  exact holds₃.finds (keeps (accepted valid ok)) valid (by omega)

/-- The empty tree, and the tree after its first insertion. -/
def newborn : TreeMachine := ((newTree .bump emptyMemory).get rfl).2

def oneKey : TreeMachine := ((TwoThree.insert .bump 4 2 20 newborn).get rfl).2

theorem runInserts_refuses_or_finds_oneKey :
    ∃ statuses₁ s₁ status s₂ statuses₂ s₃, runInserts .bump 4 [(2, 20)] newborn = some (statuses₁, s₁) ∧
      TwoThree.insert .bump 4 9 INVALID_KEY_VALUE s₁ = some (status, s₂) ∧
      runInserts .bump 4 [] s₂ = some (statuses₂, s₃) ∧
      (INVALID_KEY_VALUE = INVALID_KEY_VALUE → status ≠ .ok ∧ Unaltered s₁ s₂) ∧
      (INVALID_KEY_VALUE ≠ INVALID_KEY_VALUE → status = .ok →
        TwoThree.search 4 INVALID_KEY_VALUE s₃ = some ((.ok, some 9), s₃)) := by
  have inserts : TwoThree.insert .bump 4 2 20 newborn = some (.ok, oneKey) := rfl
  have guarded : Guarded .bump 4 ([(2, 20)] ++ [(9, INVALID_KEY_VALUE)]) newborn := by
    refine ⟨fun same => absurd same (by decide), fun status s' runs => ?_⟩
    obtain rfl : oneKey = s' := congrArg Prod.snd (Option.some.inj (inserts.symm.trans runs))
    exact ⟨fun _ => .here (by decide) (by decide), fun _ _ _ => trivial⟩
  exact runInserts_refuses_or_finds .bump Malloc.bump_succeeds emptyMemory (by simp [emptyMemory]) 1
    newborn rfl [(2, 20)] 9 INVALID_KEY_VALUE [] (by simp) 4 (by decide) guarded

/-- The empty tree takes the reserved key in. -/
theorem insert_reserved_accepted : ¬ ∀ (malloc : Malloc) (start s : TreeMachine) (slot : Addr),
    malloc.Succeeds → 0 ∉ start.live → newTree malloc start = some (slot, s) →
    ∀ (fuel : Nat) (before : List (Word × Word)) (statuses : List Status) (s₁ : TreeMachine)
      (value : Word), (∀ call ∈ before, call.1 ≠ 0) → value ≠ 0 → before.length + 1 < fuel →
      runInserts malloc fuel before s = some (statuses, s₁) →
      ∀ status s₂, TwoThree.insert malloc fuel value INVALID_KEY_VALUE s₁ = some (status, s₂) →
        status ≠ .ok ∧ Unaltered s₁ s₂ := by
  intro claimed
  have good : 0 ∉ emptyMemory.live := by simp [emptyMemory]
  have runs : runInserts .bump 4 [] newborn = some ([], newborn) := rfl
  have accepts : TwoThree.insert .bump 4 9 INVALID_KEY_VALUE newborn =
      some (.ok, ((TwoThree.insert .bump 4 9 INVALID_KEY_VALUE newborn).get rfl).2) := rfl
  obtain ⟨refused, _⟩ := claimed .bump emptyMemory newborn 1 Malloc.bump_succeeds good rfl 4 [] [] newborn 9
    (by simp) (by decide) (by decide) runs .ok _ accepts
  exact refused rfl

end GbfLibrary.TwoThree
