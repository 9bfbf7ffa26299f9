import GbfLibrary.TwoThree.Runs

/-!
# Insertions that run out of memory

`lbs_23tree_insert_into` exchanges keys before it allocates, and on the way up it has
linked a fourth child in before it allocates again.
-/

set_option autoImplicit false

namespace GbfLibrary.TwoThree

open Memory Prog Trees Tree23 Maps

/-- The key belongs between the two keys of a leaf. -/
def Between : LbsPath → Prop
  | .threeMiddle _ _ _ _ _ :: _ => True
  | _ => False

/-- Allocations under which the insertion of a key does all or nothing. -/
inductive Harmless (malloc : Malloc) (s : TreeMachine) (tree : LbsTree) (key : Word) : Prop where
  | bound {value : Word} : (key, value) ∈ tree.inorder → Harmless malloc s tree key
  | noNode : ¬ malloc.Serves 1 s.heap → Harmless malloc s tree key
  | served : malloc.Serves ((landing key tree).full + 1) s.heap → Harmless malloc s tree key
  | between : Between (landing key tree) → ¬ malloc.Serves 2 s.heap → Harmless malloc s tree key

/-- The bindings, the counters and the shape are as before. -/
structure Kept (s s' : TreeMachine) (tree : LbsTree) : Prop where
  bindings : ∃ tree', WellFormed s' tree' ∧ ∀ entry, entry ∈ tree'.inorder ↔ entry ∈ tree.inorder
  nodeCount : s'.glob.nodeCount = s.glob.nodeCount
  level : s'.glob.level = s.glob.level

/-- Below the root there is a node with a fourth child. -/
def Broken (s : TreeMachine) : Prop :=
  ∃ path hole, PathRep s s.glob.slot path hole ∧ s.glob.root = topOf path hole ∧ hole ≠ 0 ∧
    (s.cell hole).mchild2 ≠ 0

section Broken

variable {s : TreeMachine} {slot hole root parent : Addr} {path : LbsPath} {frame : LbsFrame}
  {tree tree' : LbsTree} {flag : Int}

theorem Spells.unique (spells : Spells s root tree) (spells' : Spells s root tree') : tree = tree' := by
  induction tree generalizing root tree' with
  | nil =>
      cases tree' with
      | nil => rfl
      | two => exact absurd (spells'.1 ▸ spells) spells'.2.1
      | three => exact absurd (spells'.1 ▸ spells) spells'.2.1
  | two a e l r leftIH rightIH =>
      obtain ⟨rfl, notNull, _, one, rfl, left, right⟩ := spells
      cases tree' with
      | nil => exact absurd spells' notNull
      | two =>
          obtain ⟨rfl, _, _, _, rfl, left', right'⟩ := spells'
          rw [leftIH left left', rightIH right right']
      | three =>
          obtain ⟨rfl, _, _, two, _⟩ := spells'
          exact absurd one two
  | three a e f l m r leftIH middleIH rightIH =>
      obtain ⟨rfl, notNull, _, two, rfl, rfl, left, middle, right⟩ := spells
      cases tree' with
      | nil => exact absurd spells' notNull
      | two =>
          obtain ⟨rfl, _, _, one, _⟩ := spells'
          exact absurd one two
      | three =>
          obtain ⟨rfl, _, _, _, rfl, rfl, left', middle', right'⟩ := spells'
          rw [leftIH left left', middleIH middle middle', rightIH right right']

theorem FrameRep.live (rep : FrameRep s frame hole parent flag) : frame.label ∈ s.live := by
  cases frame <;> exact rep.1

/-- Whatever a frame's node spells has the hole below it. -/
theorem FrameRep.spells_hole (rep : FrameRep s frame hole parent flag) (good : 0 ∉ s.live)
    (spells : Spells s frame.label tree) :
    ∃ below, Spells s hole below ∧ below.labels ⊆ tree.labels := by
  cases tree with
  | nil =>
      rw [Spells] at spells
      exact absurd (spells ▸ rep.live) good
  | two a e l r =>
      obtain ⟨rfl, _, _, one, _, left, right⟩ := spells
      cases frame with
      | twoLeft p x c =>
          rw [Frame23.label, rep.2.2.1] at left
          exact ⟨l, left, by simp⟩
      | twoRight p x c =>
          rw [Frame23.label, rep.2.2.1] at right
          exact ⟨r, right, by simp⟩
      | threeLeft p x y c d | threeMiddle p x y c d | threeRight p x y c d =>
          rw [Frame23.label, rep.2.2.2.1] at one
          exact absurd one rep.2.2.1
  | three a e f l m r =>
      obtain ⟨rfl, _, _, two, _, _, left, middle, right⟩ := spells
      cases frame with
      | twoLeft p x c | twoRight p x c =>
          rw [Frame23.label, rep.2.2.1] at two
          exact absurd rfl two
      | threeLeft p x y c d =>
          rw [Frame23.label, rep.2.2.2.1] at left
          exact ⟨l, left, by simp⟩
      | threeMiddle p x y c d =>
          rw [Frame23.label, rep.2.2.2.1] at middle
          exact ⟨m, middle, fun a inside => by simp [inside]⟩
      | threeRight p x y c d =>
          rw [Frame23.label, rep.2.2.2.1] at right
          exact ⟨r, right, fun a inside => by simp [inside]⟩

private theorem PathRep.spells_hole (rep : PathRep s slot path hole) (good : 0 ∉ s.live)
    (spells : Spells s (topOf path hole) tree) :
    ∃ below, Spells s hole below ∧ below.labels ⊆ tree.labels := by
  induction path generalizing hole with
  | nil => exact ⟨tree, spells, List.Subset.refl _⟩
  | cons frame path ih =>
      obtain ⟨here, above⟩ := rep
      obtain ⟨node, nodeSpells, included⟩ := ih above spells
      obtain ⟨below, holeSpells, inside⟩ := here.spells_hole good nodeSpells
      exact ⟨below, holeSpells, List.Subset.trans inside included⟩

private theorem Broken.not_wellFormed (broken : Broken s) (good : 0 ∉ s.live) : ¬ WellFormed s tree := by
  intro wellFormed
  obtain ⟨path, hole, above, top, notNull, fourth⟩ := broken
  have spells := wellFormed.spells
  rw [top] at spells
  obtain ⟨below, holeSpells, included⟩ := above.spells_hole good spells
  have member : hole ∈ below.labels := by
    cases below with
    | nil => exact absurd holeSpells notNull
    | two => simp [holeSpells.1]
    | three => simp [holeSpells.1]
  exact fourth (wellFormed.rules hole (included member)).noFourth

end Broken

section Insertion

variable {malloc : Malloc} {s s' : TreeMachine} {m p : Addr} {k e f g : Entry}
  {c₁ c₂ c₃ c₄ tree : LbsTree} {frame : LbsFrame} {path : LbsPath} {wide : Wide Addr Entry}
  {height total levels fuel : Nat} {key value : Word}

/-- A full node whose other half finds no memory has exchanged its keys already. -/
theorem Arriving.stuck (fails : malloc.pick s.heap.1 s.heap.2 = none)
    (arriving : Arriving s path (.four p e f g c₁ c₂ c₃ c₄) m k height total) :
    ∃ s₀, insertInto malloc (fuel + 1) m p s = some (.noMemory, s₀.miss) ∧
      Exchanged s s₀ m p e f g c₁ c₂ c₃ c₄ path s.glob.slot (parentOf s.glob.slot path)
        (rootOf path) := by
  obtain ⟨s₀, merges, exchanged⟩ := arriving.merges
  obtain ⟨⟨mLive, kValid, mCell⟩, ⟨pLive, ⟨low, high, lowValid, highValid, pCell, _⟩, _⟩, _, good, _⟩ :=
    arriving
  have mNotNull : m ≠ 0 := fun null => good (null ▸ mLive)
  have pNotNull : p ≠ 0 := fun null => good (null ▸ pLive)
  have divides : divideNode malloc p s₀ = some (0, s₀.miss) := by
    have fails₀ : malloc.pick s₀.heap.1 s₀.heap.2 = none := by rwa [exchanged.heap]
    simp [divideNode, exchanged.live, newNode_none fails₀]
  refine ⟨s₀, ?_, exchanged⟩
  simp [insertInto, mLive, mCell, pLive, pCell, mNotNull, pNotNull, lowValid, highValid, merges, divides]

/-- Above the leaves it has been given its fourth child, too. -/
theorem Arriving.breaks (fails : malloc.pick s.heap.1 s.heap.2 = none)
    (arriving : Arriving s path (.four p e f g c₁ c₂ c₃ c₄) m k (height + 1) total)
    (top : s.glob.root = topOf path p) :
    ∃ s', insertInto malloc (fuel + 1) m p s = some (.noMemory, s') ∧ Broken s' ∧ 0 ∉ s'.live := by
  obtain ⟨s₀, runs, exchanged⟩ := arriving.stuck fails
  have good : 0 ∉ s₀.live := by rw [exchanged.sameLive]; exact arriving.good
  have pNotNull : p ≠ 0 := fun null => good (null ▸ exchanged.live)
  refine ⟨s₀.miss, runs, ⟨path, p, ?_, ?_, pNotNull, ?_⟩, good⟩
  · rw [Machine.miss_glob, exchanged.glob]
    exact (PathRep.readsLabels _ path p).miss.mpr exchanged.above
  · rw [Machine.miss_glob, exchanged.glob, top]
  · rw [Machine.miss_cell, exchanged.cell]
    exact exchanged.third.addr_ne_of_uniform good arriving.even.2.2.1

private theorem insertInto_breaks (arriving : Arriving s path wide m k (height + 1) total)
    (fails : ¬ malloc.Serves (wide.splits path) s.heap) (top : s.glob.root = topOf path wide.label)
    (short : path.length < fuel) :
    ∃ s', insertInto malloc fuel m wide.label s = some (.noMemory, s') ∧ Broken s' ∧ 0 ∉ s'.live := by
  induction path generalizing s wide k height fuel with
  | nil =>
      obtain ⟨fuel, rfl⟩ : ∃ more, fuel = more + 1 := ⟨fuel - 1, by omega⟩
      cases wide with
      | three p e f c₁ c₂ c₃ => exact absurd trivial fails
      | four p e f g c₁ c₂ c₃ c₄ =>
          cases picked : malloc.pick s.heap.1 s.heap.2 with
          | none => exact arriving.breaks picked top
          | some d => exact absurd ⟨d, picked, trivial⟩ fails
  | cons frame path ih =>
      obtain ⟨fuel, rfl⟩ : ∃ more, fuel = more + 1 := ⟨fuel - 1, by omega⟩
      cases wide with
      | three p e f c₁ c₂ c₃ => exact absurd trivial fails
      | four p e f g c₁ c₂ c₃ c₄ =>
          cases picked : malloc.pick s.heap.1 s.heap.2 with
          | none => exact arriving.breaks picked top
          | some d =>
              obtain ⟨s₁, steps, glob, heap, _, arriving₁⟩ := arriving.up picked
              simp only [List.length_cons] at short
              have fails₁ : ¬ malloc.Serves ((frame.widen (two p e c₁ c₂) f (two d g c₃ c₄)).splits path)
                  s₁.heap := by
                rw [heap, Frame23.splits_widen]
                exact fun rest => fails ⟨d, picked, rest⟩
              obtain ⟨s', runs, broken⟩ :=
                ih arriving₁ fails₁ (by simpa [glob] using top) (show path.length < fuel by omega)
              rw [Frame23.label_widen, ← steps] at runs
              exact ⟨s', runs, broken⟩

theorem Holds.miss (holds : Holds s tree levels) : Holds s.miss tree levels := by
  obtain ⟨rep, root, good, nodup, uniform, level, sorted, count⟩ := holds
  exact ⟨(Rep.readsLabels tree _ _).miss.mpr rep, root, good, nodup, uniform, level, sorted, count⟩

/-- A leaf that could not be divided has its outer entries. -/
theorem Exchanged.holds {s₀ : TreeMachine} (holds : Holds s tree levels)
    (arriving : Arriving s path (.four p e f g nil nil nil nil) m k 0 levels)
    (exchanged : Exchanged s s₀ m p e f g nil nil nil nil path s.glob.slot (parentOf s.glob.slot path)
      (rootOf path))
    (top : s.glob.root = topOf path p)
    (length : tree.inorder.length = (path.plug (three p e g nil nil nil)).inorder.length) :
    Holds s₀.miss (path.plug (three p e g nil nil nil)) levels := by
  have glob := exchanged.glob
  have sorted : Increasing rank (path.before ++ ([e, f, g] ++ path.after)) := arriving.sorted
  refine ⟨?_, ?_, ?_, ?_, ?_, ?_, ?_, ?_⟩
  · rw [Machine.miss_glob, glob, rep_plug]
    refine ⟨(Rep.readsLabels _ _ _).miss.mpr ?_, (PathRep.readsLabels _ path p).miss.mpr exchanged.above⟩
    exact ⟨exchanged.live, exchanged.lowValid, exchanged.highValid, exchanged.cell, trivial, trivial,
      trivial⟩
  · rw [Machine.miss_glob, glob, top, addr_plug, addr_three]
  · rw [Machine.miss_live, exchanged.sameLive]
    exact arriving.good
  · apply (Path23.labels_plug _ _).nodup_iff.mpr
    exact (List.nodup_cons.mp arriving.nodup).2
  · exact Path23.Uniform.plug arriving.around (.three .nil .nil .nil)
  · rw [Machine.miss_glob, glob, holds.level]
  · rw [Path23.inorder_plug]
    apply sorted.sublist
    exact (List.Sublist.refl _).append
      (List.Sublist.append_right (.cons_cons e (.cons f (.refl [g]))) path.after)
  · rw [Machine.miss_glob, glob, holds.count, length]

private theorem widen_full (full : frame.isFull = true) (even : frame.Uniform 0) (path : LbsPath) (k : Entry) :
    ∃ e f g, frame.widen nil k nil = .four frame.label e f g nil nil nil nil ∧
      (Between (frame :: path) ∧ frame.fill nil = three frame.label e g nil nil nil ∨
        ¬ Between (frame :: path) ∧ k ∈ [e, g]) ∧
      (frame.fill nil).inorder.length = 2 := by
  cases frame with
  | twoLeft p a c | twoRight p a c => cases full
  | threeLeft p a b c d =>
      obtain rfl := even.1.eq_nil
      obtain rfl := even.2.eq_nil
      exact ⟨k, a, b, rfl, .inr ⟨not_false, by simp⟩, rfl⟩
  | threeMiddle p a b c d =>
      obtain rfl := even.1.eq_nil
      obtain rfl := even.2.eq_nil
      exact ⟨a, k, b, rfl, .inl ⟨trivial, rfl⟩, rfl⟩
  | threeRight p a b c d =>
      obtain rfl := even.1.eq_nil
      obtain rfl := even.2.eq_nil
      exact ⟨a, b, k, rfl, .inr ⟨not_false, by simp⟩, rfl⟩

/-- The new node finds no room at its leaf, or nothing to make room with. -/
theorem insertInto_fails (holds : Holds s (Path23.plug (frame :: path) nil) levels)
    (arriving : Arriving s path (frame.widen nil k nil) m k 0 levels)
    (fails : ¬ malloc.Serves (Path23.full (frame :: path)) s.heap) (short : path.length < fuel) :
    ∃ s', insertInto malloc fuel m frame.label s = some (.noMemory, s') ∧
      (¬ malloc.Serves 1 s.heap ∧ (∃ tree', Holds s' tree' levels ∧
          tree'.inorder.length = (Path23.plug (frame :: path) nil).inorder.length ∧
          (Between (frame :: path) ∧ tree' = Path23.plug (frame :: path) nil ∨
            ¬ Between (frame :: path) ∧ k ∈ tree'.inorder)) ∨
        malloc.Serves 1 s.heap ∧ Broken s' ∧ 0 ∉ s'.live) := by
  obtain ⟨fuel, rfl⟩ : ∃ more, fuel = more + 1 := ⟨fuel - 1, by omega⟩
  have full : frame.isFull = true := by
    by_contra room
    rw [Path23.full, if_neg room] at fails
    exact fails trivial
  have top : s.glob.root = topOf path frame.label := by
    rw [holds.root, Path23.plug_cons, addr_plug, addr_fill]
  have even : frame.Uniform 0 := by
    obtain ⟨height, empty, around⟩ := Path23.Uniform.of_plug holds.uniform
    obtain rfl := empty.eq_zero
    exact around.1
  obtain ⟨e, f, g, widened, place, pair⟩ := widen_full full even path k
  rw [widened] at arriving
  cases picked : malloc.pick s.heap.1 s.heap.2 with
  | none =>
      obtain ⟨s₀, runs, exchanged⟩ := arriving.stuck picked
      have length : (Path23.plug (frame :: path) nil).inorder.length =
          (path.plug (three frame.label e g nil nil nil)).inorder.length := by
        rw [Path23.plug_cons, Path23.inorder_plug, Path23.inorder_plug]
        simp [pair]
        omega
      have unserved : ¬ malloc.Serves 1 s.heap := by
        rintro ⟨d, found, _⟩
        have clash := picked.symm.trans found
        cases clash
      refine ⟨s₀.miss, runs, .inl ⟨unserved, path.plug (three frame.label e g nil nil nil),
        exchanged.holds holds arriving top length, length.symm, ?_⟩⟩
      rcases place with ⟨between, same⟩ | ⟨outer, member⟩
      · exact .inl ⟨between, by rw [Path23.plug_cons, same]⟩
      · refine .inr ⟨outer, ?_⟩
        simp only [List.mem_cons, List.not_mem_nil, or_false] at member
        rw [Path23.inorder_plug]
        rcases member with rfl | rfl <;> simp
  | some d =>
      rw [Path23.full, if_pos full] at fails
      cases path with
      | nil => exact absurd ⟨d, picked, trivial⟩ fails
      | cons above path =>
          obtain ⟨s₁, steps, glob, heap, _, arriving₁⟩ := arriving.up picked
          simp only [List.length_cons] at short
          have fails₁ : ¬ malloc.Serves
              ((above.widen (two frame.label e nil nil) f (two d g nil nil)).splits path) s₁.heap := by
            rw [heap, Frame23.splits_widen]
            exact fun rest => fails ⟨d, picked, rest⟩
          obtain ⟨s', runs, broken, good⟩ :=
            insertInto_breaks arriving₁ fails₁ (by simpa [glob] using top) (show path.length < fuel by omega)
          rw [Frame23.label_widen, ← steps] at runs
          exact ⟨s', runs, .inr ⟨⟨d, picked, trivial⟩, broken, good⟩⟩

/-- The insertion of a new key that the allocations do not serve. -/
theorem insert_fails (first : malloc.Serves 1 s.heap)
    (fails : ¬ malloc.Serves (Path23.full (frame :: path) + 1) s.heap)
    (holds : Holds s (Path23.plug (frame :: path) nil) levels)
    (ends : descend (direction key) [] (Path23.plug (frame :: path) nil) = (frame :: path, nil))
    (surrounds : Path23.Surrounds (direction key) (frame :: path)) (valueSome : value ≠ 0#32)
    (valid : key ≠ INVALID_KEY_VALUE) (enough : levels ≤ fuel) :
    ∃ s', TwoThree.insert malloc fuel value key s = some (.noMemory, s') ∧
      (¬ malloc.Serves 2 s.heap ∧ (∃ tree', Holds s' tree' levels ∧
          tree'.inorder.length = (Path23.plug (frame :: path) nil).inorder.length ∧
          (Between (frame :: path) ∧ tree' = Path23.plug (frame :: path) nil ∨
            ¬ Between (frame :: path) ∧ (key, value) ∈ tree'.inorder)) ∨
        malloc.Serves 2 s.heap ∧ Broken s' ∧ 0 ∉ s'.live) := by
  obtain ⟨m, picked, _⟩ := first
  obtain ⟨s₁, holds₁, arriving, heap, _, _, short, steps⟩ :=
    insert_arrives picked holds ends surrounds valueSome valid enough
  have serves_succ : ∀ n, malloc.Serves (n + 1) s.heap ↔ malloc.Serves n s₁.heap := by
    intro n
    rw [heap]
    constructor
    · rintro ⟨a, found, rest⟩
      obtain rfl : m = a := Option.some.inj (picked.symm.trans found)
      exact rest
    · exact fun rest => ⟨m, picked, rest⟩
  rw [serves_succ] at fails
  obtain ⟨s', runs, result⟩ := insertInto_fails holds₁ arriving fails short
  rw [serves_succ 1]
  exact ⟨s', by simp [steps, runs], result⟩

/-- What an insertion does under these allocations. -/
inductive Outcome (malloc : Malloc) (s s' : TreeMachine) (tree : LbsTree) (levels : Nat)
    (key value : Word) : Status → Prop where
  | inserted {tree' : LbsTree} {levels' : Nat} : Harmless malloc s tree key → Holds s' tree' levels' →
      tree'.inorder.length ≤ tree.inorder.length + 1 → Outcome malloc s s' tree levels key value .ok
  | kept {status : Status} : Harmless malloc s tree key → status ≠ .ok → Holds s' tree levels →
      Outcome malloc s s' tree levels key value status
  | exchanged {tree' : LbsTree} : ¬ Harmless malloc s tree key → Holds s' tree' levels →
      tree'.inorder.length = tree.inorder.length → (key, value) ∈ tree'.inorder →
      (key, value) ∉ tree.inorder → Outcome malloc s s' tree levels key value .noMemory
  | broken : ¬ Harmless malloc s tree key → Broken s' → 0 ∉ s'.live →
      Outcome malloc s s' tree levels key value .noMemory

private theorem insert_noNode (fails : ¬ malloc.Serves 1 s.heap) (valueSome : value ≠ 0#32) :
    TwoThree.insert malloc fuel value key s = some (.noMemory, s.miss) := by
  cases picked : malloc.pick s.heap.1 s.heap.2 with
  | none => simp [TwoThree.insert, valueSome, newNode_none picked]
  | some m => exact absurd ⟨m, picked, trivial⟩ fails

theorem insert_outcome (malloc : Malloc) (holds : Holds s tree levels) (enough : levels < fuel)
    (valueSome : value ≠ 0#32) (valid : key ≠ INVALID_KEY_VALUE) :
    ∃ status s', TwoThree.insert malloc fuel value key s = some (status, s') ∧
      Outcome malloc s s' tree levels key value status := by
  by_cases first : malloc.Serves 1 s.heap
  case neg =>
    exact ⟨_, _, insert_noNode first valueSome, .kept (.noNode first) (by simp) holds.miss⟩
  obtain ⟨path, sub, ends, rfl, surrounds, here⟩ := holds.split key
  have entries := Path23.inorder_plug path sub
  by_cases empty : sub = nil
  case neg =>
    obtain ⟨old, member⟩ := exists_of_matches here empty
    have bound : (key, old) ∈ (path.plug sub).inorder := by simp [entries, member]
    obtain ⟨s', runs, holds', _⟩ := insert_found first holds ends empty valueSome valid enough.le
    exact ⟨_, s', runs, .kept (.bound bound) (by simp) holds'⟩
  subst empty
  rw [inorder_nil, List.nil_append] at entries
  have absent : ∀ old, (key, old) ∉ (path.plug nil).inorder := by
    intro old member
    exact key_ne_of_surrounds surrounds (entries ▸ member) rfl
  have lands : landing key (path.plug nil) = path := by rw [landing, ends]
  cases path with
  | nil =>
      obtain ⟨s', m, runs, holds', _⟩ := insert_empty first holds valueSome valid
      have served : malloc.Serves ((landing key (Path23.plug [] nil)).full + 1) s.heap := by
        rwa [lands]
      exact ⟨.ok, s', runs, .inserted (.served served) holds' (by simp)⟩
  | cons frame path =>
      by_cases served : malloc.Serves (Path23.full (frame :: path) + 1) s.heap
      · obtain ⟨s', tree', levels', runs, holds', more, _⟩ :=
          insert_below served holds ends surrounds valueSome valid enough.le
        refine ⟨_, s', runs, .inserted (.served (lands.symm ▸ served)) holds' ?_⟩
        rw [more, entries]
        simp
        omega
      · have harmful : (Between (frame :: path) → malloc.Serves 2 s.heap) →
            ¬ Harmless malloc s (Path23.plug (frame :: path) nil) key := by
          rintro outer (bound | noNode | enough | ⟨between, fails⟩)
          · exact absent _ bound
          · exact noNode first
          · exact served (lands ▸ enough)
          · exact fails (outer (lands ▸ between))
        obtain ⟨s', runs, ⟨fails, tree', holds', length, place⟩ | ⟨divided, broken, good⟩⟩ :=
          insert_fails first served holds ends surrounds valueSome valid enough.le
        · rcases place with ⟨between, rfl⟩ | ⟨outer, member⟩
          · exact ⟨_, s', runs, .kept (.between (lands.symm ▸ between) fails) (by simp) holds'⟩
          · exact ⟨_, s', runs, .exchanged (harmful fun between => absurd between outer) holds' length
              member (absent value)⟩
        · exact ⟨_, s', runs, .broken (harmful fun _ => divided) broken good⟩

end Insertion

/-!
## Reachable trees
-/

/-- What `n` calls make of a new tree, whatever the allocations do, as long as they leave a
2-3 tree behind. -/
inductive Reached (fuel : Nat) : Nat → TreeMachine → Prop where
  | created {malloc : Malloc} {start s : TreeMachine} {slot : Addr} : 0 ∉ start.live →
      newTree malloc start = some (slot, s) → slot ≠ 0 → Reached fuel 0 s
  | called {malloc : Malloc} {n : Nat} {s s' : TreeMachine} {call : Call} {reply : Reply}
      {tree : LbsTree} : Reached fuel n s → n + 1 < fuel → call.Valid →
      call.run malloc fuel s = some (reply, s') → WellFormed s' tree → Reached fuel (n + 1) s'

section Reached

variable {malloc : Malloc} {s s' : TreeMachine} {tree : LbsTree} {levels fuel n : Nat}

private theorem newTree_holds {start : TreeMachine} {slot : Addr} (good : 0 ∉ start.live)
    (creates : newTree malloc start = some (slot, s)) (notNull : slot ≠ 0) : Holds s .nil 0 := by
  cases picked : malloc.pick (start.live ∪ start.others) start.callocs with
  | none =>
      simp [newTree, callocOther, picked] at creates
      exact absurd creates.1.symm notNull
  | some a =>
      have aNotNull := (malloc.fresh _ _ _ picked).1
      simp [newTree, callocOther, picked, aNotNull] at creates
      obtain ⟨rfl, rfl⟩ := creates
      exact ⟨trivial, rfl, good, by simp, .nil, rfl, Increasing.nil, rfl⟩

/-- A call that leaves a 2-3 tree behind keeps everything that the next one needs. -/
theorem Call.run_holds {call : Call} {reply : Reply} {tree' : LbsTree} (holds : Holds s tree levels)
    (enough : levels < fuel) (valid : call.Valid) (runs : call.run malloc fuel s = some (reply, s'))
    (wellFormed : WellFormed s' tree') :
    ∃ tree' levels', Holds s' tree' levels' ∧ tree'.inorder.length ≤ tree.inorder.length + 1 := by
  obtain ⟨map, binds⟩ := holds.exists_binds
  cases call with
  | insert value key =>
      obtain ⟨status, s₁, inserts, outcome⟩ := insert_outcome malloc holds enough valid.1 valid.2
      simp [Call.run, inserts] at runs
      obtain ⟨-, rfl⟩ := runs
      cases outcome with
      | inserted _ holds' longer => exact ⟨_, _, holds', longer⟩
      | kept _ _ holds' => exact ⟨_, _, holds', Nat.le_succ _⟩
      | exchanged _ holds' length => exact ⟨_, _, holds', by omega⟩
      | broken _ broken good => exact absurd wellFormed (broken.not_wellFormed good)
  | delete key =>
      obtain ⟨s₁, _, tree₁, levels₁, _, deletes, holds₁, _, _, longer⟩ :
          Serves ((Call.delete key).run malloc fuel) s tree (.delete key) map :=
        delete_serves holds binds enough valid
      obtain rfl : s₁ = s' := congrArg Prod.snd (Option.some.inj (deletes.symm.trans runs))
      exact ⟨tree₁, levels₁, holds₁, longer⟩
  | search key =>
      obtain ⟨s₁, _, tree₁, levels₁, _, searches, holds₁, _, _, longer⟩ :
          Serves ((Call.search key).run malloc fuel) s tree (.search key) map :=
        search_serves holds binds enough valid
      obtain rfl : s₁ = s' := congrArg Prod.snd (Option.some.inj (searches.symm.trans runs))
      exact ⟨tree₁, levels₁, holds₁, longer⟩

theorem Reached.holds (reached : Reached fuel n s) :
    ∃ tree levels, Holds s tree levels ∧ tree.inorder.length ≤ n := by
  induction reached with
  | created good creates notNull => exact ⟨_, _, newTree_holds good creates notNull, Nat.le_refl 0⟩
  | called _ enough valid runs wellFormed ih =>
      obtain ⟨tree, levels, holds, length⟩ := ih
      have high := holds.uniform.le_length
      obtain ⟨tree', levels', holds', longer⟩ :=
        Call.run_holds holds (show levels < fuel by omega) valid runs wellFormed
      exact ⟨tree', levels', holds', by omega⟩

theorem Reached.runs (succeeds : malloc.Succeeds) (calls : List Call) {replies : List Reply}
    (reached : Reached fuel n s) (valid : ∀ call ∈ calls, call.Valid) (enough : n + calls.length < fuel)
    (runs : runCalls malloc fuel calls s = some (replies, s')) : Reached fuel (n + calls.length) s' := by
  induction calls generalizing s n replies with
  | nil =>
      cases runs
      exact reached
  | cons call calls ih =>
      obtain ⟨tree, levels, holds, length⟩ := reached.holds
      obtain ⟨map, binds⟩ := holds.exists_binds
      have high := holds.uniform.le_length
      simp only [List.length_cons] at enough ⊢
      obtain ⟨first, others⟩ := List.forall_mem_cons.mp valid
      obtain ⟨s₁, reply, tree₁, levels₁, map₁, here, holds₁, _⟩ :=
        call.run_serves succeeds holds binds (show levels < fuel by omega) first
      have next : Reached fuel (n + 1) s₁ := .called reached (by omega) first here holds₁.wellFormed
      simp only [runCalls, bind_apply, here, andThen_some] at runs
      cases rest : runCalls malloc fuel calls s₁ with
      | none =>
          rw [rest] at runs
          cases runs
      | some result =>
          rw [rest] at runs
          cases runs
          have all := ih next others (by omega) rest
          rwa [show n + (calls.length + 1) = n + 1 + calls.length by omega]

end Reached

/-- A refused insertion has changed nothing where the allocations do no harm. -/
theorem insert_kept_iff (malloc : Malloc) (fuel n : Nat) (enough : n < fuel) (s : TreeMachine)
    (reached : Reached fuel n s) (tree : LbsTree) (wellFormed : WellFormed s tree) (value key : Word)
    (valueSome : value ≠ 0) (valid : key ≠ INVALID_KEY_VALUE) :
    ∃ status s', TwoThree.insert malloc fuel value key s = some (status, s') ∧
      ((status ≠ .ok → Kept s s' tree) ↔ Harmless malloc s tree key) := by
  obtain ⟨tree₀, levels, holds, length⟩ := reached.holds
  obtain rfl : tree₀ = tree := holds.wellFormed.spells.unique wellFormed.spells
  have high := holds.uniform.le_length
  obtain ⟨status, s', runs, outcome⟩ :=
    insert_outcome malloc holds (show levels < fuel by omega) valueSome valid
  refine ⟨status, s', runs, ?_⟩
  cases outcome with
  | inserted harmless => simp [harmless]
  | kept harmless _ holds' =>
      refine ⟨fun _ => harmless, fun _ _ => ⟨⟨tree₀, holds'.wellFormed, fun _ => Iff.rfl⟩, ?_, ?_⟩⟩
      · rw [holds.count, holds'.count]
      · rw [holds.level, holds'.level]
  | exchanged harmful holds' _ member absent =>
      refine iff_of_false (fun kept => ?_) harmful
      obtain ⟨⟨tree', wellFormed', same⟩, _⟩ := kept (by simp)
      rw [wellFormed'.spells.unique holds'.wellFormed.spells] at same
      exact absent ((same (key, value)).mp member)
  | broken harmful broken good =>
      refine iff_of_false (fun kept => ?_) harmful
      obtain ⟨⟨tree', wellFormed', _⟩, _⟩ := kept (by simp)
      exact broken.not_wellFormed good wellFormed'

/-- An allocator that serves the first calls only. -/
def Malloc.upTo (limit : Nat) : Malloc where
  pick used count := if count < limit then Malloc.bump.pick used count else none
  fresh := by
    intro used count address picked
    split at picked
    · exact Malloc.bump.fresh used count address picked
    · cases picked

/-- The keys 20 and 40, in one leaf. -/
def fullLeaf : TreeMachine :=
  ((do
    let _ ← newTree .bump
    runCalls .bump 5 [.insert 2 20, .insert 4 40] : TreeProg (List Reply)) emptyMemory |>.get rfl).2

theorem fullLeaf_reached : Reached 5 2 fullLeaf := by
  have good : 0 ∉ emptyMemory.live := by simp [emptyMemory]
  have creates : newTree .bump emptyMemory = some (1, ((newTree .bump emptyMemory).get rfl).2) := rfl
  have created : Reached 5 0 ((newTree .bump emptyMemory).get rfl).2 :=
    .created good creates (by decide)
  exact created.runs Malloc.bump_succeeds [.insert 2 20, .insert 4 40]
    (by simp [Call.Valid, INVALID_KEY_VALUE]) (by decide) rfl

private theorem fullLeaf_spells : Spells fullLeaf fullLeaf.glob.root (.three 2 (20, 2) (40, 4) .nil .nil .nil) := by
  refine ⟨rfl, by decide, by decide, by decide, rfl, rfl, rfl, rfl, rfl⟩

private theorem fullLeaf_wellFormed : WellFormed fullLeaf (.three 2 (20, 2) (40, 4) .nil .nil .nil) := by
  obtain ⟨tree, levels, holds, _⟩ := fullLeaf_reached.holds
  rw [fullLeaf_spells.unique holds.wellFormed.spells]
  exact holds.wellFormed

theorem insert_kept_iff_fullLeaf :
    ∃ status s', TwoThree.insert (Malloc.upTo 4) 5 3 30 fullLeaf = some (status, s') ∧
      ((status ≠ .ok → Kept fullLeaf s' (.three 2 (20, 2) (40, 4) .nil .nil .nil)) ↔
        Harmless (Malloc.upTo 4) fullLeaf (.three 2 (20, 2) (40, 4) .nil .nil .nil) 30) :=
  insert_kept_iff (Malloc.upTo 4) 5 2 (by decide) fullLeaf fullLeaf_reached _ fullLeaf_wellFormed 3 30
    (by decide) (by decide)

/-- The leaf after the insertion of 10, whose second allocation failed. -/
def exchangedLeaf : TreeMachine :=
  ((TwoThree.insert (Malloc.upTo 4) 5 1 10 fullLeaf).get rfl).2

/-- The refused key 10 has taken the place of 20. -/
theorem insert_notKept : ¬ ∀ (malloc : Malloc) (fuel n : Nat) (s : TreeMachine) (tree : LbsTree),
    n < fuel → Reached fuel n s → WellFormed s tree → ∀ value key : Word, value ≠ 0 →
    key ≠ INVALID_KEY_VALUE → ∀ status s', TwoThree.insert malloc fuel value key s = some (status, s') →
      status ≠ .ok → Kept s s' tree := by
  intro claimed
  obtain ⟨⟨tree', wellFormed, same⟩, _⟩ := claimed (Malloc.upTo 4) 5 2 fullLeaf _ (by decide)
    fullLeaf_reached fullLeaf_wellFormed 1 10 (by decide) (by decide) .noMemory exchangedLeaf rfl
    (by decide)
  have spells : Spells exchangedLeaf exchangedLeaf.glob.root
      (.three 2 (10, 1) (40, 4) .nil .nil .nil) :=
    ⟨rfl, by decide, by decide, by decide, rfl, rfl, rfl, rfl, rfl⟩
  rw [wellFormed.spells.unique spells] at same
  have lost := (same (20, 2)).mpr (by decide)
  revert lost
  decide

end GbfLibrary.TwoThree
