import GbfLibrary.TwoThree.Insert

/-!
# The tree between two calls

`Holds` is what every call finds and leaves: a represented 2-3 tree in search
order. Insertion adds its entry to the entries in search order.
-/

set_option autoImplicit false

namespace GbfLibrary.TwoThree

open Memory Prog Trees Tree23 Maps

/-- The way to the place where the search for a key ends. -/
def landing (key : Word) (tree : LbsTree) : LbsPath :=
  (descend (direction key) [] tree).1

structure Holds (s : TreeMachine) (tree : LbsTree) (levels : Nat) : Prop where
  rep : Rep s tree s.glob.slot 1
  root : s.glob.root = addr tree
  good : 0 ∉ s.live
  nodup : tree.labels.Nodup
  uniform : tree.Uniform levels
  level : s.glob.level = levels
  sorted : Increasing rank tree.inorder
  count : s.glob.nodeCount = tree.inorder.length

section Holds

variable {malloc : Malloc} {s : TreeMachine} {tree : LbsTree} {levels fuel : Nat} {key value : Word}

theorem newTree_apply (succeeds : malloc.Succeeds) (start : TreeMachine) (good : 0 ∉ start.live) :
    ∃ slot s, newTree malloc start = some (slot, s) ∧ slot ≠ 0 ∧ Holds s .nil 0 := by
  obtain ⟨slot, s₁, runs, notNull, live, cell, glob⟩ := callocOther_apply succeeds start
  refine ⟨slot, s₁.withGlob ⟨slot, 0, 0, 0⟩, by simp [newTree, runs, notNull], notNull, ?_⟩
  exact ⟨trivial, rfl, by simpa [live] using good, by simp, .nil, rfl, by simp [Increasing], rfl⟩

/-- The search for a key splits the tree where the key belongs. -/
theorem Holds.split (holds : Holds s tree levels) (key : Word) :
    ∃ path sub, descend (direction key) [] tree = (path, sub) ∧ tree = path.plug sub ∧
      path.Surrounds (direction key) ∧ sub.Matches (direction key) := by
  refine ⟨_, _, rfl, by simp [plug_descend], descend_surrounds ?_ ⟨?_, ?_⟩, descend_matches⟩
  · exact holds.sorted.searchable key.toNat
  · simp [Path23.before]
  · simp [Path23.after]

/-- An allocated node does not matter to the tree. -/
theorem Holds.extend (holds : Holds s tree levels) {m : Addr} (notNull : m ≠ 0)
    (fresh : m ∉ s.live) (cell : Node) : Holds (s.extend m cell) tree levels := by
  obtain ⟨rep, root, good, nodup, uniform, level, sorted, count⟩ := holds
  refine ⟨?_, by simpa using root, ?_, nodup, uniform, by simpa using level, sorted,
    by simpa using count⟩
  · simpa using (Rep.extend fun member => fresh (rep.live m member)).mpr rep
  · simpa [good] using notNull.symm

theorem Holds.search (holds : Holds s tree levels) (nonempty : tree ≠ .nil)
    (valid : key ≠ INVALID_KEY_VALUE) (enough : levels ≤ fuel) :
    searchNodeOrParent fuel s.glob.root key s =
      some (outcome key (descend (direction key) [] tree), s) := by
  obtain ⟨rep, root, good, _, uniform, _, sorted, _⟩ := holds
  cases levels with
  | zero => exact absurd uniform.eq_nil nonempty
  | succ height =>
      rw [root]
      exact searchNodeOrParent_apply good rep uniform sorted valid enough

end Holds

/-!
## Insertion
-/

section Insert

variable {malloc : Malloc} {s : TreeMachine} {tree : LbsTree} {levels fuel : Nat} {key value : Word}

theorem insert_empty (serves : malloc.Serves 1 s.heap) (holds : Holds s .nil levels)
    (valueSome : value ≠ 0#32) (valid : key ≠ INVALID_KEY_VALUE) :
    ∃ s' m, TwoThree.insert malloc fuel value key s = some (.ok, s') ∧
      Holds s' (two m (key, value) nil nil) 1 ∧ s'.beside [m] = s.beside [] := by
  obtain ⟨m, picked, _⟩ := serves
  obtain ⟨creates, notNull, fresh⟩ := newNode_some picked value key
  obtain ⟨_, root, good, _, _, _, _, count⟩ := holds
  refine Exists.intro ?state (Exists.intro m (And.intro ?runs ?result))
  case runs =>
    simp [TwoThree.insert, valueSome, creates, notNull, show s.glob.root = 0 from root, setParent]
    rfl
  case result =>
    refine ⟨⟨?_, by simp, by simpa [good] using notNull.symm, by simp, .two .nil .nil, by simp,
      Increasing.singleton _, by simpa using count⟩, Machine.beside_insert (by simp) fresh (List.Perm.refl _)⟩
    simp [Rep, valid]

/-- A leaf has room for its children, which are all empty. -/
theorem FrameRep.wideLeaf {frame : LbsFrame} {parent : Addr} {root : Int} {k : Entry}
    (rep : FrameRep s frame 0 parent root) (even : frame.Uniform 0) :
    WideRep s (frame.widen nil k nil) k parent root := by
  cases frame with
  | twoLeft p a c =>
      obtain rfl := even.eq_nil
      obtain ⟨live, valid, cell, _⟩ := rep
      exact ⟨live, ⟨a, valid, cell, .inl ⟨rfl, rfl⟩⟩, trivial, trivial, trivial⟩
  | twoRight p a c =>
      obtain rfl := even.eq_nil
      obtain ⟨live, valid, cell, _⟩ := rep
      exact ⟨live, ⟨a, valid, cell, .inr ⟨rfl, rfl⟩⟩, trivial, trivial, trivial⟩
  | threeLeft p a b c d =>
      obtain rfl := even.1.eq_nil
      obtain rfl := even.2.eq_nil
      obtain ⟨live, first, second, cell, _⟩ := rep
      exact ⟨live, ⟨a, b, first, second, cell, .inl ⟨rfl, rfl, rfl⟩⟩, trivial, trivial, trivial,
        trivial⟩
  | threeMiddle p a b c d =>
      obtain rfl := even.1.eq_nil
      obtain rfl := even.2.eq_nil
      obtain ⟨live, first, second, cell, _⟩ := rep
      exact ⟨live, ⟨a, b, first, second, cell, .inr (.inl ⟨rfl, rfl, rfl⟩)⟩, trivial, trivial,
        trivial, trivial⟩
  | threeRight p a b c d =>
      obtain rfl := even.1.eq_nil
      obtain rfl := even.2.eq_nil
      obtain ⟨live, first, second, cell, _⟩ := rep
      exact ⟨live, ⟨a, b, first, second, cell, .inr (.inr ⟨rfl, rfl, rfl⟩)⟩, trivial, trivial,
        trivial, trivial⟩

/-- The new node arrives at the leaf where the search ended. -/
theorem Holds.arriving {s₁ : TreeMachine} {m : Addr} {frame : LbsFrame} {path : LbsPath}
    (holds : Holds s (Path23.plug (frame :: path) nil) levels)
    (surrounds : Path23.Surrounds (direction key) (frame :: path))
    (valid : key ≠ INVALID_KEY_VALUE) (notNull : m ≠ 0) (fresh : m ∉ s.live)
    (extended : s₁ = s.extend m ⟨0, 0, 0, 0, 0, 0, key, value, INVALID_KEY_VALUE, 0⟩) :
    Arriving s₁ path (frame.widen nil (key, value) nil) m (key, value) 0 levels := by
  obtain ⟨rep, root, good, nodup, uniform, level, sorted, count⟩ :=
    extended ▸ holds.extend notNull fresh _
  obtain ⟨_, frameRep, above⟩ := rep_plug.mp rep
  obtain ⟨height, empty, around⟩ := Path23.Uniform.of_plug uniform
  obtain rfl := empty.eq_zero
  have hole := Path23.labels_plug (frame :: path) (nil : LbsTree)
  have widened := frame.labels_widen nil nil (key, value)
  have labels : ((frame.widen nil (key, value) nil).labels ++ path.labels).Perm
      (Path23.plug (frame :: path) nil).labels :=
    (widened.append_right _).trans hole.symm
  have used : ∀ a ∈ (Path23.plug (frame :: path) nil).labels, a ∈ s.live :=
    holds.rep.live
  refine ⟨⟨by simp [extended], valid, by simp [extended]⟩, frameRep.wideLeaf around.1, ?_, good, ?_,
    ?_, around.1.widen .nil .nil _, around.2, ?_⟩
  · simpa using above
  · refine List.nodup_cons.mpr ⟨fun member => ?_, labels.nodup_iff.mpr nodup⟩
    exact fresh (used m (labels.subset member))
  · intro a member
    rcases List.mem_cons.mp member with rfl | inTree
    · simp [extended]
    · simpa [extended] using .inr (used a (labels.subset inTree))
  · rw [Path23.inorder_plug] at sorted
    rw [Frame23.inorder_widen]
    have inserted : Increasing rank (Path23.before (frame :: path) ++
        (key, value) :: Path23.after (frame :: path)) :=
      sorted.insert (fun x member => compare_gt_iff_gt.mp (surrounds.before x member))
        fun y member => compare_lt_iff_lt.mp (surrounds.after y member)
    simpa [Path23.before, Path23.after] using inserted

/-- A new key goes to the leaf where its search ended. -/
theorem insert_arrives {frame : LbsFrame} {path : LbsPath} {m : Addr}
    (picked : malloc.pick s.heap.1 s.heap.2 = some m)
    (holds : Holds s (Path23.plug (frame :: path) nil) levels)
    (ends : descend (direction key) [] (Path23.plug (frame :: path) nil) = (frame :: path, nil))
    (surrounds : Path23.Surrounds (direction key) (frame :: path)) (valueSome : value ≠ 0#32)
    (valid : key ≠ INVALID_KEY_VALUE) (enough : levels ≤ fuel) :
    ∃ s₁, Holds s₁ (Path23.plug (frame :: path) nil) levels ∧
      Arriving s₁ path (frame.widen nil (key, value) nil) m (key, value) 0 levels ∧
      s₁.heap = (Insert.insert m s.heap.1, s.heap.2 + 1) ∧ s₁.live = Insert.insert m s.live ∧ m ∉ s.live ∧
      path.length < fuel ∧
      TwoThree.insert malloc fuel value key s = (do
        let rc ← insertInto malloc fuel m frame.label
        if rc = Status.ok then setGlob fun tree => { tree with nodeCount := tree.nodeCount + 1 }
        else pure ()
        return rc) s₁ := by
  obtain ⟨creates, notNull, fresh⟩ := newNode_some picked value key
  obtain ⟨s₁, extended⟩ : ∃ s₁, s₁ = s.extend m ⟨0, 0, 0, 0, 0, 0, key, value, INVALID_KEY_VALUE, 0⟩ :=
    ⟨_, rfl⟩
  rw [← extended] at creates
  have holds₁ : Holds s₁ (Path23.plug (frame :: path) nil) levels :=
    extended ▸ holds.extend notNull fresh _
  have arriving := holds.arriving surrounds valid notNull fresh extended
  have filled := Path23.plug_cons_ne_nil frame path nil
  have searches := holds₁.search filled valid enough
  have rootSome : s₁.glob.root ≠ 0 := by
    rw [holds₁.root]
    exact holds₁.rep.addr_ne holds₁.good filled
  have frameSome : frame.label ≠ 0 := fun null =>
    holds₁.good (null ▸ holds₁.rep.live _ (Path23.label_mem_plug frame path nil))
  have depth := arriving.around.length_add
  refine ⟨s₁, holds₁, arriving, by rw [extended, Machine.extend_heap], by rw [extended, Machine.extend_live], fresh,
    by omega, ?_⟩
  rw [ends] at searches
  simp [TwoThree.insert, valueSome, creates, notNull, rootSome, searches, outcome, frameSome]

theorem insert_below {frame : LbsFrame} {path : LbsPath}
    (serves : malloc.Serves (Path23.full (frame :: path) + 1) s.heap)
    (holds : Holds s (Path23.plug (frame :: path) nil) levels)
    (ends : descend (direction key) [] (Path23.plug (frame :: path) nil) = (frame :: path, nil))
    (surrounds : Path23.Surrounds (direction key) (frame :: path)) (valueSome : value ≠ 0#32)
    (valid : key ≠ INVALID_KEY_VALUE) (enough : levels ≤ fuel) :
    ∃ s' tree' levels', TwoThree.insert malloc fuel value key s = some (.ok, s') ∧
      Holds s' tree' levels' ∧
      tree'.inorder = Path23.before (frame :: path) ++ (key, value) :: Path23.after (frame :: path) ∧
      s'.beside tree'.labels = s.beside (Path23.plug (frame :: path) nil).labels := by
  obtain ⟨m, picked, rest⟩ := serves
  obtain ⟨s₁, holds₁, arriving, heap, live, fresh, short, steps⟩ :=
    insert_arrives picked holds ends surrounds valueSome valid enough
  have serves₁ : malloc.Serves ((frame.widen nil (key, value) nil).splits path) s₁.heap := by
    rwa [Frame23.splits_widen, heap]
  obtain ⟨s₂, tree', deeper, runs, settles, settled, kept⟩ := insertInto_settles arriving serves₁
    (by simpa [addr_plug] using holds₁.root) short
  have uniform := settles.uniform arriving.around arriving.even
  have inorder := settles.inorder
  have sorted := arriving.sorted
  rw [← inorder] at sorted
  rw [Frame23.inorder_widen] at inorder
  refine ⟨s₂.withGlob { s₂.glob with nodeCount := s₂.glob.nodeCount + 1 }, tree', levels + deeper, ?_,
    ?_, ?_, ?_⟩
  · simp only [Frame23.label_widen] at runs
    simp [steps, runs]
  · refine ⟨?_, ?_, by simpa using settled.good, settled.nodup, uniform, ?_, sorted, ?_⟩
    · simpa [settled.glob] using settled.rep
    · simp [settled.glob]
    · simp [settled.glob, holds₁.level]
    · have count := holds₁.count
      rw [Path23.inorder_plug] at count
      simp only [Path23.before, Path23.after, List.length_append, inorder_nil, List.length_nil] at count
      simp [settled.glob, count, inorder]
      omega
  · simpa [Path23.before, Path23.after] using inorder
  · rw [Machine.beside_withGlob, kept]
    have moved := (frame.labels_widen nil nil (key, value)).append_right path.labels
    exact Machine.beside_insert live fresh (.cons m ((Path23.labels_plug (frame :: path) nil).trans moved.symm))

/-- The node for a key that the tree has stays allocated. -/
theorem insert_found {path : LbsPath} {sub : LbsTree} (serves : malloc.Serves 1 s.heap)
    (holds : Holds s (path.plug sub) levels)
    (ends : descend (direction key) [] (path.plug sub) = (path, sub)) (nonempty : sub ≠ .nil)
    (valueSome : value ≠ 0#32) (valid : key ≠ INVALID_KEY_VALUE) (enough : levels ≤ fuel) :
    ∃ s', TwoThree.insert malloc fuel value key s = some (.alreadyExist, s') ∧
      Holds s' (path.plug sub) levels ∧ ∃ m, m ∉ s.live ∧ s'.live = Insert.insert m s.live := by
  obtain ⟨m, picked, _⟩ := serves
  obtain ⟨creates, notNull, fresh⟩ := newNode_some picked value key
  obtain ⟨s₁, extended⟩ : ∃ s₁, s₁ = s.extend m ⟨0, 0, 0, 0, 0, 0, key, value, INVALID_KEY_VALUE, 0⟩ :=
    ⟨_, rfl⟩
  rw [← extended] at creates
  have holds₁ : Holds s₁ (path.plug sub) levels := extended ▸ holds.extend notNull fresh _
  obtain ⟨subRep, _⟩ := rep_plug.mp holds₁.rep
  have subSome := subRep.addr_ne holds₁.good nonempty
  have wholeSome : path.plug sub ≠ .nil := Path23.plug_ne_nil nonempty
  have rootSome : s₁.glob.root ≠ 0 := by
    rw [holds₁.root]
    exact holds₁.rep.addr_ne holds₁.good wholeSome
  have searches := holds₁.search wholeSome valid enough
  obtain ⟨result, found, isFound⟩ := outcome_found key path nonempty
  rw [ends, found] at searches
  have notParent : result ≠ .parent := by
    rintro rfl
    cases isFound
  have notTarget : result ≠ .target := by
    rintro rfl
    cases isFound
  exact ⟨_, by simp [TwoThree.insert, valueSome, creates, rootSome, notNull, searches, subSome,
    notParent, notTarget], holds₁, m, fresh, by rw [extended, Machine.extend_live]⟩

end Insert

end GbfLibrary.TwoThree
