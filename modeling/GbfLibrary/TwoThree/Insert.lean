import GbfLibrary.Memory.Beside
import GbfLibrary.TwoThree.Search

/-!
# Nodes with a child too many

`lbs_23tree_insert_into` runs along a derivation of `Settles`. The entry between
the two halves of a split travels in a node of its own.
-/

set_option autoImplicit false

namespace GbfLibrary.TwoThree

open Memory Prog Trees Tree23 Maps

/-- A node that holds an entry and hangs nowhere yet. -/
structure Floating (s : TreeMachine) (m : Addr) (k : Entry) : Prop where
  live : m ∈ s.live
  valid : k.1 ≠ INVALID_KEY_VALUE
  cell : s.cell m = ⟨0, 0, 0, 0, 0, 0, k.1, k.2, INVALID_KEY_VALUE, 0⟩

/-- The node of a wide node has all its children, but not yet the entry `k`. -/
def WideRep (s : TreeMachine) : Wide Addr Entry → Entry → Addr → Int → Prop
  | .three p e f c₁ c₂ c₃, k, parent, root =>
      p ∈ s.live ∧
      (∃ own : Entry, own.1 ≠ INVALID_KEY_VALUE ∧
        s.cell p = ⟨root, parent, addr c₁, addr c₂, 0, addr c₃, own.1, own.2, INVALID_KEY_VALUE, 0⟩ ∧
        (e = k ∧ f = own ∨ e = own ∧ f = k)) ∧
      Rep s c₁ p 0 ∧ Rep s c₂ p 0 ∧ Rep s c₃ p 0
  | .four p e f g c₁ c₂ c₃ c₄, k, parent, root =>
      p ∈ s.live ∧
      (∃ low high : Entry, low.1 ≠ INVALID_KEY_VALUE ∧ high.1 ≠ INVALID_KEY_VALUE ∧
        s.cell p = ⟨root, parent, addr c₁, addr c₂, addr c₃, addr c₄, low.1, low.2, high.1, high.2⟩ ∧
        (e = k ∧ f = low ∧ g = high ∨ e = low ∧ f = k ∧ g = high ∨ e = low ∧ f = high ∧ g = k)) ∧
      Rep s c₁ p 0 ∧ Rep s c₂ p 0 ∧ Rep s c₃ p 0 ∧ Rep s c₄ p 0

section Nodes

variable {malloc : Malloc} {s : TreeMachine} {m p : Addr} {k e f g : Entry}
  {c₁ c₂ c₃ c₄ : LbsTree} {path : LbsPath} {slot parent hole : Addr} {root : Int}

theorem newNode_some {a : Addr} (picked : malloc.pick s.heap.1 s.heap.2 = some a) (value key : Word) :
    newNode malloc value key s =
        some (a, s.extend a ⟨0, 0, 0, 0, 0, 0, key, value, INVALID_KEY_VALUE, 0⟩) ∧
      a ≠ 0 ∧ a ∉ s.live := by
  obtain ⟨runs, notNull, fresh, _⟩ := calloc_some Node.zero picked
  refine ⟨?_, notNull, fresh⟩
  simp [newNode, setLkeyValue, setRkeyValue, runs, notNull, Machine.extend_modify]
  rfl

theorem newNode_none (fails : malloc.pick s.heap.1 s.heap.2 = none) (value key : Word) :
    newNode malloc value key s = some (0, s.miss) := by
  simp [newNode, calloc_none Node.zero fails]

private theorem insertInto_fits {fuel : Nat} (floating : Floating s m k)
    (wide : WideRep s (.three p e f c₁ c₂ c₃) k parent root) (outer : PathRep s slot path p)
    (good : 0 ∉ s.live)
    (nodup : (m :: ((Wide.three p e f c₁ c₂ c₃).labels ++ path.labels)).Nodup)
    (sorted : rank e < rank f) :
    ∃ s', insertInto malloc (fuel + 1) m p s = some (.ok, s') ∧
      Rep s' (three p e f c₁ c₂ c₃) parent root ∧ PathRep s' slot path p ∧ s'.glob = s.glob ∧
      0 ∉ s'.live ∧ s'.live = s.live.erase m := by
  obtain ⟨mLive, valid, mCell⟩ := floating
  obtain ⟨pLive, ⟨own, ownValid, pCell, place⟩, c₁Rep, c₂Rep, c₃Rep⟩ := wide
  simp only [Wide.labels, List.nodup_cons, List.nodup_append', List.mem_cons, List.mem_append, not_or,
    List.disjoint_append_right, List.cons_append, List.append_assoc] at nodup
  have mNotNull : m ≠ 0 := fun null => good (null ▸ mLive)
  have pNotNull : p ≠ 0 := fun null => good (null ▸ pLive)
  have other : p ≠ m := Ne.symm (by simp [nodup])
  obtain ⟨smaller, notSmaller, _⟩ := key_lt sorted
  rcases place with ⟨rfl, rfl⟩ | ⟨rfl, rfl⟩
  · refine Exists.intro ?first (And.intro ?firstRuns ?firstResult)
    case firstRuns =>
      simp [insertInto, setRkeyValue, setLkeyValue, mLive, mCell, pLive, pCell, mNotNull, pNotNull,
        notSmaller, free_apply, good]
      rfl
    case firstResult =>
      refine ⟨?_, ?_, by simp, by simpa using fun _ => good, by simp⟩
      · simp [Rep, pLive, pCell, other, nodup, valid, ownValid, c₁Rep, c₂Rep, c₃Rep]
      · simpa [nodup] using outer
  · refine Exists.intro ?second (And.intro ?secondRuns ?secondResult)
    case secondRuns =>
      simp [insertInto, setRkeyValue, mLive, mCell, pLive, pCell, mNotNull, pNotNull,
        smaller, free_apply, good]
      rfl
    case secondResult =>
      refine ⟨?_, ?_, by simp, by simpa using fun _ => good, by simp⟩
      · simp [Rep, pLive, pCell, other, nodup, valid, ownValid, c₁Rep, c₂Rep, c₃Rep]
      · simpa [nodup] using outer

/-- The middle one of three entries moves into the floating node. -/
theorem mergeNodes_apply (floating : Floating s m k)
    (wide : WideRep s (.four p e f g c₁ c₂ c₃ c₄) k parent root) (other : p ≠ m)
    (lower : rank e < rank f) (upper : rank f < rank g) :
    ∃ s', mergeNodes m p s = some ((), s') ∧ Floating s' m f ∧
      e.1 ≠ INVALID_KEY_VALUE ∧ g.1 ≠ INVALID_KEY_VALUE ∧
      s'.cell p = ⟨root, parent, addr c₁, addr c₂, addr c₃, addr c₄, e.1, e.2, g.1, g.2⟩ ∧
      s'.glob = s.glob ∧ Within [p, m] s s' := by
  obtain ⟨mLive, valid, mCell⟩ := floating
  obtain ⟨pLive, ⟨low, high, lowValid, highValid, pCell, place⟩, _⟩ := wide
  obtain ⟨eSmaller, notSmaller, _⟩ := key_lt lower
  obtain ⟨fSmaller, notLarger, _⟩ := key_lt upper
  obtain ⟨_, farther, _⟩ := key_lt (lower.trans upper)
  rcases place with ⟨rfl, rfl, rfl⟩ | ⟨rfl, rfl, rfl⟩ | ⟨rfl, rfl, rfl⟩
  · refine Exists.intro ?first (And.intro ?firstRuns ?firstResult)
    case firstRuns =>
      simp [mergeNodes, mLive, mCell, pLive, pCell, eSmaller, swapValue_apply, swapKey_apply, other]
      rfl
    case firstResult =>
      refine ⟨⟨by simpa using mLive, lowValid, ?_⟩, valid, highValid, ?_, by simp, ?_⟩
      · simp [mCell, other, Node.setKey, Node.setValue]
      · simp [pCell, other, Node.setKey, Node.setValue]
      · apply_rules [Within.modify, Within.refl]
        all_goals simp
  · refine ⟨s, ?_, ⟨mLive, valid, mCell⟩, lowValid, highValid, pCell, rfl, .refl _ _⟩
    simp [mergeNodes, mLive, mCell, pLive, pCell, notSmaller, notLarger]
  · refine Exists.intro ?third (And.intro ?thirdRuns ?thirdResult)
    case thirdRuns =>
      simp [mergeNodes, mLive, mCell, pLive, pCell, farther, fSmaller, swapValue_apply,
        swapKey_apply, other]
      rfl
    case thirdResult =>
      refine ⟨⟨by simpa using mLive, highValid, ?_⟩, lowValid, valid, ?_, by simp, ?_⟩
      · simp [mCell, other, Node.setKey, Node.setValue]
      · simp [pCell, other, Node.setKey, Node.setValue]
      · apply_rules [Within.modify, Within.refl]
        all_goals simp

private theorem swapKey_quiet (a : Addr) (x : Side) (b : Addr) (y : Side) : Quiet (swapKey a x b y) :=
  .bind (.load b) fun _ => .bind (.store a _) fun _ => .bind (.load a) fun _ => .bind (.store b _)
    fun _ => .bind (.load b) fun _ => .store a _

private theorem swapValue_quiet (a : Addr) (x : Side) (b : Addr) (y : Side) : Quiet (swapValue a x b y) :=
  .bind (.load b) fun _ => .bind (.store a _) fun _ => .bind (.load a) fun _ => .bind (.store b _)
    fun _ => .bind (.load b) fun _ => .store a _

private theorem mergeNodes_quiet (node parent : Addr) : Quiet (mergeNodes node parent) := by
  have swaps : ∀ x, Quiet (do
      swapValue parent x node .l
      swapKey parent x node .l) :=
    fun x => .bind (swapValue_quiet parent x node .l) fun _ => swapKey_quiet parent x node .l
  apply Quiet.bind (.load node)
  intro n
  apply Quiet.bind (.load parent)
  intro p
  exact .ite (.pure ()) (.ite (swaps .l) (.ite (swaps .r) (.pure ())))

private theorem insertDividedNode_quiet (source node parent : Addr) :
    Quiet (insertDividedNode source node parent) := by
  apply Quiet.bind (.load parent)
  intro p
  apply Quiet.ite
  · exact .ite (.bind (.store _ _) fun _ => .store _ _) (.bind (.store _ _) fun _ => .store _ _)
  · apply Quiet.ite (.store _ _)
    apply Quiet.ite
    · exact .ite (.bind (.store _ _) fun _ => .store _ _) (.store _ _)
    · exact .pure ()

/-- A node and its new right half, with the entry between them afloat. -/
structure Halves (s s' : TreeMachine) (m p d : Addr) (e f g : Entry) (c₁ c₂ c₃ c₄ : LbsTree)
    (path : LbsPath) (slot parent : Addr) (root : Int) : Prop where
  notNull : d ≠ 0
  fresh : d ∉ s.live
  live : s'.live = Insert.insert d s.live
  floating : Floating s' m f
  left : Rep s' (two p e c₁ c₂) parent root
  right : Rep s' (two d g c₃ c₄) 0 0
  above : PathRep s' slot path p
  glob : s'.glob = s.glob

private theorem divideNode_apply {height : Nat} {d : Addr}
    (picked : malloc.pick s.heap.1 s.heap.2 = some d) (floating : Floating s m f)
    (pLive : p ∈ s.live) (eValid : e.1 ≠ INVALID_KEY_VALUE) (gValid : g.1 ≠ INVALID_KEY_VALUE)
    (pCell : s.cell p = ⟨root, parent, addr c₁, addr c₂, addr c₃, addr c₄, e.1, e.2, g.1, g.2⟩)
    (c₁Rep : Rep s c₁ p 0) (c₂Rep : Rep s c₂ p 0) (c₃Rep : Rep s c₃ p 0) (c₄Rep : Rep s c₄ p 0)
    (even : (Wide.four p e f g c₁ c₂ c₃ c₄).Uniform height) (outer : PathRep s slot path p)
    (good : 0 ∉ s.live)
    (nodup : (m :: ((Wide.four p e f g c₁ c₂ c₃ c₄).labels ++ path.labels)).Nodup)
    (used : ∀ a ∈ path.labels, a ∈ s.live) :
    ∃ s', divideNode malloc p s = some (d, s') ∧ s'.heap = (Insert.insert d s.heap.1, s.heap.2 + 1) ∧
      Halves s s' m p d e f g c₁ c₂ c₃ c₄ path slot parent root := by
  obtain ⟨creates, dNotNull, fresh⟩ := newNode_some picked g.2 g.1
  have pOther : p ≠ d := fun same => fresh (same ▸ pLive)
  have mOther : m ≠ d := fun same => fresh (same ▸ floating.live)
  have notAbove : d ∉ path.labels := fun member => fresh (used d member)
  have notFirst : d ∉ c₁.labels := fun member => fresh (c₁Rep.live d member)
  have notSecond : d ∉ c₂.labels := fun member => fresh (c₂Rep.live d member)
  have notThird : d ∉ c₃.labels := fun member => fresh (c₃Rep.live d member)
  have notFourth : d ∉ c₄.labels := fun member => fresh (c₄Rep.live d member)
  obtain ⟨c₁Even, c₂Even, c₃Even, c₄Even⟩ := even
  simp only [Wide.labels, List.nodup_cons, List.nodup_append', List.mem_cons, List.mem_append, not_or,
    List.disjoint_append_right, List.cons_append, List.append_assoc] at nodup
  obtain ⟨mLive, fValid, mCell⟩ := floating
  cases height with
  | zero =>
      obtain rfl := c₁Even.eq_nil
      obtain rfl := c₂Even.eq_nil
      obtain rfl := c₃Even.eq_nil
      obtain rfl := c₄Even.eq_nil
      refine Exists.intro ?leaf (And.intro ?leafRuns ?leafResult)
      case leafRuns =>
        simp [divideNode, pLive, pCell, creates, dNotNull, pOther, Machine.extend_cell_of_ne]
        rfl
      case leafResult =>
        refine ⟨by simp, dNotNull, fresh, by simp, ⟨by simp [mLive], fValid, ?_⟩, ?_, ?_, ?_, by simp⟩
        · simp [mCell, mOther, nodup, Machine.extend_cell_of_ne]
        · simp [Rep, pLive, pCell, pOther, eValid, Machine.extend_cell_of_ne]
        · simp [Rep, pOther, gValid]
        · simpa [nodup, notAbove] using outer
  | succ height =>
      have c₁Inner := c₁Rep.inner good c₁Even
      have c₂Inner := c₂Rep.inner good c₂Even
      have c₃Inner := c₃Rep.inner good c₃Even
      have c₄Inner := c₄Rep.inner good c₄Even
      refine Exists.intro ?inner (And.intro ?innerRuns ?innerResult)
      case innerRuns =>
        simp [divideNode, setRelations, setLeftChild, setMidChild, setRightChild, adopt, setLchild,
          setRchild, setMchild, setMchild2, setParent, pLive, pCell, creates, dNotNull, pOther,
          Machine.extend_cell_of_ne, c₃Inner, c₄Inner]
        rfl
      case innerResult =>
        refine ⟨by simp, dNotNull, fresh, by simp, ⟨by simp [mLive], fValid, ?_⟩, ?_, ?_, ?_, by simp⟩
        · simp [mCell, mOther, nodup, Machine.extend_cell_of_ne, c₃Inner, c₄Inner]
        · simp [Rep, pLive, pCell, pOther, eValid, Machine.extend_cell_of_ne, c₃Inner, c₄Inner,
            nodup, notFirst, notSecond, c₁Rep, c₂Rep]
        · simp [Rep, pOther, gValid, c₃Inner, c₄Inner, nodup, notThird, notFourth]
        · simpa [nodup, notAbove, c₃Inner, c₄Inner] using outer

end Nodes

/-!
## The way up
-/

section Splits

variable {malloc : Malloc} {s : TreeMachine} {m : Addr} {k e f g : Entry} {l r : LbsTree}
  {wide : Wide Addr Entry} {frame : LbsFrame} {path : LbsPath} {slot parent : Addr} {root : Int}
  {height total fuel : Nat}

/-- The frame gets the right half of its child beside the left half. -/
theorem insertDividedNode_apply (here : FrameRep s frame (addr l) parent root)
    (left : Rep s l frame.label 0) (right : Rep s r frame.label 0) (good : 0 ∉ s.live)
    (around : frame.Uniform (height + 1)) (leftSome : addr l ≠ 0)
    (nodup : (frame.widen l k r).labels.Nodup) :
    ∃ s', insertDividedNode (addr l) (addr r) frame.label s = some ((), s') ∧
      WideRep s' (frame.widen l k r) k parent root ∧ s'.glob = s.glob ∧
      Within [frame.label] s s' := by
  have outside : ∀ c : LbsTree, l.labels.Disjoint c.labels → addr l ≠ addr c :=
    fun c apart => ne_addr leftSome (apart (addr_mem_labels leftSome))
  cases frame with
  | twoLeft p a c =>
      obtain ⟨pLive, aValid, pCell, cRep⟩ := here
      simp only [Frame23.widen, Wide.labels, List.nodup_cons, List.nodup_append', List.mem_append,
        not_or, List.disjoint_append_right] at nodup
      have notRight := outside c (by simp [nodup])
      refine Exists.intro ?firstState (And.intro ?firstRuns ?firstResult)
      case firstRuns =>
        simp [insertDividedNode, setMchild, pLive, pCell, notRight, leftSome, Frame23.label]
        rfl
      case firstResult =>
        refine ⟨⟨by simpa using pLive, ⟨a, aValid, ?_, .inl ⟨rfl, rfl⟩⟩, ?_, ?_, ?_⟩, by simp, ?_⟩
        · simp [pCell]
        · simpa [nodup, Frame23.label] using left
        · simpa [nodup, Frame23.label] using right
        · simpa [nodup] using cRep
        · apply_rules [Within.modify, Within.refl]
          all_goals simp [Frame23.label]
  | twoRight p a c =>
      obtain ⟨pLive, aValid, pCell, cRep⟩ := here
      simp only [Frame23.widen, Wide.labels, List.nodup_cons, List.nodup_append', List.mem_append,
        not_or, List.disjoint_append_right] at nodup
      refine Exists.intro ?secondState (And.intro ?secondRuns ?secondResult)
      case secondRuns =>
        simp [insertDividedNode, setMchild, setRchild, pLive, pCell, Frame23.label]
        rfl
      case secondResult =>
        refine ⟨⟨by simpa using pLive, ⟨a, aValid, ?_, .inr ⟨rfl, rfl⟩⟩, ?_, ?_, ?_⟩, by simp, ?_⟩
        · simp [pCell]
        · simpa [nodup] using cRep
        · simpa [nodup, Frame23.label] using left
        · simpa [nodup, Frame23.label] using right
        · apply_rules [Within.modify, Within.refl]
          all_goals simp [Frame23.label]
  | threeLeft p a b c d =>
      obtain ⟨pLive, aValid, bValid, pCell, cRep, dRep⟩ := here
      have cSome := cRep.addr_ne_of_uniform good around.1
      simp only [Frame23.widen, Wide.labels, List.nodup_cons, List.nodup_append', List.mem_append,
        not_or, List.disjoint_append_right] at nodup
      have notMiddle := outside c (by simp [nodup])
      have notRight := outside d (by simp [nodup])
      refine Exists.intro ?thirdState (And.intro ?thirdRuns ?thirdResult)
      case thirdRuns =>
        simp [insertDividedNode, setMchild, setMchild2, pLive, pCell, notMiddle, notRight, cSome,
          Frame23.label]
        rfl
      case thirdResult =>
        refine ⟨⟨by simpa using pLive, ⟨a, b, aValid, bValid, ?_, .inl ⟨rfl, rfl, rfl⟩⟩, ?_, ?_, ?_,
          ?_⟩, by simp, ?_⟩
        · simp [pCell]
        · simpa [nodup, Frame23.label] using left
        · simpa [nodup, Frame23.label] using right
        · simpa [nodup] using cRep
        · simpa [nodup] using dRep
        · apply_rules [Within.modify, Within.refl]
          all_goals simp [Frame23.label]
  | threeMiddle p a b c d =>
      obtain ⟨pLive, aValid, bValid, pCell, cRep, dRep⟩ := here
      simp only [Frame23.widen, Wide.labels, List.nodup_cons, List.nodup_append', List.mem_append,
        not_or, List.disjoint_append_right] at nodup
      have notRight := outside d (by simp [nodup])
      refine Exists.intro ?fourthState (And.intro ?fourthRuns ?fourthResult)
      case fourthRuns =>
        simp [insertDividedNode, setMchild2, pLive, pCell, notRight, Frame23.label]
        rfl
      case fourthResult =>
        refine ⟨⟨by simpa using pLive,
          ⟨a, b, aValid, bValid, ?_, .inr (.inl ⟨rfl, rfl, rfl⟩)⟩, ?_, ?_, ?_, ?_⟩, by simp, ?_⟩
        · simp [pCell]
        · simpa [nodup] using cRep
        · simpa [nodup, Frame23.label] using left
        · simpa [nodup, Frame23.label] using right
        · simpa [nodup] using dRep
        · apply_rules [Within.modify, Within.refl]
          all_goals simp [Frame23.label]
  | threeRight p a b c d =>
      obtain ⟨pLive, aValid, bValid, pCell, cRep, dRep⟩ := here
      have dSome := dRep.addr_ne_of_uniform good around.2
      simp only [Frame23.widen, Wide.labels, List.nodup_cons, List.nodup_append', List.mem_append,
        not_or, List.disjoint_append_right] at nodup
      refine Exists.intro ?fifthState (And.intro ?fifthRuns ?fifthResult)
      case fifthRuns =>
        simp [insertDividedNode, setMchild2, setRchild, pLive, pCell, dSome, Frame23.label]
        rfl
      case fifthResult =>
        refine ⟨⟨by simpa using pLive,
          ⟨a, b, aValid, bValid, ?_, .inr (.inr ⟨rfl, rfl, rfl⟩)⟩, ?_, ?_, ?_, ?_⟩, by simp, ?_⟩
        · simp [pCell]
        · simpa [nodup] using cRep
        · simpa [nodup] using dRep
        · simpa [nodup, Frame23.label] using left
        · simpa [nodup, Frame23.label] using right
        · apply_rules [Within.modify, Within.refl]
          all_goals simp [Frame23.label]

end Splits

/-- The floating node `m` brings an entry to a wide node in the hole of the
path. -/
structure Arriving (s : TreeMachine) (path : LbsPath) (wide : Wide Addr Entry) (m : Addr) (k : Entry)
    (height total : Nat) : Prop where
  floating : Floating s m k
  here : WideRep s wide k (parentOf s.glob.slot path) (rootOf path)
  above : PathRep s s.glob.slot path wide.label
  good : 0 ∉ s.live
  nodup : (m :: (wide.labels ++ path.labels)).Nodup
  used : ∀ a ∈ m :: (wide.labels ++ path.labels), a ∈ s.live
  even : wide.Uniform height
  around : path.Uniform (height + 1) total
  sorted : Increasing rank (path.before ++ (wide.inorder ++ path.after))

/-- A wide node keeps its outer entries, and the middle one is afloat. -/
structure Exchanged (s s₀ : TreeMachine) (m p : Addr) (e f g : Entry) (c₁ c₂ c₃ c₄ : LbsTree)
    (path : LbsPath) (slot parent : Addr) (root : Int) : Prop where
  floating : Floating s₀ m f
  live : p ∈ s₀.live
  lowValid : e.1 ≠ INVALID_KEY_VALUE
  highValid : g.1 ≠ INVALID_KEY_VALUE
  cell : s₀.cell p = ⟨root, parent, addr c₁, addr c₂, addr c₃, addr c₄, e.1, e.2, g.1, g.2⟩
  first : Rep s₀ c₁ p 0
  second : Rep s₀ c₂ p 0
  third : Rep s₀ c₃ p 0
  fourth : Rep s₀ c₄ p 0
  above : PathRep s₀ slot path p
  glob : s₀.glob = s.glob
  sameLive : s₀.live = s.live
  heap : s₀.heap = s.heap

/-- What insertion leaves of a tree whose rebalancing is done. -/
structure Settled (s s' : TreeMachine) (tree : LbsTree) (deeper : Nat) : Prop where
  rep : Rep s' tree s.glob.slot 1
  glob : s'.glob = { s.glob with root := addr tree, level := s.glob.level + deeper }
  good : 0 ∉ s'.live
  nodup : tree.labels.Nodup

section Way

variable {malloc : Malloc} {s : TreeMachine} {m p : Addr} {k e f g : Entry}
  {c₁ c₂ c₃ c₄ : LbsTree} {frame : LbsFrame} {path : LbsPath} {height total fuel : Nat}

theorem Arriving.fits (arriving : Arriving s path (.three p e f c₁ c₂ c₃) m k height total)
    (top : s.glob.root = topOf path p) :
    ∃ s', insertInto malloc (fuel + 1) m p s = some (.ok, s') ∧
      Settled s s' (path.plug (three p e f c₁ c₂ c₃)) 0 ∧ s'.live = s.live.erase m := by
  obtain ⟨floating, here, above, good, nodup, _, _, _, sorted⟩ := arriving
  have order : rank e < rank f := by
    have apart : Increasing rank ((path.before ++ (c₁.inorder ++ [e])) ++
        (c₂.inorder ++ f :: (c₃.inorder ++ path.after))) := by
      simpa [Wide.inorder] using sorted
    exact apart.across (by simp) (by simp)
  obtain ⟨s', (runs : insertInto malloc (fuel + 1) m p s = _), rep, outer, glob, good', live⟩ :=
    insertInto_fits floating here above good nodup order
  refine ⟨s', runs, ⟨rep_plug.mpr ⟨rep, outer⟩, ?_, good', ?_⟩, live⟩
  · rw [addr_plug, addr_three, ← top, glob]
    simp
  · refine (Path23.labels_plug _ _).nodup_iff.mpr ?_
    exact (List.nodup_cons.mp nodup).2

/-- The middle entry of a wide node moves into the floating node. -/
theorem Arriving.merges (arriving : Arriving s path (.four p e f g c₁ c₂ c₃ c₄) m k height total) :
    ∃ s₀, mergeNodes m p s = some ((), s₀) ∧
      Exchanged s s₀ m p e f g c₁ c₂ c₃ c₄ path s.glob.slot (parentOf s.glob.slot path)
        (rootOf path) := by
  obtain ⟨floating, here, above, _, nodup, _, _, _, sorted⟩ := arriving
  have lower : rank e < rank f := by
    have apart : Increasing rank ((path.before ++ (c₁.inorder ++ [e])) ++
        (c₂.inorder ++ f :: (c₃.inorder ++ g :: (c₄.inorder ++ path.after)))) := by
      simpa [Wide.inorder] using sorted
    exact apart.across (by simp) (by simp)
  have upper : rank f < rank g := by
    have apart : Increasing rank ((path.before ++ (c₁.inorder ++ e :: (c₂.inorder ++ [f]))) ++
        (c₃.inorder ++ g :: (c₄.inorder ++ path.after))) := by
      simpa [Wide.inorder] using sorted
    exact apart.across (by simp) (by simp)
  simp only [Wide.labels, List.nodup_cons, List.nodup_append', List.mem_cons, List.mem_append, not_or,
    List.disjoint_append_right, List.cons_append, List.append_assoc] at nodup
  have other : p ≠ m := Ne.symm (by simp [nodup])
  obtain ⟨s₀, merges, floating₀, eValid, gValid, pCell, glob₀, within⟩ :=
    mergeNodes_apply floating here other lower upper
  obtain ⟨pLive, _, c₁Rep, c₂Rep, c₃Rep, c₄Rep⟩ := here
  have keeps : ∀ c : LbsTree, p ∉ c.labels → m ∉ c.labels → Rep s c p 0 → Rep s₀ c p 0 := by
    intro c notParent notFloating rep
    refine ((Rep.readsLabels c p 0).within within ?_).mpr rep
    simp [notParent, notFloating]
  have outer : PathRep s₀ s.glob.slot path p := by
    refine ((PathRep.readsLabels _ path p).within within ?_).mpr above
    simp [nodup]
  exact ⟨s₀, merges, floating₀, within.live ▸ pLive, eValid, gValid, pCell,
    keeps c₁ (by simp [nodup]) (by simp [nodup]) c₁Rep,
    keeps c₂ (by simp [nodup]) (by simp [nodup]) c₂Rep,
    keeps c₃ (by simp [nodup]) (by simp [nodup]) c₃Rep,
    keeps c₄ (by simp [nodup]) (by simp [nodup]) c₄Rep, outer, glob₀, within.live,
    mergeNodes_quiet m p s () s₀ merges⟩

/-- A wide node that has two entries already is divided. -/
theorem Arriving.divides {d : Addr} (picked : malloc.pick s.heap.1 s.heap.2 = some d)
    (arriving : Arriving s path (.four p e f g c₁ c₂ c₃ c₄) m k height total) :
    ∃ s₀ s₁, mergeNodes m p s = some ((), s₀) ∧ divideNode malloc p s₀ = some (d, s₁) ∧
      s₁.heap = (Insert.insert d s.heap.1, s.heap.2 + 1) ∧
      Halves s s₁ m p d e f g c₁ c₂ c₃ c₄ path s.glob.slot (parentOf s.glob.slot path)
        (rootOf path) := by
  obtain ⟨s₀, merges, floating₀, pLive, eValid, gValid, pCell, c₁Rep, c₂Rep, c₃Rep, c₄Rep, outer,
    glob₀, live₀, heap₀⟩ := arriving.merges
  obtain ⟨s₁, divides, heap₁, notNull, fresh, live, floating₁, left, right, above₁, glob₁⟩ :=
    divideNode_apply (heap₀ ▸ picked) floating₀ pLive eValid gValid pCell c₁Rep c₂Rep c₃Rep c₄Rep
      arriving.even outer (live₀ ▸ arriving.good) arriving.nodup
      (fun a member => live₀ ▸ arriving.used a (by simp [member]))
  rw [live₀] at fresh live
  rw [heap₀] at heap₁
  exact ⟨s₀, s₁, merges, divides, heap₁, notNull, fresh, live, floating₁, left, right, above₁,
    glob₁.trans glob₀⟩

/-- The halves and the entry between them are the new tree. -/
theorem Arriving.root {d : Addr} (picked : malloc.pick s.heap.1 s.heap.2 = some d)
    (arriving : Arriving s [] (.four p e f g c₁ c₂ c₃ c₄) m k height total) :
    ∃ s', insertInto malloc (fuel + 1) m p s = some (.ok, s') ∧
      Settled s s' (two m f (two p e c₁ c₂) (two d g c₃ c₄)) 1 ∧
      s'.beside (two m f (two p e c₁ c₂) (two d g c₃ c₄)).labels =
        s.beside (m :: (Wide.four p e f g c₁ c₂ c₃ c₄).labels) := by
  obtain ⟨s₀, s₁, merges, divides, _, halves⟩ := arriving.divides picked
  obtain ⟨⟨mLive, kValid, mCell⟩, ⟨pLive, ⟨low, high, lowValid, highValid, pCell, _⟩, _⟩, _, good,
    nodup, used, _⟩ := arriving
  obtain ⟨dNotNull, fresh, live, ⟨mLive₁, fValid, mCell₁⟩, ⟨pLive₁, eValid, pCell₁, c₁Rep, c₂Rep⟩,
    ⟨dLive₁, gValid, dCell₁, c₃Rep, c₄Rep⟩, _, glob⟩ := halves
  have mNotNull : m ≠ 0 := fun null => good (null ▸ mLive)
  have pNotNull : p ≠ 0 := fun null => good (null ▸ pLive)
  simp only [Path23.labels_nil, List.append_nil] at nodup used
  have distinct : (d :: m :: (Wide.four p e f g c₁ c₂ c₃ c₄).labels).Nodup :=
    List.nodup_cons.mpr ⟨fun member => fresh (used d member), nodup⟩
  have moved : (d :: m :: (Wide.four p e f g c₁ c₂ c₃ c₄).labels).Perm
      (two m f (two p e c₁ c₂) (two d g c₃ c₄)).labels := by
    refine List.perm_iff_count.mpr fun a => ?_
    simp only [labels_two, Wide.labels, List.count_cons, List.count_append]
    omega
  have labels := moved.nodup_iff.mp distinct
  simp only [Wide.labels, List.nodup_cons, List.nodup_append', List.mem_cons, List.mem_append,
    not_or, List.disjoint_append_right] at distinct
  refine Exists.intro ?state (And.intro ?runs ?result)
  case runs =>
    simp [insertInto, mLive, mCell, pLive, pCell, mNotNull, pNotNull, lowValid, highValid, merges,
      divides, dNotNull, changeRootNode, setRelations, setLeftChild, setMidChild, setRightChild,
      adopt, setParent, setLchild, setRchild, addLevel, mLive₁, pLive₁, pCell₁, glob, dLive₁]
    rfl
  case result =>
    refine ⟨⟨?_, ?_, ?_, labels⟩, Machine.beside_insert (by simpa using live) fresh moved⟩
    · simp [Rep, mLive₁, pLive₁, dLive₁, mCell₁, pCell₁, dCell₁, distinct, eValid, fValid, gValid,
        c₁Rep, c₂Rep, c₃Rep, c₄Rep]
    · simp
    · simpa [live, good] using dNotNull.symm

/-- The right half moves in beside the left one, and the entry between them
goes on to the frame. -/
theorem Arriving.up {d : Addr} (picked : malloc.pick s.heap.1 s.heap.2 = some d)
    (arriving : Arriving s (frame :: path) (.four p e f g c₁ c₂ c₃ c₄) m k height total) :
    ∃ s', insertInto malloc (fuel + 1) m p s = insertInto malloc fuel m frame.label s' ∧
      s'.glob = s.glob ∧ s'.heap = (Insert.insert d s.heap.1, s.heap.2 + 1) ∧
      s'.beside (m :: ((frame.widen (two p e c₁ c₂) f (two d g c₃ c₄)).labels ++ path.labels)) =
        s.beside (m :: ((Wide.four p e f g c₁ c₂ c₃ c₄).labels ++ Path23.labels (frame :: path))) ∧
      Arriving s' path (frame.widen (two p e c₁ c₂) f (two d g c₃ c₄)) m f (height + 1) total := by
  obtain ⟨s₀, s₁, merges, divides, heap, halves⟩ := arriving.divides picked
  obtain ⟨⟨mLive, kValid, mCell⟩, ⟨pLive, ⟨low, high, lowValid, highValid, pCell, _⟩, _⟩, _, good,
    nodup, used, even, around, sorted⟩ := arriving
  obtain ⟨dNotNull, fresh, live, ⟨mLive₁, fValid, mCell₁⟩, left, right, ⟨frameRep, above⟩, glob⟩ :=
    halves
  have mNotNull : m ≠ 0 := fun null => good (null ▸ mLive)
  have pNotNull : p ≠ 0 := fun null => good (null ▸ pLive)
  have good₁ : 0 ∉ s₁.live := by simpa [live, good] using dNotNull.symm
  have moved : (m :: ((frame.widen (two p e c₁ c₂) f (two d g c₃ c₄)).labels ++ path.labels)).Perm
      (d :: m :: ((Wide.four p e f g c₁ c₂ c₃ c₄).labels ++ Path23.labels (frame :: path))) := by
    refine List.perm_iff_count.mpr fun a => ?_
    rw [List.count_cons, List.count_append, (frame.labels_widen _ _ _).count_eq]
    simp only [List.count_cons, List.count_append, Path23.labels_cons, labels_two, Wide.labels]
    omega
  have distinct : (d :: m :: ((Wide.four p e f g c₁ c₂ c₃ c₄).labels ++
      Path23.labels (frame :: path))).Nodup :=
    List.nodup_cons.mpr ⟨fun member => fresh (used d member), nodup⟩
  have nodup' := moved.nodup_iff.mpr distinct
  have used' : ∀ a ∈ m :: ((frame.widen (two p e c₁ c₂) f (two d g c₃ c₄)).labels ++ path.labels),
      a ∈ s₁.live := by
    intro a member
    rw [live, Finset.mem_insert]
    exact (List.mem_cons.mp (moved.subset member)).imp_right (used a)
  simp only [Path23.labels_cons, Wide.labels, List.nodup_cons, List.nodup_append', List.mem_cons,
    List.mem_append, not_or, List.disjoint_append_right, List.cons_append, List.append_assoc] at distinct
  obtain ⟨s₂, hangs⟩ : ∃ s₂, s₂ = s₁.modify d fun n => { n with parent := frame.label } := ⟨_, rfl⟩
  have frameRep₂ : FrameRep s₂ frame p (parentOf s.glob.slot path) (rootOf path) := by
    rw [hangs]
    exact ((FrameRep.readsLabels frame _ _ _).modify (by simp [distinct])).mpr frameRep
  have left₂ : Rep s₂ (two p e c₁ c₂) frame.label 0 := by
    rw [hangs]
    exact (Rep.modify (by simp [distinct])).mpr left
  have right₂ : Rep s₂ (two d g c₃ c₄) frame.label 0 := by
    rw [hangs]
    exact (Rep.reparent (by simp [distinct, List.nodup_append'])).mpr ⟨0, right⟩
  have above₂ : PathRep s₂ s.glob.slot path frame.label := by
    rw [hangs]
    exact (PathRep.modify (by simp [distinct])).mpr above
  have good₂ : 0 ∉ s₂.live := by simpa [hangs] using good₁
  obtain ⟨s₃, inserts, here, glob₃, within⟩ := insertDividedNode_apply frameRep₂ left₂ right₂ good₂
    around.1 pNotNull (List.nodup_append'.mp (List.nodup_cons.mp nodup').2).1
  have live₃ : s₃.live = s₁.live := by rw [within.live, hangs, Machine.modify_live]
  have same : s₃.glob = s.glob := by rw [glob₃, hangs, Machine.modify_glob, glob]
  have mOutside : m ∉ frame.labels := by simp [distinct]
  have mFrame : m ≠ frame.label := fun same => mOutside (same ▸ frame.label_mem_labels)
  have apart : frame.labels.Disjoint path.labels := by simp [distinct]
  have pathFrame : frame.label ∉ path.labels := apart frame.label_mem_labels
  have heap₃ : s₃.heap = (Insert.insert d s.heap.1, s.heap.2 + 1) := by
    rw [insertDividedNode_quiet _ _ _ s₂ () s₃ inserts, hangs, Machine.modify_heap, heap]
  refine ⟨s₃, ?_, same, heap₃, Machine.beside_insert (live₃.trans live) fresh moved.symm, ⟨⟨live₃ ▸ mLive₁, fValid, ?_⟩, by rwa [same], ?_, live₃ ▸ good₁, nodup',
    by rwa [live₃], ?_, around.2, ?_⟩⟩
  · have dLive : d ∈ s₁.live := right.1
    simp only [addr_two] at inserts
    simp [insertInto, mLive, mCell, pLive, pCell, mNotNull, pNotNull, lowValid, highValid, merges,
      divides, dNotNull, setParent, dLive, ← hangs, inserts]
  · rw [within.cell m (by simpa using mFrame), hangs,
      Machine.modify_cell_of_ne (Ne.symm (by simp [distinct]))]
    exact mCell₁
  · rw [same, Frame23.label_widen]
    exact ((PathRep.readsLabels _ path _).within within (by simp [pathFrame])).mpr above₂
  · exact around.1.widen (.two even.1 even.2.1) (.two even.2.2.1 even.2.2.2) f
  · rw [Frame23.inorder_widen]
    simpa [Wide.inorder, Path23.before, Path23.after] using sorted

/-- Insertion follows the derivation that it makes. -/
theorem insertInto_settles {wide : Wide Addr Entry}
    (arriving : Arriving s path wide m k height total) (serves : malloc.Serves (wide.splits path) s.heap)
    (top : s.glob.root = topOf path wide.label) (short : path.length < fuel) :
    ∃ s' tree deeper, insertInto malloc fuel m wide.label s = some (.ok, s') ∧
      Settles wide path tree deeper ∧ Settled s s' tree deeper ∧
      s'.beside tree.labels = s.beside (m :: (wide.labels ++ path.labels)) := by
  induction path generalizing s wide k height fuel with
  | nil =>
      obtain ⟨fuel, rfl⟩ : ∃ more, fuel = more + 1 := ⟨fuel - 1, by omega⟩
      cases wide with
      | three p e f c₁ c₂ c₃ =>
          obtain ⟨s', runs, settled, live⟩ := arriving.fits top
          exact ⟨s', _, 0, runs, .fits, settled, Machine.beside_erase live (.cons m (Path23.labels_plug _ _))⟩
      | four p e f g c₁ c₂ c₃ c₄ =>
          obtain ⟨d, picked, _⟩ := serves
          obtain ⟨s', runs, settled, kept⟩ := arriving.root picked
          exact ⟨s', _, 1, runs, .root, settled, by simpa using kept⟩
  | cons frame path ih =>
      obtain ⟨fuel, rfl⟩ : ∃ more, fuel = more + 1 := ⟨fuel - 1, by omega⟩
      cases wide with
      | three p e f c₁ c₂ c₃ =>
          obtain ⟨s', runs, settled, live⟩ := arriving.fits top
          exact ⟨s', _, 0, runs, .fits, settled, Machine.beside_erase live (.cons m (Path23.labels_plug _ _))⟩
      | four p e f g c₁ c₂ c₃ c₄ =>
          obtain ⟨d, picked, rest⟩ := serves
          obtain ⟨s₁, steps, glob, heap, kept₁, arriving₁⟩ := arriving.up picked
          simp only [List.length_cons] at short
          have rest₁ : malloc.Serves ((frame.widen (two p e c₁ c₂) f (two d g c₃ c₄)).splits path)
              s₁.heap := by
            rwa [heap, Frame23.splits_widen]
          obtain ⟨s', tree, deeper, runs, settles, settled, kept⟩ :=
            ih arriving₁ rest₁ (by simpa [glob] using top) (show path.length < fuel by omega)
          rw [Frame23.label_widen, ← steps] at runs
          exact ⟨s', tree, deeper, runs, .split settles, ⟨by simpa [glob] using settled.rep,
            by simpa [glob] using settled.glob, settled.good, settled.nodup⟩, kept.trans kept₁⟩

end Way

end GbfLibrary.TwoThree
