import GbfLibrary.Memory.Beside
import GbfLibrary.Trees.Reshape
import GbfLibrary.TwoThree.Represent

/-!
# Nodes without a key

`lbs_23tree_fix_null_node` runs along a derivation of `Shrinks`: each shape of
the function is one constructor of `Repair` or `Merge`.
-/

set_option autoImplicit false

namespace GbfLibrary.TwoThree

open Memory Prog Trees Tree23

/-- The node `n` in the hole of the path has lost its only key. -/
structure Deficit (s : TreeMachine) (path : LbsPath) (n : Addr) (rest : LbsTree)
    (height total : Nat) : Prop where
  live : n ∈ s.live
  cell : s.cell n = ⟨rootOf path, parentOf s.glob.slot path, addr rest, 0, 0, 0,
    INVALID_KEY_VALUE, 0, INVALID_KEY_VALUE, 0⟩
  below : Rep s rest n 0
  above : PathRep s s.glob.slot path n
  good : 0 ∉ s.live
  nodup : (n :: (rest.labels ++ path.labels)).Nodup
  even : rest.Uniform height
  around : path.Uniform (height + 1) total

/-- The subtree at the hole of the path is in order again. -/
structure Repaired (s s' : TreeMachine) (path : LbsPath) (full : LbsTree) : Prop where
  rep : Rep s' full (parentOf s.glob.slot path) (rootOf path)
  above : PathRep s' s.glob.slot path (addr full)
  glob : s'.glob = s.glob
  good : 0 ∉ s'.live

/-- The subtree below the node `p` is in order again, and `p` is without a key. -/
structure Merged (s s' : TreeMachine) (path : LbsPath) (p l r : Addr) (merged : LbsTree) : Prop
  where
  live : p ∈ s'.live
  cell : s'.cell p = ⟨rootOf path, parentOf s.glob.slot path, l, 0, 0, r,
    INVALID_KEY_VALUE, 0, INVALID_KEY_VALUE, 0⟩
  below : Rep s' merged p 0
  above : PathRep s' s.glob.slot path p
  glob : s'.glob = s.glob
  good : 0 ∉ s'.live

section Shapes

variable {s : TreeMachine} {p n b : Addr} {e f x y : Entry} {l r c₁ c₂ c₃ rest : LbsTree}
  {path : LbsPath} {height total fuel : Nat}

private theorem fixNullNode_rightBorrow
    (deficit : Deficit s (.threeRight p e f l (three b x y c₁ c₂ c₃) :: path) n rest height total) :
    ∃ s', fixNullNode (fuel + 1) n s = some (.ok, s') ∧
      Repaired s s' path (three p e y l (two b x c₁ c₂) (two n f c₃ rest)) ∧ s'.live = s.live := by
  obtain ⟨nLive, nCell, restRep, ⟨⟨pLive, eValid, fValid, pCell, lRep, bLive, xValid, yValid,
    bCell, c₁Rep, c₂Rep, c₃Rep⟩, outer⟩, good, nodup, even, ⟨_, brother⟩, _⟩ := deficit
  obtain ⟨c₁Even, c₂Even, c₃Even⟩ := brother.three_children
  simp only [List.nodup_cons, List.nodup_append', List.mem_cons, List.mem_append, not_or,
    Path23.labels_cons, Frame23.labels, labels_three, List.disjoint_append_right,
    List.disjoint_cons_right, List.cons_append, List.append_assoc] at nodup
  have nNotNull : n ≠ 0 := fun null => good (null ▸ nLive)
  have notSibling : n ≠ addr l := ne_addr nNotNull (by simp [nodup])
  have bNotNull : b ≠ 0 := fun null => good (null ▸ bLive)
  cases height with
  | zero =>
      obtain rfl := even.eq_nil
      obtain rfl := c₁Even.eq_nil
      obtain rfl := c₂Even.eq_nil
      obtain rfl := c₃Even.eq_nil
      refine Exists.intro ?leaf (And.intro ?leafRuns ?leafResult)
      case leafRuns =>
        simp [fixNullNode, rightBorrow, nLive, nCell, pLive, pCell, bLive, bCell, nodup, eValid,
          fValid, xValid, yValid, notSibling, Frame23.label]
        rfl
      case leafResult =>
        refine ⟨⟨?_, ?_, ?_, ?_⟩, ?_⟩
        · simp [Rep, nLive, nCell, pLive, pCell, bLive, bCell, nodup, eValid, fValid, xValid,
          yValid, lRep, Frame23.label]
        · simpa [nodup, Frame23.label] using outer
        · simp
        · simpa using good
        · simp
  | succ height =>
      have restInner := restRep.inner good even
      have c₁Inner := c₁Rep.inner good c₁Even
      have c₂Inner := c₂Rep.inner good c₂Even
      have c₃Inner := c₃Rep.inner good c₃Even
      refine Exists.intro ?inner (And.intro ?innerRuns ?innerResult)
      case innerRuns =>
        simp [fixNullNode, rightBorrow, setRightChild, setLeftChild, adopt, setRchild, setLchild,
          setMchild, setParent, nLive, nCell, pLive, pCell, bLive, bCell, nodup, eValid, fValid,
          xValid, yValid, notSibling, Frame23.label, nNotNull, bNotNull, restInner, c₂Inner,
          c₃Inner]
        rfl
      case innerResult =>
        refine ⟨⟨?_, ?_, ?_, ?_⟩, ?_⟩
        · simp [Rep, nLive, nCell, pLive, pCell, bLive, bCell, nodup, eValid, fValid, xValid,
          yValid, lRep, Frame23.label, restInner, c₂Inner, c₃Inner, c₁Rep]
        · simpa [nodup, Frame23.label, restInner, c₁Inner, c₂Inner, c₃Inner] using outer
        · simp
        · simpa using good
        · simp

private theorem fixNullNode_rightJoin
    (deficit : Deficit s (.threeRight p e f l (two b x c₁ c₂) :: path) n rest height total) :
    ∃ s', fixNullNode (fuel + 1) n s = some (.ok, s') ∧
      Repaired s s' path (two p e l (three b x f c₁ c₂ rest)) ∧ s'.live = s.live.erase n := by
  obtain ⟨nLive, nCell, restRep, ⟨⟨pLive, eValid, fValid, pCell, lRep, bLive, xValid, bCell,
    c₁Rep, c₂Rep⟩, outer⟩, good, nodup, even, ⟨_, brother⟩, _⟩ := deficit
  obtain ⟨c₁Even, c₂Even⟩ := brother.two_children
  simp only [List.nodup_cons, List.nodup_append', List.mem_cons, List.mem_append, not_or,
    Path23.labels_cons, Frame23.labels, labels_two, List.disjoint_append_right,
    List.disjoint_cons_right, List.cons_append, List.append_assoc] at nodup
  have nNotNull : n ≠ 0 := fun null => good (null ▸ nLive)
  have parentOther : p ≠ n := Ne.symm (by simp [nodup])
  have brotherOther : b ≠ n := Ne.symm (by simp [nodup])
  have notSibling : n ≠ addr l := ne_addr nNotNull (by simp [nodup])
  have pNotNull : p ≠ 0 := fun null => good (null ▸ pLive)
  have bNotNull : b ≠ 0 := fun null => good (null ▸ bLive)
  cases height with
  | zero =>
      obtain rfl := even.eq_nil
      obtain rfl := c₁Even.eq_nil
      obtain rfl := c₂Even.eq_nil
      refine Exists.intro ?leaf (And.intro ?leafRuns ?leafResult)
      case leafRuns =>
        simp [fixNullNode, rightJoin, setRightChild, setMidChild, adopt, setRchild, setMchild,
          setParent, nLive, nCell, pLive, pCell, bLive, bCell, nodup, eValid, fValid, notSibling,
          Frame23.label, free_apply, good, pNotNull, bNotNull]
        rfl
      case leafResult =>
        refine ⟨⟨?_, ?_, ?_, ?_⟩, ?_⟩
        · simp [Rep, pLive, pCell, bLive, bCell, nodup, eValid, fValid, xValid, parentOther,
          brotherOther, lRep]
        · simpa [nodup, Frame23.label] using outer
        · simp
        · simpa using fun _ => good
        · simp
  | succ height =>
      have restInner := restRep.inner good even
      have c₁Inner := c₁Rep.inner good c₁Even
      have c₂Inner := c₂Rep.inner good c₂Even
      refine Exists.intro ?inner (And.intro ?innerRuns ?innerResult)
      case innerRuns =>
        simp [fixNullNode, rightJoin, setRightChild, setMidChild, adopt, setRchild, setMchild,
          setParent, nLive, nCell, pLive, pCell, bLive, bCell, nodup, eValid, fValid, notSibling,
          Frame23.label, free_apply, good, pNotNull, bNotNull, restInner, c₂Inner]
        rfl
      case innerResult =>
        refine ⟨⟨?_, ?_, ?_, ?_⟩, ?_⟩
        · simp [Rep, pLive, pCell, bLive, bCell, nodup, eValid, fValid, xValid, parentOther,
          brotherOther, lRep, restInner, c₂Inner, c₁Rep]
        · simpa [nodup, Frame23.label, restInner, c₁Inner, c₂Inner] using outer
        · simp
        · simpa using fun _ => good
        · simp

private theorem fixNullNode_rightFromTwo
    (deficit : Deficit s (.twoRight p e (three b x y c₁ c₂ c₃) :: path) n rest height total) :
    ∃ s', fixNullNode (fuel + 1) n s = some (.ok, s') ∧
      Repaired s s' path (two p y (two b x c₁ c₂) (two n e c₃ rest)) ∧ s'.live = s.live := by
  obtain ⟨nLive, nCell, restRep, ⟨⟨pLive, eValid, pCell, bLive, xValid, yValid, bCell, c₁Rep,
    c₂Rep, c₃Rep⟩, outer⟩, good, nodup, even, brother, _⟩ := deficit
  obtain ⟨c₁Even, c₂Even, c₃Even⟩ := brother.three_children
  simp only [List.nodup_cons, List.nodup_append', List.mem_cons, List.mem_append, not_or,
    Path23.labels_cons, Frame23.labels, labels_three, List.disjoint_append_right,
    List.disjoint_cons_right, List.cons_append, List.append_assoc] at nodup
  have nNotNull : n ≠ 0 := fun null => good (null ▸ nLive)
  have bNotNull : b ≠ 0 := fun null => good (null ▸ bLive)
  cases height with
  | zero =>
      obtain rfl := even.eq_nil
      obtain rfl := c₁Even.eq_nil
      obtain rfl := c₂Even.eq_nil
      obtain rfl := c₃Even.eq_nil
      refine Exists.intro ?leaf (And.intro ?leafRuns ?leafResult)
      case leafRuns =>
        simp [fixNullNode, rightFromTwo, swapNodeValue, setRightChild, adopt, setRchild,
          setMchild, setParent, nLive, nCell, pLive, pCell, bLive, bCell, nodup, xValid, yValid,
          Frame23.label, nNotNull, bNotNull]
        rfl
      case leafResult =>
        refine ⟨⟨?_, ?_, ?_, ?_⟩, ?_⟩
        · simp [Rep, nLive, nCell, pLive, pCell, bLive, bCell, nodup, eValid, xValid, yValid,
          Frame23.label]
        · simpa [nodup, Frame23.label] using outer
        · simp
        · simpa using good
        · simp
  | succ height =>
      have restInner := restRep.inner good even
      have c₁Inner := c₁Rep.inner good c₁Even
      have c₂Inner := c₂Rep.inner good c₂Even
      have c₃Inner := c₃Rep.inner good c₃Even
      refine Exists.intro ?inner (And.intro ?innerRuns ?innerResult)
      case innerRuns =>
        simp [fixNullNode, rightFromTwo, swapNodeValue, setRightChild, setLeftChild, adopt,
          setRchild, setLchild, setMchild, setParent, nLive, nCell, pLive, pCell, bLive, bCell,
          nodup, xValid, yValid, Frame23.label, nNotNull, bNotNull, restInner, c₂Inner, c₃Inner]
        rfl
      case innerResult =>
        refine ⟨⟨?_, ?_, ?_, ?_⟩, ?_⟩
        · simp [Rep, nLive, nCell, pLive, pCell, bLive, bCell, nodup, eValid, xValid, yValid,
          Frame23.label, restInner, c₂Inner, c₃Inner, c₁Rep]
        · simpa [nodup, Frame23.label, restInner, c₁Inner, c₂Inner, c₃Inner] using outer
        · simp
        · simpa using good
        · simp

private theorem fixNullNode_middleBorrow
    (deficit : Deficit s (.threeMiddle p e f l (three b x y c₁ c₂ c₃) :: path) n rest height
      total) :
    ∃ s', fixNullNode (fuel + 1) n s = some (.ok, s') ∧
      Repaired s s' path (three p e x l (two n f rest c₁) (two b y c₂ c₃)) ∧ s'.live = s.live := by
  obtain ⟨nLive, nCell, restRep, ⟨⟨pLive, eValid, fValid, pCell, lRep, bLive, xValid, yValid,
    bCell, c₁Rep, c₂Rep, c₃Rep⟩, outer⟩, good, nodup, even, ⟨_, brother⟩, _⟩ := deficit
  obtain ⟨c₁Even, c₂Even, c₃Even⟩ := brother.three_children
  simp only [List.nodup_cons, List.nodup_append', List.mem_cons, List.mem_append, not_or,
    Path23.labels_cons, Frame23.labels, labels_three, List.disjoint_append_right,
    List.disjoint_cons_right, List.cons_append, List.append_assoc] at nodup
  have nNotNull : n ≠ 0 := fun null => good (null ▸ nLive)
  have notSibling : n ≠ addr l := ne_addr nNotNull (by simp [nodup])
  have bNotNull : b ≠ 0 := fun null => good (null ▸ bLive)
  cases height with
  | zero =>
      obtain rfl := even.eq_nil
      obtain rfl := c₁Even.eq_nil
      obtain rfl := c₂Even.eq_nil
      obtain rfl := c₃Even.eq_nil
      refine Exists.intro ?leaf (And.intro ?leafRuns ?leafResult)
      case leafRuns =>
        simp [fixNullNode, middleBorrow, nLive, nCell, pLive, pCell, bLive, bCell, nodup, xValid,
          yValid, notSibling, Frame23.label]
        rfl
      case leafResult =>
        refine ⟨⟨?_, ?_, ?_, ?_⟩, ?_⟩
        · simp [Rep, nLive, nCell, pLive, pCell, bLive, bCell, nodup, eValid, fValid, xValid,
          yValid, lRep, Frame23.label]
        · simpa [nodup, Frame23.label] using outer
        · simp
        · simpa using good
        · simp
  | succ height =>
      have restInner := restRep.inner good even
      have c₁Inner := c₁Rep.inner good c₁Even
      have c₂Inner := c₂Rep.inner good c₂Even
      have c₃Inner := c₃Rep.inner good c₃Even
      refine Exists.intro ?inner (And.intro ?innerRuns ?innerResult)
      case innerRuns =>
        simp [fixNullNode, middleBorrow, setRightChild, setLeftChild, adopt, setRchild, setLchild,
          setMchild, setParent, nLive, nCell, pLive, pCell, bLive, bCell, nodup, xValid, yValid,
          notSibling, Frame23.label, nNotNull, bNotNull, restInner, c₁Inner, c₂Inner]
        rfl
      case innerResult =>
        refine ⟨⟨?_, ?_, ?_, ?_⟩, ?_⟩
        · simp [Rep, nLive, nCell, pLive, pCell, bLive, bCell, nodup, eValid, fValid, xValid,
          yValid, lRep, Frame23.label, c₁Inner, c₂Inner, c₃Rep, restRep]
        · simpa [nodup, Frame23.label, restInner, c₁Inner, c₂Inner, c₃Inner] using outer
        · simp
        · simpa using good
        · simp

private theorem fixNullNode_middleJoin
    (deficit : Deficit s (.threeMiddle p e f l (two b x c₁ c₂) :: path) n rest height total) :
    ∃ s', fixNullNode (fuel + 1) n s = some (.ok, s') ∧
      Repaired s s' path (two p e l (three b f x rest c₁ c₂)) ∧ s'.live = s.live.erase n := by
  obtain ⟨nLive, nCell, restRep, ⟨⟨pLive, eValid, fValid, pCell, lRep, bLive, xValid, bCell,
    c₁Rep, c₂Rep⟩, outer⟩, good, nodup, even, ⟨_, brother⟩, _⟩ := deficit
  obtain ⟨c₁Even, c₂Even⟩ := brother.two_children
  simp only [List.nodup_cons, List.nodup_append', List.mem_cons, List.mem_append, not_or,
    Path23.labels_cons, Frame23.labels, labels_two, List.disjoint_append_right,
    List.disjoint_cons_right, List.cons_append, List.append_assoc] at nodup
  have nNotNull : n ≠ 0 := fun null => good (null ▸ nLive)
  have parentOther : p ≠ n := Ne.symm (by simp [nodup])
  have brotherOther : b ≠ n := Ne.symm (by simp [nodup])
  have notSibling : n ≠ addr l := ne_addr nNotNull (by simp [nodup])
  have bNotNull : b ≠ 0 := fun null => good (null ▸ bLive)
  cases height with
  | zero =>
      obtain rfl := even.eq_nil
      obtain rfl := c₁Even.eq_nil
      obtain rfl := c₂Even.eq_nil
      refine Exists.intro ?leaf (And.intro ?leafRuns ?leafResult)
      case leafRuns =>
        simp [fixNullNode, middleJoin, setMidChild, adopt, setMchild, setParent, nLive, nCell,
          pLive, pCell, bLive, bCell, nodup, notSibling, Frame23.label, free_apply, good, bNotNull]
        rfl
      case leafResult =>
        refine ⟨⟨?_, ?_, ?_, ?_⟩, ?_⟩
        · simp [Rep, pLive, pCell, bLive, bCell, nodup, eValid, fValid, xValid, parentOther,
          brotherOther, lRep]
        · simpa [nodup, Frame23.label] using outer
        · simp
        · simpa using fun _ => good
        · simp
  | succ height =>
      have restInner := restRep.inner good even
      have c₁Inner := c₁Rep.inner good c₁Even
      have c₂Inner := c₂Rep.inner good c₂Even
      refine Exists.intro ?inner (And.intro ?innerRuns ?innerResult)
      case innerRuns =>
        simp [fixNullNode, middleJoin, setLeftChild, setMidChild, adopt, setLchild, setMchild,
          setParent, nLive, nCell, pLive, pCell, bLive, bCell, nodup, notSibling, Frame23.label,
          free_apply, good, bNotNull, restInner, c₁Inner]
        rfl
      case innerResult =>
        refine ⟨⟨?_, ?_, ?_, ?_⟩, ?_⟩
        · simp [Rep, pLive, pCell, bLive, bCell, nodup, eValid, fValid, xValid, parentOther,
          brotherOther, lRep, restInner, c₁Inner, c₂Rep]
        · simpa [nodup, Frame23.label, restInner, c₁Inner, c₂Inner] using outer
        · simp
        · simpa using fun _ => good
        · simp

private theorem fixNullNode_leftBorrow
    (deficit : Deficit s (.threeLeft p e f (three b x y c₁ c₂ c₃) r :: path) n rest height total) :
    ∃ s', fixNullNode (fuel + 1) n s = some (.ok, s') ∧
      Repaired s s' path (three p x f (two n e rest c₁) (two b y c₂ c₃) r) ∧ s'.live = s.live := by
  obtain ⟨nLive, nCell, restRep, ⟨⟨pLive, eValid, fValid, pCell, ⟨bLive, xValid, yValid, bCell,
    c₁Rep, c₂Rep, c₃Rep⟩, rRep⟩, outer⟩, good, nodup, even, ⟨brother, _⟩, _⟩ := deficit
  obtain ⟨c₁Even, c₂Even, c₃Even⟩ := brother.three_children
  simp only [List.nodup_cons, List.nodup_append', List.mem_cons, List.mem_append, not_or,
    Path23.labels_cons, Frame23.labels, labels_three, List.disjoint_append_right,
    List.disjoint_cons_right, List.cons_append, List.append_assoc] at nodup
  have nNotNull : n ≠ 0 := fun null => good (null ▸ nLive)
  have bNotNull : b ≠ 0 := fun null => good (null ▸ bLive)
  cases height with
  | zero =>
      obtain rfl := even.eq_nil
      obtain rfl := c₁Even.eq_nil
      obtain rfl := c₂Even.eq_nil
      obtain rfl := c₃Even.eq_nil
      refine Exists.intro ?leaf (And.intro ?leafRuns ?leafResult)
      case leafRuns =>
        simp [fixNullNode, leftBorrow, nLive, nCell, pLive, pCell, bLive, bCell, nodup, eValid,
          fValid, xValid, yValid, Frame23.label]
        rfl
      case leafResult =>
        refine ⟨⟨?_, ?_, ?_, ?_⟩, ?_⟩
        · simp [Rep, nLive, nCell, pLive, pCell, bLive, bCell, nodup, eValid, fValid, xValid,
          yValid, rRep, Frame23.label]
        · simpa [nodup, Frame23.label] using outer
        · simp
        · simpa using good
        · simp
  | succ height =>
      have restInner := restRep.inner good even
      have c₁Inner := c₁Rep.inner good c₁Even
      have c₂Inner := c₂Rep.inner good c₂Even
      have c₃Inner := c₃Rep.inner good c₃Even
      refine Exists.intro ?inner (And.intro ?innerRuns ?innerResult)
      case innerRuns =>
        simp [fixNullNode, leftBorrow, setRightChild, setLeftChild, adopt, setRchild, setLchild,
          setMchild, setParent, nLive, nCell, pLive, pCell, bLive, bCell, nodup, eValid, fValid,
          xValid, yValid, Frame23.label, nNotNull, bNotNull, restInner, c₁Inner, c₂Inner]
        rfl
      case innerResult =>
        refine ⟨⟨?_, ?_, ?_, ?_⟩, ?_⟩
        · simp [Rep, nLive, nCell, pLive, pCell, bLive, bCell, nodup, eValid, fValid, xValid,
          yValid, rRep, Frame23.label, c₁Inner, c₂Inner, c₃Rep, restRep]
        · simpa [nodup, Frame23.label, restInner, c₁Inner, c₂Inner, c₃Inner] using outer
        · simp
        · simpa using good
        · simp

private theorem fixNullNode_leftJoin
    (deficit : Deficit s (.threeLeft p e f (two b x c₁ c₂) r :: path) n rest height total) :
    ∃ s', fixNullNode (fuel + 1) n s = some (.ok, s') ∧
      Repaired s s' path (two p f (three n e x rest c₁ c₂) r) ∧ s'.live = s.live.erase b := by
  obtain ⟨nLive, nCell, restRep, ⟨⟨pLive, eValid, fValid, pCell, ⟨bLive, xValid, bCell, c₁Rep,
    c₂Rep⟩, rRep⟩, outer⟩, good, nodup, even, ⟨brother, _⟩, _⟩ := deficit
  obtain ⟨c₁Even, c₂Even⟩ := brother.two_children
  simp only [List.nodup_cons, List.nodup_append', List.mem_cons, List.mem_append, not_or,
    Path23.labels_cons, Frame23.labels, labels_two, List.disjoint_append_right,
    List.disjoint_cons_right, List.cons_append, List.append_assoc] at nodup
  cases height with
  | zero =>
      obtain rfl := even.eq_nil
      obtain rfl := c₁Even.eq_nil
      obtain rfl := c₂Even.eq_nil
      refine Exists.intro ?leaf (And.intro ?leafRuns ?leafResult)
      case leafRuns =>
        simp [fixNullNode, leftJoin, setMchild, nLive, nCell, pLive, pCell, bLive, bCell, nodup,
          eValid, fValid, Frame23.label, free_apply, good]
        rfl
      case leafResult =>
        refine ⟨⟨?_, ?_, ?_, ?_⟩, ?_⟩
        · simp [Rep, nLive, nCell, pLive, pCell, nodup, eValid, fValid, xValid, rRep, Frame23.label]
        · simpa [nodup, Frame23.label] using outer
        · simp
        · simpa using fun _ => good
        · simp
  | succ height =>
      have restInner := restRep.inner good even
      have c₁Inner := c₁Rep.inner good c₁Even
      have c₂Inner := c₂Rep.inner good c₂Even
      refine Exists.intro ?inner (And.intro ?innerRuns ?innerResult)
      case innerRuns =>
        simp [fixNullNode, leftJoin, setRchild, setMchild, setParent, nLive, nCell, pLive, pCell,
          bLive, bCell, nodup, eValid, fValid, Frame23.label, free_apply, good, restInner,
          c₁Inner, c₂Inner]
        rfl
      case innerResult =>
        refine ⟨⟨?_, ?_, ?_, ?_⟩, ?_⟩
        · simp [Rep, nLive, nCell, pLive, pCell, nodup, eValid, fValid, xValid, rRep,
          Frame23.label, c₁Inner, c₂Inner, restRep]
        · simpa [nodup, Frame23.label, restInner, c₁Inner, c₂Inner] using outer
        · simp
        · simpa using fun _ => good
        · simp

private theorem fixNullNode_leftFromTwo
    (deficit : Deficit s (.twoLeft p e (three b x y c₁ c₂ c₃) :: path) n rest height total) :
    ∃ s', fixNullNode (fuel + 1) n s = some (.ok, s') ∧
      Repaired s s' path (two p x (two n e rest c₁) (two b y c₂ c₃)) ∧ s'.live = s.live := by
  obtain ⟨nLive, nCell, restRep, ⟨⟨pLive, eValid, pCell, bLive, xValid, yValid, bCell, c₁Rep,
    c₂Rep, c₃Rep⟩, outer⟩, good, nodup, even, brother, _⟩ := deficit
  obtain ⟨c₁Even, c₂Even, c₃Even⟩ := brother.three_children
  simp only [List.nodup_cons, List.nodup_append', List.mem_cons, List.mem_append, not_or,
    Path23.labels_cons, Frame23.labels, labels_three, List.disjoint_append_right,
    List.disjoint_cons_right, List.cons_append, List.append_assoc] at nodup
  cases height with
  | zero =>
      obtain rfl := even.eq_nil
      obtain rfl := c₁Even.eq_nil
      obtain rfl := c₂Even.eq_nil
      obtain rfl := c₃Even.eq_nil
      refine Exists.intro ?leaf (And.intro ?leafRuns ?leafResult)
      case leafRuns =>
        simp [fixNullNode, leftFromTwo, nLive, nCell, pLive, pCell, bLive, bCell, nodup, xValid,
          yValid, Frame23.label]
        rfl
      case leafResult =>
        refine ⟨⟨?_, ?_, ?_, ?_⟩, ?_⟩
        · simp [Rep, nLive, nCell, pLive, pCell, bLive, bCell, nodup, eValid, xValid, yValid,
          Frame23.label]
        · simpa [nodup, Frame23.label] using outer
        · simp
        · simpa using good
        · simp
  | succ height =>
      have restInner := restRep.inner good even
      have c₁Inner := c₁Rep.inner good c₁Even
      have c₂Inner := c₂Rep.inner good c₂Even
      have c₃Inner := c₃Rep.inner good c₃Even
      refine Exists.intro ?inner (And.intro ?innerRuns ?innerResult)
      case innerRuns =>
        simp [fixNullNode, leftFromTwo, setRchild, setLchild, setMchild, setParent, nLive, nCell,
          pLive, pCell, bLive, bCell, nodup, xValid, yValid, Frame23.label, restInner, c₁Inner]
        rfl
      case innerResult =>
        refine ⟨⟨?_, ?_, ?_, ?_⟩, ?_⟩
        · simp [Rep, nLive, nCell, pLive, pCell, bLive, bCell, nodup, eValid, xValid, yValid,
          Frame23.label, c₁Inner, c₂Rep, c₃Rep, restRep]
        · simpa [nodup, Frame23.label, restInner, c₁Inner, c₂Inner, c₃Inner] using outer
        · simp
        · simpa using good
        · simp

private theorem rightMerge_apply
    (deficit : Deficit s (.twoRight p e (two b x c₁ c₂) :: path) n rest height total) :
    ∃ s', rightMerge p n b s = some ((), s') ∧ Merged s s' path p b n (three b x e c₁ c₂ rest) ∧
      s'.live = s.live.erase n := by
  obtain ⟨nLive, nCell, restRep, ⟨⟨pLive, eValid, pCell, bLive, xValid, bCell, c₁Rep, c₂Rep⟩,
    outer⟩, good, nodup, even, brother, _⟩ := deficit
  obtain ⟨c₁Even, c₂Even⟩ := brother.two_children
  simp only [List.nodup_cons, List.nodup_append', List.mem_cons, List.mem_append, not_or,
    Path23.labels_cons, Frame23.labels, labels_two, List.disjoint_append_right,
    List.disjoint_cons_right, List.cons_append, List.append_assoc] at nodup
  have parentOther : p ≠ n := Ne.symm (by simp [nodup])
  have brotherOther : b ≠ n := Ne.symm (by simp [nodup])
  have bNotNull : b ≠ 0 := fun null => good (null ▸ bLive)
  cases height with
  | zero =>
      obtain rfl := even.eq_nil
      obtain rfl := c₁Even.eq_nil
      obtain rfl := c₂Even.eq_nil
      refine Exists.intro ?leaf (And.intro ?leafRuns ?leafResult)
      case leafRuns =>
        simp [rightMerge, nLive, nCell, pLive, pCell, bLive, bCell, nodup, Frame23.label,
          free_apply, good]
        rfl
      case leafResult =>
        refine ⟨⟨?_, ?_, ?_, ?_, ?_, ?_⟩, ?_⟩
        · simp [pLive, parentOther]
        · simp [pCell, nodup]
        · simp [Rep, bLive, bCell, nodup, eValid, xValid, brotherOther]
        · simpa [nodup, Frame23.label] using outer
        · simp
        · simpa using fun _ => good
        · simp
  | succ height =>
      have restInner := restRep.inner good even
      have c₁Inner := c₁Rep.inner good c₁Even
      have c₂Inner := c₂Rep.inner good c₂Even
      refine Exists.intro ?inner (And.intro ?innerRuns ?innerResult)
      case innerRuns =>
        simp [rightMerge, setRightChild, setMidChild, adopt, setRchild, setMchild, setParent,
          nLive, nCell, pLive, pCell, bLive, bCell, nodup, Frame23.label, free_apply, good,
          bNotNull, restInner, c₂Inner]
        rfl
      case innerResult =>
        refine ⟨⟨?_, ?_, ?_, ?_, ?_, ?_⟩, ?_⟩
        · simp [pLive, parentOther]
        · simp [pCell, nodup, restInner, c₂Inner]
        · simp [Rep, bLive, bCell, nodup, eValid, xValid, brotherOther, restInner, c₂Inner, c₁Rep]
        · simpa [nodup, Frame23.label, restInner, c₁Inner, c₂Inner] using outer
        · simp
        · simpa using fun _ => good
        · simp

private theorem leftMerge_apply
    (deficit : Deficit s (.twoLeft p e (two b x c₁ c₂) :: path) n rest height total) :
    ∃ s', leftMerge p n b s = some ((), s') ∧ Merged s s' path p n b (three b e x rest c₁ c₂) ∧
      s'.live = s.live.erase n := by
  obtain ⟨nLive, nCell, restRep, ⟨⟨pLive, eValid, pCell, bLive, xValid, bCell, c₁Rep, c₂Rep⟩,
    outer⟩, good, nodup, even, brother, _⟩ := deficit
  obtain ⟨c₁Even, c₂Even⟩ := brother.two_children
  simp only [List.nodup_cons, List.nodup_append', List.mem_cons, List.mem_append, not_or,
    Path23.labels_cons, Frame23.labels, labels_two, List.disjoint_append_right,
    List.disjoint_cons_right, List.cons_append, List.append_assoc] at nodup
  have parentOther : p ≠ n := Ne.symm (by simp [nodup])
  have brotherOther : b ≠ n := Ne.symm (by simp [nodup])
  cases height with
  | zero =>
      obtain rfl := even.eq_nil
      obtain rfl := c₁Even.eq_nil
      obtain rfl := c₂Even.eq_nil
      refine Exists.intro ?leaf (And.intro ?leafRuns ?leafResult)
      case leafRuns =>
        simp [leftMerge, nLive, nCell, pLive, pCell, bLive, bCell, nodup, Frame23.label,
          free_apply, good]
        rfl
      case leafResult =>
        refine ⟨⟨?_, ?_, ?_, ?_, ?_, ?_⟩, ?_⟩
        · simp [pLive, parentOther]
        · simp [pCell, nodup]
        · simp [Rep, bLive, bCell, nodup, eValid, xValid, brotherOther]
        · simpa [nodup, Frame23.label] using outer
        · simp
        · simpa using fun _ => good
        · simp
  | succ height =>
      have restInner := restRep.inner good even
      have c₁Inner := c₁Rep.inner good c₁Even
      have c₂Inner := c₂Rep.inner good c₂Even
      refine Exists.intro ?inner (And.intro ?innerRuns ?innerResult)
      case innerRuns =>
        simp [leftMerge, setLchild, setMchild, setParent, nLive, nCell, pLive, pCell, bLive,
          bCell, nodup, Frame23.label, free_apply, good, restInner]
        rfl
      case innerResult =>
        refine ⟨⟨?_, ?_, ?_, ?_, ?_, ?_⟩, ?_⟩
        · simp [pLive, parentOther]
        · simp [pCell, nodup, restInner]
        · simp [Rep, bLive, bCell, nodup, eValid, xValid, brotherOther, restInner, c₁Rep, c₂Rep]
        · simpa [nodup, Frame23.label, restInner, c₁Inner, c₂Inner] using outer
        · simp
        · simpa using fun _ => good
        · simp

end Shapes

/-!
## The way up
-/

section Merges

variable {s s' : TreeMachine} {p n b : Addr} {e f x : Entry} {c₁ c₂ c₃ rest merged : LbsTree}
  {path : LbsPath} {height total fuel : Nat}

/-- What `lbs_23tree_fix_null_node` goes on with after a merge. -/
def afterMerge (fuel : Nat) (p b : Addr) (clear : TreeProg Unit) (root : Int) : TreeProg Status :=
  if root = 1 then (do
    dropRoot b p
    return .ok)
  else (do
    clear
    fixNullNode fuel p)

private theorem fixNullNode_right
    (deficit : Deficit s (.twoRight p e (two b x c₁ c₂) :: path) n rest height total) :
    fixNullNode (fuel + 1) n s =
      (rightMerge p n b >>= fun _ => afterMerge fuel p b (setRchild p 0) (rootOf path)) s := by
  obtain ⟨nLive, nCell, restRep, ⟨⟨pLive, eValid, pCell, bLive, xValid, bCell, c₁Rep, c₂Rep⟩,
    outer⟩, good, nodup, even, brother, _⟩ := deficit
  simp only [List.nodup_cons, List.mem_append, not_or, Path23.labels_cons, Frame23.labels,
    labels_two, List.mem_cons] at nodup
  simp [fixNullNode, nLive, nCell, pLive, pCell, bLive, bCell, nodup, Frame23.label, afterMerge]

private theorem fixNullNode_left
    (deficit : Deficit s (.twoLeft p e (two b x c₁ c₂) :: path) n rest height total) :
    fixNullNode (fuel + 1) n s =
      (leftMerge p n b >>= fun _ => afterMerge fuel p b
        (do
          setLchild p b
          setRchild p 0) (rootOf path)) s := by
  obtain ⟨nLive, nCell, restRep, ⟨⟨pLive, eValid, pCell, bLive, xValid, bCell, c₁Rep, c₂Rep⟩,
    outer⟩, good, nodup, even, brother, _⟩ := deficit
  simp [fixNullNode, nLive, nCell, pLive, pCell, bLive, bCell, Frame23.label, afterMerge]

/-- The root `p` has lost its only key, and `b` takes its place. -/
theorem dropRoot_apply {l r : Addr} (good : 0 ∉ s.live) (live : p ∈ s.live)
    (cell : s.cell p = ⟨1, s.glob.slot, l, 0, 0, r, INVALID_KEY_VALUE, 0, INVALID_KEY_VALUE, 0⟩)
    (below : Rep s (three b e f c₁ c₂ c₃) p 0) (outside : p ∉ (three b e f c₁ c₂ c₃).labels)
    (nodup : (three b e f c₁ c₂ c₃).labels.Nodup) :
    ∃ s', dropRoot b p s = some ((), s') ∧ Rep s' (three b e f c₁ c₂ c₃) s.glob.slot 1 ∧
      s'.glob = { s.glob with root := b, level := s.glob.level - 1 } ∧ 0 ∉ s'.live ∧
      s'.live = s.live.erase p := by
  obtain ⟨bLive, eValid, fValid, bCell, c₁Rep, c₂Rep, c₃Rep⟩ := below
  simp only [labels_three, List.nodup_cons, List.mem_cons, List.mem_append, not_or] at outside nodup
  have bNotNull : b ≠ 0 := fun null => good (null ▸ bLive)
  have other : b ≠ p := Ne.symm outside.1
  refine Exists.intro ?state (And.intro ?runs ?result)
  case runs =>
    simp [dropRoot, addLevel, changeRootNode, setParent, live, cell, bLive, bNotNull, free_apply,
      good]
    rfl
  case result =>
    refine ⟨?_, ?_, ?_, ?_⟩
    · simp [Rep, bLive, other, bCell, outside, nodup, eValid, fValid, c₁Rep, c₂Rep, c₃Rep]
    · simp [Int.sub_eq_add_neg]
    · simpa using fun _ => good
    · simp

/-- Unhooking the child that is gone leaves `p` in the place of `n`. -/
theorem Merged.deficit {frame : LbsFrame} {l r : Addr} (f : Node → Node)
    (result : Merged s s' path frame.label l r merged) (merge : Merge frame rest merged)
    (deficit : Deficit s (frame :: path) n rest height total)
    (cleared : f (s'.cell frame.label) = ⟨rootOf path, parentOf s.glob.slot path, addr merged, 0, 0,
      0, INVALID_KEY_VALUE, 0, INVALID_KEY_VALUE, 0⟩) :
    Deficit (s'.modify frame.label f) path frame.label merged (height + 1) total := by
  have moved : (frame.label :: (merged.labels ++ path.labels)).Perm
      (rest.labels ++ (frame.labels ++ path.labels)) := by
    simpa using merge.labels.append_right path.labels
  have nodup := moved.nodup_iff.mpr (List.nodup_cons.mp deficit.nodup).2
  have distinct := nodup
  simp only [List.nodup_cons, List.mem_append, not_or] at distinct
  obtain ⟨⟨outside, apart⟩, _⟩ := distinct
  refine ⟨by simpa using result.live, ?_, ?_, ?_, by simpa using result.good, nodup,
    merge.uniform deficit.around.1 deficit.even, deficit.around.2⟩
  · simpa [result.glob] using cleared
  · simpa [outside] using result.below
  · simpa [apart, result.glob] using result.above

private theorem fixNullNode_merge {frame : LbsFrame} (merge : Merge frame rest merged)
    (deficit : Deficit s (frame :: path) n rest height total) (nonempty : path ≠ []) :
    ∃ s', fixNullNode (fuel + 1) n s = fixNullNode fuel frame.label s' ∧ s'.glob = s.glob ∧
      s'.live = s.live.erase n ∧ Deficit s' path frame.label merged (height + 1) total := by
  have notRoot : rootOf path ≠ 1 := by
    cases path with
    | nil => exact absurd rfl nonempty
    | cons => simp
  cases merge with
  | right =>
      obtain ⟨s₁, runs, result, live⟩ := rightMerge_apply deficit
      refine ⟨_, ?_, ?_, ?_, result.deficit (fun m => { m with rchild := 0 }) .right deficit ?_⟩
      · rw [fixNullNode_right deficit]
        simp [runs, afterMerge, notRoot, setRchild, result.live, Frame23.label]
      · simpa using result.glob
      · simpa using live
      · simp [Frame23.label, result.cell]
  | @left p b e x c₁ c₂ _ =>
      obtain ⟨s₁, runs, result, live⟩ := leftMerge_apply deficit
      refine ⟨_, ?_, ?_, ?_,
        result.deficit (fun m => { m with lchild := b, rchild := 0 }) .left deficit ?_⟩
      · rw [fixNullNode_left deficit]
        simp [runs, afterMerge, notRoot, setRchild, setLchild, result.live, Frame23.label,
          Machine.modify_modify, Function.comp_def]
      · simpa using result.glob
      · simpa using live
      · simp [Frame23.label, result.cell]

/-- What deletion leaves of a tree whose rebalancing is done. -/
structure Rebuilt (s s' : TreeMachine) (tree : LbsTree) (lower : Nat) : Prop where
  rep : Rep s' tree s.glob.slot 1
  glob : s'.glob = { s.glob with root := addr tree, level := s.glob.level - lower }
  good : 0 ∉ s'.live

private theorem fixNullNode_mergeRoot {frame : LbsFrame} (merge : Merge frame rest merged)
    (deficit : Deficit s [frame] n rest height total) :
    ∃ s', fixNullNode (fuel + 1) n s = some (.ok, s') ∧ Rebuilt s s' merged 1 ∧
      s'.beside merged.labels = s.beside (n :: (rest.labels ++ frame.labels)) := by
  have moved := merge.labels
  have around : (rest.labels ++ frame.labels).Nodup := by
    simpa using (List.nodup_cons.mp deficit.nodup).2
  obtain ⟨outside, nodup⟩ := List.nodup_cons.mp (moved.nodup_iff.mpr around)
  cases merge with
  | right =>
      obtain ⟨s₁, runs, result, live⟩ := rightMerge_apply deficit
      obtain ⟨s', drops, rep, glob, good, dropped⟩ := dropRoot_apply result.good result.live
        (by simpa [result.glob] using result.cell) result.below outside nodup
      refine ⟨s', ?_, ⟨by simpa [result.glob] using rep, by simpa [result.glob] using glob, good⟩, ?_⟩
      · rw [fixNullNode_right deficit]
        simp [runs, afterMerge, drops]
      · exact (Machine.beside_erase dropped moved).trans (Machine.beside_erase live (List.Perm.refl _))
  | left =>
      obtain ⟨s₁, runs, result, live⟩ := leftMerge_apply deficit
      obtain ⟨s', drops, rep, glob, good, dropped⟩ := dropRoot_apply result.good result.live
        (by simpa [result.glob] using result.cell) result.below outside nodup
      refine ⟨s', ?_, ⟨by simpa [result.glob] using rep, by simpa [result.glob] using glob, good⟩, ?_⟩
      · rw [fixNullNode_left deficit]
        simp [runs, afterMerge, drops]
      · exact (Machine.beside_erase dropped moved).trans (Machine.beside_erase live (List.Perm.refl _))

private theorem fixNullNode_repair {frame : LbsFrame} {full : LbsTree} (repair : Repair frame n rest full)
    (deficit : Deficit s (frame :: path) n rest height total) :
    ∃ s', fixNullNode (fuel + 1) n s = some (.ok, s') ∧ Repaired s s' path full ∧
      s'.live = s.live \ (frame.leftOver n).toFinset := by
  cases repair with
  | rightFromTwo =>
      obtain ⟨s', runs, repaired, live⟩ := fixNullNode_rightFromTwo deficit
      exact ⟨s', runs, repaired, by simpa [Frame23.leftOver] using live⟩
  | leftFromTwo =>
      obtain ⟨s', runs, repaired, live⟩ := fixNullNode_leftFromTwo deficit
      exact ⟨s', runs, repaired, by simpa [Frame23.leftOver] using live⟩
  | rightBorrow =>
      obtain ⟨s', runs, repaired, live⟩ := fixNullNode_rightBorrow deficit
      exact ⟨s', runs, repaired, by simpa [Frame23.leftOver] using live⟩
  | rightJoin =>
      obtain ⟨s', runs, repaired, live⟩ := fixNullNode_rightJoin deficit
      exact ⟨s', runs, repaired, by simpa [Frame23.leftOver, Finset.sdiff_singleton_eq_erase] using live⟩
  | middleBorrow =>
      obtain ⟨s', runs, repaired, live⟩ := fixNullNode_middleBorrow deficit
      exact ⟨s', runs, repaired, by simpa [Frame23.leftOver] using live⟩
  | middleJoin =>
      obtain ⟨s', runs, repaired, live⟩ := fixNullNode_middleJoin deficit
      exact ⟨s', runs, repaired, by simpa [Frame23.leftOver, Finset.sdiff_singleton_eq_erase] using live⟩
  | leftBorrow =>
      obtain ⟨s', runs, repaired, live⟩ := fixNullNode_leftBorrow deficit
      exact ⟨s', runs, repaired, by simpa [Frame23.leftOver] using live⟩
  | leftJoin =>
      obtain ⟨s', runs, repaired, live⟩ := fixNullNode_leftJoin deficit
      exact ⟨s', runs, repaired, by simpa [Frame23.leftOver, Finset.sdiff_singleton_eq_erase] using live⟩

/-- A repair keeps the node of the frame at its place. -/
theorem addr_repair {frame : LbsFrame} {full : LbsTree} (repair : Repair frame n rest full) :
    addr full = frame.label := by
  cases repair <;> rfl

private theorem fixNullNode_last (deficit : Deficit s [] n nil height total) :
    ∃ s', fixNullNode (fuel + 1) n s = some (.ok, s') ∧ Rebuilt s s' nil 1 ∧ s'.live = s.live.erase n := by
  obtain ⟨live, cell, _, _, good, _⟩ := deficit
  refine Exists.intro ?state (And.intro ?runs ?result)
  case runs =>
    simp [fixNullNode, dropRoot, addLevel, changeRootNode, live, cell, free_apply, good]
    rfl
  case result =>
    exact ⟨⟨trivial, by simp [Int.sub_eq_add_neg], by simpa using fun _ => good⟩, by simp⟩

theorem fixNullNode_shrinks {tree : LbsTree} {lower : Nat} (shrinks : Shrinks path n rest tree lower)
    (deficit : Deficit s path n rest height total) (leaf : path = [] → rest = nil)
    (top : s.glob.root = topOf path n) (short : path.length < fuel) :
    ∃ s', fixNullNode fuel n s = some (.ok, s') ∧ Rebuilt s s' tree lower ∧
      s'.beside tree.labels = s.beside (n :: (rest.labels ++ path.labels)) := by
  induction shrinks generalizing s height fuel with
  | root =>
      obtain ⟨fuel, rfl⟩ : ∃ more, fuel = more + 1 := ⟨fuel - 1, by omega⟩
      obtain rfl := leaf rfl
      obtain ⟨s', runs, rebuilt, live⟩ := fixNullNode_last deficit
      exact ⟨s', runs, rebuilt, Machine.beside_erase live (by simp)⟩
  | @repair frame n rest full path here =>
      obtain ⟨fuel, rfl⟩ : ∃ more, fuel = more + 1 := ⟨fuel - 1, by omega⟩
      obtain ⟨s', runs, ⟨rep, above, glob, good⟩, live⟩ := fixNullNode_repair here deficit
      refine ⟨s', runs, ⟨rep_plug.mpr ⟨rep, above⟩, ?_, good⟩, ?_⟩
      · rw [topOf_cons] at top
        rw [addr_plug, addr_repair here, glob, ← top]
        simp
      · refine Machine.beside_sdiff live ?_
        have moved := (here.leftOver.append_right path.labels)
        refine ((Path23.labels_plug path full).append_left _).trans ?_
        simpa using moved
  | @merge frame n rest merged tree path lower here above ih =>
      obtain ⟨fuel, rfl⟩ : ∃ more, fuel = more + 1 := ⟨fuel - 1, by omega⟩
      by_cases atRoot : path = []
      · subst atRoot
        cases above with
        | root =>
            obtain ⟨s', runs, rebuilt, kept⟩ := fixNullNode_mergeRoot here deficit
            exact ⟨s', runs, rebuilt, by simpa using kept⟩
      · obtain ⟨s₁, steps, glob, live, deficit₁⟩ := fixNullNode_merge here deficit atRoot
        simp only [List.length_cons] at short
        obtain ⟨s', runs, rebuilt, kept⟩ :=
          ih deficit₁ (fun empty => absurd empty atRoot) (by simpa [glob] using top)
            (show path.length < fuel by omega)
        rw [← steps] at runs
        have moved : (frame.label :: (merged.labels ++ path.labels)).Perm
            (rest.labels ++ Path23.labels (frame :: path)) := by
          simpa using here.labels.append_right path.labels
        refine ⟨s', runs, ⟨by simpa [glob] using rebuilt.rep, by simpa [glob] using rebuilt.glob,
          rebuilt.good⟩, ?_⟩
        rw [kept]
        exact Machine.beside_erase live (List.Perm.cons n moved)

end Merges

end GbfLibrary.TwoThree
