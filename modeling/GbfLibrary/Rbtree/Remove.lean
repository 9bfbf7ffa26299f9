import GbfLibrary.Rbtree.Represent

/-!
# The removal loop

The loop of `rbt_remove` runs along a derivation of `Shrink`. The operated node
has lost its entry, and both its child pointers name the only subtree.
-/

set_option autoImplicit false

namespace GbfLibrary.Rbtree

open Memory Prog Trees ColoredTree

/-- The state at the head of the loop. -/
structure Leaving (s : RbMachine) (path : RbPath) (op : Addr) (red : Bool) (rest : RbTree) :
    Prop where
  live : op ∈ s.live
  cell : ∃ e : Entry, s.cell op =
    ⟨statusOf red false path.isEmpty, e.1, e.2, parentOf s.glob.self path, addr rest, addr rest⟩
  below : Rep s rest op false
  frames : RepPath s s.glob.self path op red
  top : s.glob.root = path.top op
  nodup : (op :: (rest.labels ++ path.labels)).Nodup
  good : 0 ∉ s.live
  restBlack : rest.isRed = false

/-- The state after the loop. -/
structure Shrunk (s s' : RbMachine) (tree : RbTree) (higher : Nat) (touched : List Addr) :
    Prop where
  rep : Rep s' tree s.glob.self true
  glob : s'.glob = { s.glob with root := addr tree, depth := s.glob.depth - higher }
  within : Within touched s s'

/-- A change inside the tree that keeps the root and the number of levels. -/
theorem Shrunk.plug {s s' : RbMachine} {path : RbPath} {hole : Addr} {tree : RbTree}
    {touched : List Addr} (top : s.glob.root = path.top hole) (same : addr tree = hole)
    (rep : Rep s' tree (parentOf s.glob.self path) path.isEmpty)
    (frames : RepPath s' s.glob.self path hole tree.isRed) (glob : s'.glob = s.glob)
    (within : Within touched s s') : Shrunk s s' (path.plug tree) 0 touched := by
  refine ⟨rep_plug.mpr ⟨rep, by rw [same]; exact frames⟩, ?_, within⟩
  simp [glob, same, ← top]

/-- The loop after an iteration that kept the globals. -/
theorem Shrunk.after {s s₁ s' : RbMachine} {tree : RbTree} {higher : Nat}
    {touched more : List Addr} (shrunk : Shrunk s₁ s' tree higher touched)
    (glob : s₁.glob = s.glob) (within : Within more s s₁) (included : touched ⊆ more) :
    Shrunk s s' tree higher more :=
  ⟨glob ▸ shrunk.rep, by rw [shrunk.glob, glob], within.trans (shrunk.within.mono included)⟩

section Cases

variable {s : RbMachine} {op p b n g : Addr} {pe be ne ge : Entry} {rest w x y z : RbTree}
  {path : RbPath} {red : Bool}

private theorem removeRedBrother_inner
    (leaving : Leaving s (⟨.right, p, false, pe,
      node b true be x (node n false ne (node g true ge w z) y)⟩ :: path) op false rest)
    (black : y.isRed = false) :
    ∃ s', removeRedBrother .off op p b s = some (n, s') ∧
      Shrunk s s' (path.plug (node p false ne (node b true be x (node g false ge w z))
          (node op false pe y rest))) 0
        (op :: (rest.labels ++ Path.labels (⟨.right, p, false, pe,
          node b true be x (node n false ne (node g true ge w z) y)⟩ :: path))) := by
  obtain ⟨oLive, ⟨e, oCell⟩, below, ⟨pLive, pCell, ⟨bLive, bCell, xRep, nLive, nCell,
    ⟨gLive, gCell, wRep, zRep⟩, yRep⟩, outer⟩, top, nodup, good, restBlack⟩ := leaving
  simp only [List.nodup_cons, List.nodup_append', List.mem_cons, List.mem_append, not_or,
    Path.labels_cons, labels_node, List.disjoint_append_right, List.disjoint_append_left,
    List.disjoint_cons_right, List.disjoint_cons_left] at nodup
  refine Exists.intro ?state (And.intro ?runs ?result)
  case runs =>
    simp [removeRedBrother, setBlack, oLive, pLive, bLive, nLive, gLive, oCell, pCell, bCell,
      nCell, nodup, below.pointer, yRep.pointer]
    rfl
  case result =>
    refine .plug top rfl ?_ ?_ (by simp) ?_
    · simp only [Rep, Machine.modify_live, Machine.touch_live]
      refine ⟨pLive, by simp [pCell, nodup], ⟨bLive, by simp [bCell, nodup], by simp [xRep, nodup],
        gLive, by simp [gCell, nodup], by simp [wRep, nodup], by simp [zRep, nodup]⟩,
        oLive, by simp [oCell, nodup, black], ?_, ?_⟩
      · simp only [Rep.modify, nodup, not_false_eq_true]
        exact Rep.reparent (by simp [nodup]) (by simpa using good) (by simpa [nodup] using yRep)
      · simp only [Rep.modify, Rep.touch_addr, nodup, not_false_eq_true]
        exact Rep.reparent (by simp [nodup]) (by simpa using good) (by simpa [nodup] using below)
    · simpa [nodup] using outer
    · apply_rules [Within.modify, within_touch_addr]
      all_goals first | exact .refl _ _ | (intro b member; simp [member]) | simp

private theorem removeRedBrother_outer
    (leaving : Leaving s (⟨.right, p, false, pe, node b true be x (node n false ne y z)⟩ :: path)
      op false rest)
    (xNode : x ≠ .nil) (xBlack : x.isRed = false) (yBlack : y.isRed = false) :
    ∃ s', removeRedBrother .off op p b s = some (b, s') ∧
      Shrunk s s' (path.plug (node p false be x (node op false pe (node n true ne y z) rest))) 0
        (op :: (rest.labels ++ Path.labels (⟨.right, p, false, pe,
          node b true be x (node n false ne y z)⟩ :: path))) := by
  obtain ⟨oLive, ⟨e, oCell⟩, below, ⟨pLive, pCell, ⟨bLive, bCell, xRep, nLive, nCell, yRep, zRep⟩,
    outer⟩, top, nodup, good, restBlack⟩ := leaving
  cases x with
  | nil => exact absurd rfl xNode
  | node m mRed me u v =>
      obtain rfl : mRed = false := xBlack
      obtain ⟨mLive, mCell, uRep, vRep⟩ := xRep
      simp only [List.nodup_cons, List.nodup_append', List.mem_cons, List.mem_append, not_or,
        Path.labels_cons, labels_node, List.disjoint_append_right, List.disjoint_append_left,
        List.disjoint_cons_right, List.disjoint_cons_left] at nodup
      refine Exists.intro ?state (And.intro ?runs ?result)
      case runs =>
        simp [removeRedBrother, setBlackLink, setRed, setRedLink, oLive, pLive, bLive, nLive,
          mLive, oCell, pCell, bCell, nCell, yBlack, nodup, below.pointer]
        rfl
      case result =>
        refine .plug top rfl ?_ ?_ (by simp) ?_
        · simp only [Rep, Machine.modify_live, Machine.touch_live]
          refine ⟨pLive, by simp [pCell, nodup], ⟨mLive, by simp [mCell, nodup],
            by simp [uRep, nodup], by simp [vRep, nodup]⟩, oLive, by simp [oCell, nodup],
            ⟨nLive, by simp [nCell, nodup], by simp [yRep, nodup], by simp [zRep, nodup]⟩, ?_⟩
          simp only [Rep.modify, nodup, not_false_eq_true]
          exact Rep.reparent (by simp [nodup]) (by simpa using good) (by simpa [nodup] using below)
        · simpa [nodup] using outer
        · apply_rules [Within.modify, within_touch_addr]
          all_goals first | exact .refl _ _ | simp

private theorem removeRedLink_left
    (leaving : Leaving s (⟨.left, p, red, pe, node b false be (node n true ne y w) z⟩ :: path)
      op false rest)
    (black : w.isRed = false) :
    ∃ s', removeRedLink .off op p b true s = some (n, s') ∧
      Shrunk s s' (path.plug (node p red ne (node op false pe rest y) (node b false be w z))) 0
        (op :: (rest.labels ++ Path.labels (⟨.left, p, red, pe,
          node b false be (node n true ne y w) z⟩ :: path))) := by
  obtain ⟨oLive, ⟨e, oCell⟩, below, ⟨pLive, pCell, ⟨bLive, bCell, ⟨nLive, nCell, yRep, wRep⟩,
    zRep⟩, outer⟩, top, nodup, good, restBlack⟩ := leaving
  simp only [List.nodup_cons, List.nodup_append', List.mem_cons, List.mem_append, not_or,
    Path.labels_cons, labels_node, List.disjoint_append_right, List.disjoint_append_left,
    List.disjoint_cons_right, List.disjoint_cons_left] at nodup
  refine Exists.intro ?state (And.intro ?runs ?result)
  case runs =>
    simp [removeRedLink, setBlackLink, oLive, pLive, bLive, nLive, oCell, pCell, bCell, nCell,
      nodup, yRep.pointer, wRep.pointer]
    rfl
  case result =>
    refine .plug top rfl ?_ ?_ (by simp) ?_
    · simp only [Rep, Machine.modify_live, Machine.touch_live]
      refine ⟨pLive, by simp [pCell, nodup], ⟨oLive, by simp [oCell, nodup, restBlack],
        by simp [below, nodup], ?_⟩, bLive, by simp [bCell, nodup, black], ?_,
        by simp [zRep, nodup]⟩
      · simp only [Rep.modify, Rep.touch_addr, nodup, not_false_eq_true]
        exact Rep.reparent (by simp [nodup]) (by simpa using good) (by simpa [nodup] using yRep)
      · simp only [Rep.modify, nodup, not_false_eq_true]
        exact Rep.reparent (by simp [nodup]) (by simpa using good) (by simpa [nodup] using wRep)
    · simpa [nodup] using outer
    · apply_rules [Within.modify, within_touch_addr]
      all_goals first | exact .refl _ _ | (intro b member; simp [member]) | simp

private theorem removeRedLink_right
    (leaving : Leaving s (⟨.right, p, red, pe, node b false be (node n true ne x y) w⟩ :: path)
      op false rest)
    (black : w.isRed = false) :
    ∃ s', removeRedLink .off op p b false s = some (b, s') ∧
      Shrunk s s' (path.plug (node p red be (node n false ne x y) (node op false pe w rest))) 0
        (op :: (rest.labels ++ Path.labels (⟨.right, p, red, pe,
          node b false be (node n true ne x y) w⟩ :: path))) := by
  obtain ⟨oLive, ⟨e, oCell⟩, below, ⟨pLive, pCell, ⟨bLive, bCell, ⟨nLive, nCell, xRep, yRep⟩,
    wRep⟩, outer⟩, top, nodup, good, restBlack⟩ := leaving
  simp only [List.nodup_cons, List.nodup_append', List.mem_cons, List.mem_append, not_or,
    Path.labels_cons, labels_node, List.disjoint_append_right, List.disjoint_append_left,
    List.disjoint_cons_right, List.disjoint_cons_left] at nodup
  refine Exists.intro ?state (And.intro ?runs ?result)
  case runs =>
    simp [removeRedLink, setBlack, oLive, pLive, bLive, nLive, oCell, pCell, bCell, nodup,
      wRep.pointer]
    rfl
  case result =>
    refine .plug top rfl ?_ ?_ (by simp) ?_
    · simp only [Rep, Machine.modify_live, Machine.touch_live]
      refine ⟨pLive, by simp [pCell, nodup], ⟨nLive, by simp [nCell, nodup],
        by simp [xRep, nodup], by simp [yRep, nodup]⟩, oLive, by simp [oCell, nodup, black], ?_,
        by simp [below, nodup]⟩
      simp only [Rep.modify, nodup, not_false_eq_true]
      exact Rep.reparent (by simp [nodup]) (by simpa using good) (by simpa [nodup] using wRep)
    · simpa [nodup] using outer
    · apply_rules [Within.modify, within_touch_addr]
      all_goals first | exact .refl _ _ | (intro b member; simp [member]) | simp

/-- The nodes in play stay the same ones when the operated node moves up. -/
theorem mergeLeft_labels :
    (p :: ((node b false be (node op true pe rest y) z).labels ++ path.labels)).Perm
      (op :: (rest.labels ++ Path.labels (⟨.left, p, red, pe, node b false be y z⟩ :: path))) := by
  refine List.perm_iff_count.mpr fun x => ?_
  simp only [labels_node, Path.labels_cons, List.count_cons, List.count_append]
  omega

private theorem mergeRight_labels :
    (p :: ((node op false pe (node b true be x y) rest).labels ++ path.labels)).Perm
      (op :: (rest.labels ++ Path.labels (⟨.right, p, red, pe, node b false be x y⟩ :: path))) := by
  refine List.perm_iff_count.mpr fun x => ?_
  simp only [labels_node, Path.labels_cons, List.count_cons, List.count_append]
  omega

/-- The operated node moves up: `Shrink` goes on with the parent. -/
theorem removeMerge_left
    (leaving : Leaving s (⟨.left, p, red, pe, node b false be y z⟩ :: path) op false rest) :
    ∃ s', removeMerge .off op p b true s = some ((), s') ∧
      Leaving s' path p red (node b false be (node op true pe rest y) z) ∧ s'.glob = s.glob ∧
      Within (op :: (rest.labels ++
        Path.labels (⟨.left, p, red, pe, node b false be y z⟩ :: path))) s s' := by
  have separate := mergeLeft_labels.nodup_iff.mpr leaving.nodup
  obtain ⟨oLive, ⟨e, oCell⟩, below, ⟨pLive, pCell, ⟨bLive, bCell, yRep, zRep⟩, outer⟩, top, nodup,
    good, restBlack⟩ := leaving
  simp only [List.nodup_cons, List.nodup_append', List.mem_cons, List.mem_append, not_or,
    Path.labels_cons, labels_node, List.disjoint_append_right, List.disjoint_append_left,
    List.disjoint_cons_right, List.disjoint_cons_left] at nodup
  refine Exists.intro ?state (And.intro ?runs ?result)
  case runs =>
    simp [removeMerge, setRed, setRedLink, oLive, pLive, bLive, oCell, pCell, bCell, nodup,
      yRep.pointer]
    rfl
  case result =>
    refine ⟨⟨by simpa using pLive, ⟨e, ?_⟩, ?_, ?_, by simpa using top, separate,
      by simpa using good, rfl⟩, by simp, ?_⟩
    · simp [pCell, nodup]
    · simp only [Rep, Machine.modify_live, Machine.touch_live]
      refine ⟨bLive, by simp [bCell, nodup], ⟨oLive, by simp [oCell, nodup, restBlack],
        by simp [below, nodup], ?_⟩, by simp [zRep, nodup]⟩
      simp only [Rep.modify, nodup, not_false_eq_true]
      exact Rep.reparent (by simp [nodup]) (by simpa using good) (by simpa [nodup] using yRep)
    · simpa [nodup] using outer
    · apply_rules [Within.modify, within_touch_addr]
      all_goals first | exact .refl _ _ | (intro b member; simp [member]) | simp

theorem removeMerge_right
    (leaving : Leaving s (⟨.right, p, red, pe, node b false be x y⟩ :: path) op false rest)
    (black : x.isRed = false) :
    ∃ s', removeMerge .off op p b false s = some ((), s') ∧
      Leaving s' path p red (node op false pe (node b true be x y) rest) ∧ s'.glob = s.glob ∧
      Within (op :: (rest.labels ++
        Path.labels (⟨.right, p, red, pe, node b false be x y⟩ :: path))) s s' := by
  have separate := mergeRight_labels.nodup_iff.mpr leaving.nodup
  obtain ⟨oLive, ⟨e, oCell⟩, below, ⟨pLive, pCell, ⟨bLive, bCell, xRep, yRep⟩, outer⟩, top, nodup,
    good, restBlack⟩ := leaving
  simp only [List.nodup_cons, List.nodup_append', List.mem_cons, List.mem_append, not_or,
    Path.labels_cons, labels_node, List.disjoint_append_right, List.disjoint_append_left,
    List.disjoint_cons_right, List.disjoint_cons_left] at nodup
  refine Exists.intro ?state (And.intro ?runs ?result)
  case runs =>
    simp [removeMerge, setRed, setRedLink, oLive, pLive, bLive, oCell, pCell, nodup]
    rfl
  case result =>
    refine ⟨⟨by simpa using pLive, ⟨e, ?_⟩, ?_, ?_, by simpa using top, separate,
      by simpa using good, rfl⟩, by simp, ?_⟩
    · simp [pCell, nodup]
    · simp only [Rep, Machine.modify_live]
      exact ⟨oLive, by simp [oCell, nodup], ⟨bLive, by simp [bCell, nodup, black],
        by simp [xRep, nodup], by simp [yRep, nodup]⟩, by simp [below, nodup]⟩
    · simpa [nodup] using outer
    · apply_rules [Within.modify]
      all_goals first | exact .refl _ _ | simp

end Cases

section Loop

variable {s : RbMachine} {op freed : Addr} {rest tree : RbTree} {path : RbPath} {red first : Bool}
  {frame : Frame Addr Entry} {fuel higher : Nat}

/-- The operated node is the root: its subtree becomes the tree. -/
theorem removeLoop_root (leaving : Leaving s [] op false rest) :
    ∃ s', removeLoop .off (fuel + 1) first op s = some (op, s') ∧ Shrunk s s' rest 1 (op :: rest.labels) := by
  obtain ⟨oLive, ⟨e, oCell⟩, below, _, top, nodup, good, restBlack⟩ := leaving
  cases rest with
  | nil =>
      refine Exists.intro ?state (And.intro ?runs ?result)
      case runs =>
        simp [removeLoop, changeRoot, setNode, oLive, oCell]
        rfl
      case result =>
        refine ⟨trivial, by simp [Int.sub_eq_add_neg], ?_⟩
        apply_rules [Within.modify, Within.withGlob]
        all_goals first | exact .refl _ _ | simp
  | node m mRed me u v =>
      obtain rfl : mRed = false := restBlack
      obtain ⟨mLive, mCell, uRep, vRep⟩ := below
      have notNull : m ≠ 0 := fun null => good (null ▸ mLive)
      simp only [List.nodup_cons, List.nodup_append', List.mem_cons, List.mem_append, not_or,
        Path.labels_nil, labels_node, List.append_nil] at nodup
      refine Exists.intro ?nodeState (And.intro ?nodeRuns ?nodeResult)
      case nodeRuns =>
        simp [removeLoop, changeRoot, setParent, setRoot, setNode, oLive, mLive, oCell, notNull]
        rfl
      case nodeResult =>
        refine ⟨?_, by simp [Int.sub_eq_add_neg], ?_⟩
        · simp [Rep, mLive, mCell, uRep, vRep, nodup]
        · apply_rules [Within.modify, Within.withGlob]
          all_goals first | exact .refl _ _ | simp

/-- The operated node is red, hence a left child. -/
theorem removeLoop_red {p : Addr} {pe : Entry} {b : RbTree}
    (leaving : Leaving s (⟨.left, p, false, pe, b⟩ :: path) op true rest) :
    ∃ s', removeLoop .off (fuel + 1) first op s = some (op, s') ∧
      Shrunk s s' (path.plug (node p false pe rest b)) 0
        (op :: (rest.labels ++ Path.labels (⟨.left, p, false, pe, b⟩ :: path))) := by
  obtain ⟨oLive, ⟨e, oCell⟩, below, ⟨pLive, pCell, bRep, outer⟩, top, nodup, good, restBlack⟩ :=
    leaving
  cases rest with
  | nil =>
      have pointer : s.Pointer 0 := .inl rfl
      simp only [List.nodup_cons, List.nodup_append', List.mem_cons, List.mem_append, not_or,
        Path.labels_cons, labels_nil] at nodup
      refine Exists.intro ?state (And.intro ?runs ?result)
      case runs =>
        simp [removeLoop, setBlackLink, oLive, pLive, oCell, pCell, pointer]
        rfl
      case result =>
        refine .plug top rfl ?_ ?_ (by simp) ?_
        · simp [Rep, pLive, pCell, bRep, nodup]
        · simpa [nodup] using outer
        · apply_rules [Within.modify, Within.touch]
          all_goals first | exact .refl _ _ | simp
  | node m mRed me u v =>
      obtain rfl : mRed = false := restBlack
      obtain ⟨mLive, mCell, uRep, vRep⟩ := below
      have notNull : m ≠ 0 := fun null => good (null ▸ mLive)
      have pointer : s.Pointer m := .inr mLive
      simp only [List.nodup_cons, List.nodup_append', List.mem_cons, List.mem_append, not_or,
        Path.labels_cons, labels_node, List.disjoint_append_right, List.disjoint_append_left,
        List.disjoint_cons_right, List.disjoint_cons_left] at nodup
      refine Exists.intro ?nodeState (And.intro ?nodeRuns ?nodeResult)
      case nodeRuns =>
        simp [removeLoop, setBlackLink, setBlack, oLive, pLive, mLive, oCell, pCell, notNull,
          pointer, nodup]
        rfl
      case nodeResult =>
        refine .plug top rfl ?_ ?_ (by simp) ?_
        · simp [Rep, pLive, pCell, mLive, mCell, uRep, vRep, bRep, nodup]
        · simpa [nodup] using outer
        · apply_rules [Within.modify]
          all_goals first | exact .refl _ _ | simp

/-- An iteration for a black node that is not the root. -/
theorem removeLoop_black {side : Side} {p : Addr} {pRed : Bool} {pe : Entry} {b : RbTree}
    (leaving : Leaving s (⟨side, p, pRed, pe, b⟩ :: path) op false rest) :
    removeLoop .off (fuel + 1) first op s =
      (do
        let brother ← load (addr b)
        if brother.isRed then removeRedBrother .off op p (addr b)
        else if brother.hasRedLink then removeRedLink .off op p (addr b) (side = .left)
        else (do
          removeMerge .off op p (addr b) (side = .left)
          removeLoop .off fuel false p) : RbProg Addr) s := by
  obtain ⟨oLive, ⟨e, oCell⟩, _, frames, _, nodup, good, _⟩ := leaving
  cases side with
  | left =>
      obtain ⟨pLive, pCell, _⟩ := frames
      simp [removeLoop, oLive, oCell, pLive, pCell]
  | right =>
      obtain ⟨pLive, pCell, _⟩ := frames
      have notBrother : op ≠ addr b := by
        intro same
        rcases addr_null_or_mem b with null | member
        · exact good (null ▸ same ▸ oLive)
        · simp [same, member] at nodup
      have different : (op == addr b) = false := by simpa using notBrother
      simp [removeLoop, oLive, oCell, pLive, pCell, notBrother, different]

/-- The loop gives the node up as `Shrink` says. -/
theorem removeLoop_shrink (shrink : Shrink path op red rest tree freed higher) :
    ∀ {s fuel first}, path.length < fuel → Leaving s path op red rest →
      ∃ s', removeLoop .off fuel first op s = some (freed, s') ∧
        Shrunk s s' tree higher (op :: (rest.labels ++ path.labels)) := by
  induction shrink with
  | root =>
      intro s fuel first enough leaving
      cases fuel with
      | zero => simp at enough
      | succ fuel => simpa using removeLoop_root leaving
  | red =>
      intro s fuel first enough leaving
      cases fuel with
      | zero => simp at enough
      | succ fuel => exact removeLoop_red leaving
  | redBrotherInner black =>
      intro s fuel first enough leaving
      cases fuel with
      | zero => simp at enough
      | succ fuel =>
          obtain ⟨s', runs, shrunk⟩ := removeRedBrother_inner leaving black
          obtain ⟨_, _, ⟨bLive, bCell, _⟩, _⟩ := id leaving.frames
          exact ⟨s', by simp [removeLoop_black leaving, bLive, bCell, runs], shrunk⟩
  | redBrotherOuter xNode xBlack yBlack =>
      intro s fuel first enough leaving
      cases fuel with
      | zero => simp at enough
      | succ fuel =>
          obtain ⟨s', runs, shrunk⟩ := removeRedBrother_outer leaving xNode xBlack yBlack
          obtain ⟨_, _, ⟨bLive, bCell, _⟩, _⟩ := id leaving.frames
          exact ⟨s', by simp [removeLoop_black leaving, bLive, bCell, runs], shrunk⟩
  | redLinkLeft black =>
      intro s fuel first enough leaving
      cases fuel with
      | zero => simp at enough
      | succ fuel =>
          obtain ⟨s', runs, shrunk⟩ := removeRedLink_left leaving black
          obtain ⟨_, _, ⟨bLive, bCell, _⟩, _⟩ := id leaving.frames
          exact ⟨s', by simp [removeLoop_black leaving, bLive, bCell, runs], shrunk⟩
  | redLinkRight black =>
      intro s fuel first enough leaving
      cases fuel with
      | zero => simp at enough
      | succ fuel =>
          obtain ⟨s', runs, shrunk⟩ := removeRedLink_right leaving black
          obtain ⟨_, _, ⟨bLive, bCell, _⟩, _⟩ := id leaving.frames
          exact ⟨s', by simp [removeLoop_black leaving, bLive, bCell, runs], shrunk⟩
  | mergeLeft black above ih =>
      intro s fuel first enough leaving
      cases fuel with
      | zero => simp at enough
      | succ fuel =>
          obtain ⟨s₁, runs, leaving₁, glob, within⟩ := removeMerge_left leaving
          obtain ⟨_, _, ⟨bLive, bCell, _⟩, _⟩ := id leaving.frames
          obtain ⟨s', loops, shrunk⟩ := @ih s₁ fuel false (by simp at enough; omega) leaving₁
          exact ⟨s', by simp [removeLoop_black leaving, bLive, bCell, black, runs, loops],
            shrunk.after glob within mergeLeft_labels.subset⟩
  | mergeRight black above ih =>
      intro s fuel first enough leaving
      cases fuel with
      | zero => simp at enough
      | succ fuel =>
          obtain ⟨s₁, runs, leaving₁, glob, within⟩ := removeMerge_right leaving black
          obtain ⟨_, _, ⟨bLive, bCell, _⟩, _⟩ := id leaving.frames
          obtain ⟨s', loops, shrunk⟩ := @ih s₁ fuel false (by simp at enough; omega) leaving₁
          exact ⟨s', by simp [removeLoop_black leaving, bLive, bCell, black, runs, loops],
            shrunk.after glob within mergeRight_labels.subset⟩

end Loop

end GbfLibrary.Rbtree
