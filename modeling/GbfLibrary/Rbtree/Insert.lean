import GbfLibrary.Rbtree.Represent

/-!
# The insertion loop

The loop of `rbt_insert` runs along a derivation of `Grow`: each of its shapes
is one constructor. The node that goes up has its subtrees in place, while the
path above still points to the node whose place it takes.
-/

set_option autoImplicit false

namespace GbfLibrary.Rbtree

open Memory Prog Trees ColoredTree

/-- The node `a` has its subtrees and no parent yet. -/
structure Detached (s : RbMachine) (a : Addr) (e : Entry) (l r : RbTree) (root : Bool) : Prop where
  live : a ∈ s.live
  cell : ∃ stale, s.cell a = ⟨statusOf false false false, e.1, e.2, stale, addr l, addr r⟩
  left : Rep s l a false
  right : Rep s r a root

/-- The nodes in play while `a` arrives at the hole of `path`. -/
abbrev playing (path : RbPath) (a : Addr) (l r : RbTree) : List Addr :=
  a :: (l.labels ++ (r.labels ++ path.labels))

section Split

variable {s : RbMachine} {p c a g self hole : Addr} {e pe ce ge : Entry} {l r u v x y : RbTree}
  {path : RbPath}

private theorem splitParent_outer (detached : Detached s a e l r false)
    (frames : RepPath s self (⟨.left, p, true, pe, u⟩ :: ⟨.left, g, false, ge, v⟩ :: path) hole
      false)
    (good : 0 ∉ s.live) (black : u.isRed = false)
    (nodup : (playing (⟨.left, p, true, pe, u⟩ :: ⟨.left, g, false, ge, v⟩ :: path) a l r).Nodup)
    (smaller : e.1.toInt < pe.1.toInt) (leftBlack : l.isRed = false) :
    ∃ s', splitParent a p g s = some (some p, s') ∧
      Detached s' p pe (node a false e l r) (node g false ge u v) path.isEmpty ∧
      RepPath s' self path g false ∧ s'.glob = s.glob ∧
      Within (playing (⟨.left, p, true, pe, u⟩ :: ⟨.left, g, false, ge, v⟩ :: path) a l r) s s' := by
  obtain ⟨aLive, ⟨stale, aCell⟩, left, right⟩ := detached
  obtain ⟨pLive, pCell, uRep, gLive, gCell, vRep, outer⟩ := frames
  simp only [List.nodup_cons, List.nodup_append', List.mem_cons, List.mem_append, not_or,
    Path.labels_cons, List.disjoint_append_right, List.disjoint_cons_right] at nodup
  refine Exists.intro ?state (And.intro ?runs ?result)
  case runs =>
    simp [splitParent, setBlack, setBlackLink, aLive, pLive, gLive, aCell, pCell, gCell, nodup,
      smaller, uRep.pointer]
    rfl
  case result =>
    refine ⟨⟨by simpa using pLive, ?_, ?_, ?_⟩, ?_, by simp, ?_⟩
    · simp [pCell, nodup]
    · simp [Rep, aCell, aLive, nodup, left, right, leftBlack]
    · simp only [Rep, Machine.modify_live, Machine.touch_live]
      refine ⟨gLive, by simp [gCell, nodup, black], ?_, by simp [vRep, nodup]⟩
      simp only [Rep.modify, nodup, not_false_eq_true]
      exact Rep.reparent (by simp [nodup]) (by simpa using good) (by simpa [nodup] using uRep)
    · simpa [nodup] using outer
    · apply_rules [Within.modify, within_touch_addr, Within.refl]
      all_goals first | simp | (intro b member; simp [member])

private theorem splitParent_inner (detached : Detached s a e l r false)
    (frames : RepPath s self (⟨.right, p, true, pe, u⟩ :: ⟨.left, g, false, ge, v⟩ :: path) hole
      false)
    (good : 0 ∉ s.live)
    (nodup : (playing (⟨.right, p, true, pe, u⟩ :: ⟨.left, g, false, ge, v⟩ :: path) a l r).Nodup)
    (larger : pe.1.toInt < e.1.toInt) (smaller : e.1.toInt < ge.1.toInt)
    (rightBlack : r.isRed = false) :
    ∃ s', splitParent a p g s = some (some a, s') ∧
      Detached s' a e (node p false pe u l) (node g false ge r v) path.isEmpty ∧
      RepPath s' self path g false ∧ s'.glob = s.glob ∧
      Within (playing (⟨.right, p, true, pe, u⟩ :: ⟨.left, g, false, ge, v⟩ :: path) a l r) s s' := by
  obtain ⟨aLive, ⟨stale, aCell⟩, left, right⟩ := detached
  obtain ⟨pLive, pCell, uRep, gLive, gCell, vRep, outer⟩ := frames
  simp only [List.nodup_cons, List.nodup_append', List.mem_cons, List.mem_append, not_or,
    Path.labels_cons, List.disjoint_append_right, List.disjoint_cons_right] at nodup
  have notSmaller : ¬ e.1.toInt < pe.1.toInt := by omega
  have notLarger : ¬ ge.1.toInt < e.1.toInt := by omega
  refine Exists.intro ?state (And.intro ?runs ?result)
  case runs =>
    simp [splitParent, setBlack, setBlackLink, aLive, pLive, gLive, aCell, pCell, gCell, nodup,
      notSmaller, notLarger, left.pointer, right.pointer]
    rfl
  case result =>
    refine ⟨⟨by simpa using aLive, ?_, ?_, ?_⟩, ?_, by simp, ?_⟩
    · simp [aCell, nodup]
    · simp only [Rep, Machine.modify_live, Machine.touch_live]
      refine ⟨pLive, by simp [pCell, nodup], by simp [uRep, nodup], ?_⟩
      simp only [Rep.modify, Rep.touch_addr, nodup, not_false_eq_true]
      exact Rep.reparent (by simp [nodup]) (by simpa using good) (by simpa [nodup] using left)
    · simp only [Rep, Machine.modify_live, Machine.touch_live]
      refine ⟨gLive, by simp [gCell, nodup, rightBlack], ?_, by simp [vRep, nodup]⟩
      simp only [Rep.modify, nodup, not_false_eq_true]
      exact Rep.reparent (by simp [nodup]) (by simpa using good) (by simpa [nodup] using right)
    · simpa [nodup] using outer
    · apply_rules [Within.modify, within_touch_addr, Within.refl]
      all_goals first | simp | (intro b member; simp [member])

private theorem splitParent_right (detached : Detached s a e l r false)
    (frames : RepPath s self (⟨.right, p, false, pe, node c true ce x y⟩ :: path) hole false)
    (nodup : (playing (⟨.right, p, false, pe, node c true ce x y⟩ :: path) a l r).Nodup)
    (larger : ce.1.toInt < e.1.toInt) (largest : pe.1.toInt < e.1.toInt)
    (leftBlack : l.isRed = false) :
    ∃ s', splitParent a c p s = some (if path.isEmpty then none else some p, s') ∧
      Rep s' (node p false pe (node c false ce x y) (node a false e l r)) (parentOf self path)
        path.isEmpty ∧
      RepPath s' self path p false ∧
      s'.glob = (if path.isEmpty then { s.glob with depth := s.glob.depth + 1 } else s.glob) ∧
      Within (playing (⟨.right, p, false, pe, node c true ce x y⟩ :: path) a l r) s s' := by
  obtain ⟨aLive, ⟨stale, aCell⟩, left, right⟩ := detached
  obtain ⟨pLive, pCell, ⟨cLive, cCell, xRep, yRep⟩, outer⟩ := frames
  simp only [List.nodup_cons, List.nodup_append', List.mem_cons, List.mem_append, not_or,
    Path.labels_cons, labels_node, List.disjoint_append_right, List.disjoint_append_left,
    List.disjoint_cons_right, List.disjoint_cons_left] at nodup
  have notSmaller : ¬ e.1.toInt < ce.1.toInt := by omega
  cases path with
  | nil =>
      refine Exists.intro ?state (And.intro ?runs ?result)
      case runs =>
        simp [splitParent, setBlack, setBlackLink, aLive, pLive, cLive, aCell, pCell, cCell, nodup,
          notSmaller, largest]
        rfl
      case result =>
        refine ⟨?_, trivial, by simp, ?_⟩
        · simp [Rep, pLive, cLive, aLive, pCell, cCell, aCell, nodup, xRep, yRep, left, right,
            leftBlack]
        · apply_rules [Within.modify, Within.withGlob]
          all_goals first | exact .refl _ _ | simp
  | cons frame path =>
      refine Exists.intro ?above (And.intro ?loops ?remains)
      case loops =>
        simp [splitParent, setBlack, setBlackLink, aLive, pLive, cLive, aCell, pCell, cCell, nodup,
          notSmaller, largest]
        rfl
      case remains =>
        refine ⟨?_, ?_, by simp, ?_⟩
        · simp [Rep, pLive, cLive, aLive, pCell, cCell, aCell, nodup, xRep, yRep, left, right,
            leftBlack]
        · simpa only [RepPath.modify, nodup, not_false_eq_true] using outer
        · apply_rules [Within.modify, Within.refl]
          all_goals simp

end Split

section Join

variable {s : RbMachine} {p a g hole : Addr} {e pe : Entry} {l r b : RbTree} {path : RbPath}

private theorem joinParent_left (detached : Detached s a e l r false)
    (frames : RepPath s s.glob.self (⟨.left, p, false, pe, b⟩ :: path) hole false)
    (nodup : (playing (⟨.left, p, false, pe, b⟩ :: path) a l r).Nodup)
    (smaller : e.1.toInt < pe.1.toInt) (leftBlack : l.isRed = false) :
    ∃ s', joinParent a p g s = some ((), s') ∧
      Rep s' (path.plug (node p false pe (node a true e l r) b)) s.glob.self true ∧
      s'.glob = s.glob ∧ Within (playing (⟨.left, p, false, pe, b⟩ :: path) a l r) s s' := by
  obtain ⟨aLive, ⟨stale, aCell⟩, left, right⟩ := detached
  obtain ⟨pLive, pCell, bRep, outer⟩ := frames
  simp only [List.nodup_cons, List.nodup_append', List.mem_cons, List.mem_append, not_or,
    Path.labels_cons, List.disjoint_append_right, List.disjoint_cons_right] at nodup
  refine Exists.intro ?state (And.intro ?runs ?result)
  case runs =>
    simp [joinParent, setRed, setRedLink, aLive, pLive, aCell, pCell, smaller]
    rfl
  case result =>
    refine ⟨rep_plug.mpr ⟨?_, ?_⟩, by simp, ?_⟩
    · simp [Rep, pLive, aLive, pCell, aCell, nodup, left, right, bRep, leftBlack]
    · simpa [nodup] using outer
    · apply_rules [Within.modify, Within.refl]
      all_goals simp

private theorem joinParent_right_root (detached : Detached s a e l r false)
    (frames : RepPath s s.glob.self [⟨.right, p, false, pe, b⟩] hole false)
    (nodup : (playing [⟨.right, p, false, pe, b⟩] a l r).Nodup) (good : 0 ∉ s.live)
    (larger : pe.1.toInt < e.1.toInt) :
    ∃ s', joinParent a p s.glob.self s = some ((), s') ∧
      Rep s' (node a false e (node p true pe b l) r) s.glob.self true ∧
      s'.glob = { s.glob with root := a } ∧
      Within (playing [⟨.right, p, false, pe, b⟩] a l r) s s' := by
  obtain ⟨aLive, ⟨stale, aCell⟩, left, right⟩ := detached
  obtain ⟨pLive, pCell, bRep, outer⟩ := frames
  simp only [List.nodup_cons, List.nodup_append', List.mem_cons, List.mem_append, not_or,
    Path.labels_cons, List.disjoint_append_right, List.disjoint_cons_right] at nodup
  have notSmaller : ¬ e.1.toInt < pe.1.toInt := by omega
  have notNull : a ≠ 0 := fun null => good (null ▸ aLive)
  refine Exists.intro ?state (And.intro ?runs ?result)
  case runs =>
    simp [joinParent, changeRoot, setRoot, setNode, setParent, setRed, setRedLink, aLive, pLive,
      aCell, pCell, notSmaller, notNull, left.pointer]
    rfl
  case result =>
    refine ⟨?_, by simp, ?_⟩
    · simp only [Rep, Machine.modify_live, Machine.touch_live, Machine.withGlob_live]
      refine ⟨aLive, by simp [aCell, nodup], ?_, by simp [right, nodup]⟩
      refine ⟨pLive, by simp [pCell, nodup], by simp [bRep, nodup], ?_⟩
      simp only [Rep.modify, nodup, not_false_eq_true]
      exact Rep.reparent (by simp [nodup]) (by simpa using good) (by simpa [nodup] using left)
    · apply_rules [Within.modify, within_touch_addr, Within.withGlob]
      all_goals first | exact .refl _ _ | simp

private theorem joinParent_right (detached : Detached s a e l r false) {frame : Frame Addr Entry}
    (frames : RepPath s s.glob.self (⟨.right, p, false, pe, b⟩ :: frame :: path) hole false)
    (nodup : (playing (⟨.right, p, false, pe, b⟩ :: frame :: path) a l r).Nodup)
    (good : 0 ∉ s.live) (larger : pe.1.toInt < e.1.toInt) :
    ∃ s', joinParent a p frame.label s = some ((), s') ∧
      Rep s' (Path.plug (frame :: path) (node a false e (node p true pe b l) r))
        s.glob.self true ∧
      s'.glob = s.glob ∧
      Within (playing (⟨.right, p, false, pe, b⟩ :: frame :: path) a l r) s s' := by
  obtain ⟨aLive, ⟨stale, aCell⟩, left, right⟩ := detached
  obtain ⟨pLive, pCell, bRep, outer⟩ := frames
  rcases frame with ⟨side, g, red, ge, sibling⟩
  simp only [List.nodup_cons, List.nodup_append', List.mem_cons, List.mem_append, not_or,
    Path.labels_cons, List.disjoint_append_right, List.disjoint_cons_right] at nodup
  have notSmaller : ¬ e.1.toInt < pe.1.toInt := by omega
  cases side with
  | left =>
      obtain ⟨gLive, gCell, siblingRep, above⟩ := outer
      refine Exists.intro ?leftState (And.intro ?leftRuns ?leftResult)
      case leftRuns =>
        simp [joinParent, setLnode, setParent, setRed, setRedLink, aLive, pLive, gLive,
          aCell, pCell, gCell, notSmaller, left.pointer]
        rfl
      case leftResult =>
        refine ⟨rep_plug.mpr ⟨?_, ?_⟩, by simp, ?_⟩
        · simp only [Rep, Machine.modify_live, Machine.touch_live]
          refine ⟨aLive, by simp [aCell, nodup], ?_, by simp [right, nodup]⟩
          refine ⟨pLive, by simp [pCell, nodup], by simp [bRep, nodup], ?_⟩
          simp only [Rep.modify, nodup, not_false_eq_true]
          exact Rep.reparent (by simp [nodup]) (by simpa using good) (by simpa [nodup] using left)
        · simp [RepPath, gLive, gCell, siblingRep, above, nodup]
        · apply_rules [Within.modify, within_touch_addr, Within.refl]
          all_goals first | simp | (intro b member; simp [member])
  | right =>
      obtain ⟨gLive, gCell, siblingRep, above⟩ := outer
      have notSibling : addr sibling ≠ p := by
        intro same
        rcases addr_null_or_mem sibling with null | member
        · exact good (null ▸ same ▸ pLive)
        · have outside : p ∉ sibling.labels := by simp [nodup]
          exact outside (same ▸ member)
      refine Exists.intro ?rightState (And.intro ?rightRuns ?rightResult)
      case rightRuns =>
        simp [joinParent, setRnode, setParent, setRed, setRedLink, aLive, pLive, gLive,
          aCell, pCell, gCell, notSmaller, notSibling, left.pointer]
        rfl
      case rightResult =>
        refine ⟨rep_plug.mpr ⟨?_, ?_⟩, by simp, ?_⟩
        · simp only [Rep, Machine.modify_live, Machine.touch_live]
          refine ⟨aLive, by simp [aCell, nodup], ?_, by simp [right, nodup]⟩
          refine ⟨pLive, by simp [pCell, nodup], by simp [bRep, nodup], ?_⟩
          simp only [Rep.modify, nodup, not_false_eq_true]
          exact Rep.reparent (by simp [nodup]) (by simpa using good) (by simpa [nodup] using left)
        · simp [RepPath, gLive, gCell, siblingRep, above, nodup]
        · apply_rules [Within.modify, within_touch_addr, Within.refl]
          all_goals first | simp | (intro b member; simp [member])

end Join

section Loop

variable {s : RbMachine} {a p g hole : Addr} {e pe ge : Entry} {l r u v x y tree : RbTree}
  {path : RbPath}

/-- The split has reached the root, which was `g`. -/
theorem changeRoot_grow (detached : Detached s a e l (node g false ge x y) true)
    (good : 0 ∉ s.live) (nodup : (playing [] a l (node g false ge x y)).Nodup)
    (leftBlack : l.isRed = false) :
    ∃ s', changeRoot g a 1 s = some ((), s') ∧
      Rep s' (node a false e l (node g false ge x y)) s.glob.self true ∧
      s'.glob = { s.glob with root := a, depth := s.glob.depth + 1 } ∧
      Within (playing [] a l (node g false ge x y)) s s' := by
  obtain ⟨aLive, ⟨stale, aCell⟩, left, gLive, gCell, xRep, yRep⟩ := detached
  simp only [List.nodup_cons, List.nodup_append', List.mem_cons, List.mem_append, not_or,
    Path.labels_nil, labels_node, List.disjoint_append_right, List.disjoint_append_left,
    List.disjoint_cons_right, List.disjoint_cons_left] at nodup
  have notNull : a ≠ 0 := fun null => good (null ▸ aLive)
  refine Exists.intro ?state (And.intro ?runs ?result)
  case runs =>
    simp [changeRoot, setRoot, setNode, setParent, aLive, gLive, notNull]
    rfl
  case result =>
    refine ⟨?_, by simp, ?_⟩
    · simp [Rep, aLive, gLive, aCell, gCell, nodup, left, xRep, yRep, leftBlack]
    · apply_rules [Within.modify, Within.withGlob]
      all_goals first | exact .refl _ _ | simp

/-- The state at the head of the loop: `a` has to go into the hole of `path`. -/
structure Arriving (s : RbMachine) (path : RbPath) (a : Addr) (e : Entry) (l r : RbTree)
    (hole : Addr) : Prop where
  detached : Detached s a e l r false
  frames : RepPath s s.glob.self path hole false
  top : s.glob.root = path.top hole
  nodup : (playing path a l r).Nodup
  good : 0 ∉ s.live
  sorted : Sorted (path.before ++ ((node a false e l r).inorder ++ path.after))
  leftBlack : l.isRed = false
  rightBlack : r.isRed = false

/-- The state after the loop. -/
structure Grown (s s' : RbMachine) (tree : RbTree) (deeper : Nat) (touched : List Addr) :
    Prop where
  rep : Rep s' tree s.glob.self true
  glob : s'.glob = { s.glob with root := addr tree, depth := s.glob.depth + deeper }
  within : Within touched s s'

/-- The end of an iteration that split the parent. -/
def afterSplit (fuel : Nat) (parent2 grandpa : Addr) : Option Addr → RbProg Unit
  | none => pure ()
  | some next => do
    let black ← load parent2
    if black.isRoot then changeRoot parent2 next 1 else insertLoop fuel next grandpa

/-- An iteration below a red parent `p` and a black grandparent `g`. -/
theorem insertLoop_red {fuel : Nat} (live : p ∈ s.live) (red : (s.cell p).isRed = true)
    (parent : (s.cell p).parent = g) (above : g ∈ s.live) :
    insertLoop (fuel + 1) a p s =
      andThen (splitParent a p g s) (afterSplit fuel g (s.cell g).parent) := by
  simp [insertLoop, live, red, parent, above]
  rfl

/-- An iteration below a black parent with a red link to `g`. -/
theorem insertLoop_link {fuel : Nat} (live : p ∈ s.live) (black : (s.cell p).isRed = false)
    (link : (s.cell p).hasRedLink = true) :
    insertLoop (fuel + 1) a p s =
      andThen (splitParent a (s.cell p).lnode p s) (afterSplit fuel p (s.cell p).parent) := by
  simp [insertLoop, live, black, link]
  rfl

private theorem insertLoop_join {fuel : Nat} (live : p ∈ s.live) (black : (s.cell p).isRed = false)
    (link : (s.cell p).hasRedLink = false) :
    insertLoop (fuel + 1) a p s = joinParent a p (s.cell p).parent s := by
  simp [insertLoop, live, black, link]

/-- What the split above a red parent leaves: go on with the next level, or
make the node the root. -/
theorem afterSplit_grow {fuel deeper : Nat} {s₁ : RbMachine} {touched : List Addr}
    (detached : Detached s₁ a e l (node g false ge x y) path.isEmpty)
    (frames : RepPath s₁ s.glob.self path g false) (glob : s₁.glob = s.glob)
    (within : Within touched s s₁) (moved : (playing path a l (node g false ge x y)).Perm touched)
    (nodup : touched.Nodup) (top : s.glob.root = path.top g) (good : 0 ∉ s.live)
    (sorted : Sorted (path.before ++ ((node a false e l (node g false ge x y)).inorder ++ path.after)))
    (leftBlack : l.isRed = false)
    (grow : Grow path a e l (node g false ge x y) tree deeper)
    (loop : ∀ s, path ≠ [] → Arriving s path a e l (node g false ge x y) g →
      ∃ s', insertLoop fuel a (parentOf s.glob.self path) s = some ((), s') ∧
        Grown s s' tree deeper (playing path a l (node g false ge x y))) :
    ∃ s', afterSplit fuel g (parentOf s.glob.self path) (some a) s₁ = some ((), s') ∧
      Grown s s' tree deeper touched := by
  have good₁ : 0 ∉ s₁.live := within.live ▸ good
  have nodup := moved.nodup_iff.mpr nodup
  have gRep := detached.right
  cases path with
  | nil =>
      cases grow with
      | root =>
          obtain ⟨s', runs, rep, glob', within'⟩ := changeRoot_grow detached good₁ nodup leftBlack
          refine ⟨s', ?_, glob ▸ rep, by rw [glob', glob]; rfl, within.trans (within'.mono moved.subset)⟩
          simp [afterSplit, gRep.1, gRep.2.1, runs]
  | cons frame path =>
      have arriving : Arriving s₁ (frame :: path) a e l (node g false ge x y) g :=
        ⟨detached, glob ▸ frames, glob ▸ top, nodup, good₁, sorted, leftBlack, rfl⟩
      obtain ⟨s', runs, rep, glob', within'⟩ := loop s₁ (by simp) arriving
      rw [glob] at runs rep glob'
      rw [parentOf_cons] at runs
      refine ⟨s', ?_, rep, glob', within.trans (within'.mono moved.subset)⟩
      simp [afterSplit, gRep.1, gRep.2.1, runs]

/-- The loop takes the node in as `Grow` says. -/
theorem insertLoop_grow {deeper : Nat} (grow : Grow path a e l r tree deeper) :
    ∀ {s fuel hole}, path.length ≤ fuel → path ≠ [] → Arriving s path a e l r hole →
      ∃ s', insertLoop fuel a (parentOf s.glob.self path) s = some ((), s') ∧
        Grown s s' tree deeper (playing path a l r) := by
  induction grow with
  | root => exact fun _ nonempty _ => absurd rfl nonempty
  | @joinLeft p a pe e b l r path =>
      intro s fuel hole enough _ arriving
      obtain ⟨pLive, pCell, _⟩ := id arriving.frames
      have smaller : e.1.toInt < pe.1.toInt :=
        arriving.sorted.lt_after (by simp) (by simp [Path.after])
      obtain ⟨s', runs, rep, glob, within⟩ := joinParent_left arriving.detached arriving.frames
        arriving.nodup smaller arriving.leftBlack
      have top : path.top p = s.glob.root := arriving.top.symm
      refine ⟨s', ?_, rep, by simp [glob, top], within⟩
      cases fuel with
      | zero => simp at enough
      | succ fuel => rw [parentOf_cons, insertLoop_join pLive (by simp [pCell]) (by simp [pCell]), runs]
  | @joinRight p a pe e b l r path black =>
      intro s fuel hole enough _ arriving
      obtain ⟨pLive, pCell, _⟩ := id arriving.frames
      have larger : pe.1.toInt < e.1.toInt :=
        arriving.sorted.before_lt (by simp [Path.before]) (by simp)
      cases fuel with
      | zero => simp at enough
      | succ fuel =>
          rw [parentOf_cons, insertLoop_join pLive (by simp [pCell]) (by simp [pCell, black])]
          cases path with
          | nil =>
              obtain ⟨s', runs, rep, glob, within⟩ := joinParent_right_root arriving.detached
                arriving.frames arriving.nodup arriving.good larger
              exact ⟨s', by simpa [pCell] using runs, rep, by simp [glob], within⟩
          | cons frame path =>
              obtain ⟨s', runs, rep, glob, within⟩ := joinParent_right arriving.detached
                arriving.frames arriving.nodup arriving.good larger
              have top : Path.top frame.label path = s.glob.root := arriving.top.symm
              exact ⟨s', by simpa [pCell] using runs, rep, by simp [glob, top], within⟩
  | @splitRight p c a pe ce e x y l r tree path deeper above ih =>
      intro s fuel hole enough _ arriving
      obtain ⟨pLive, pCell, _⟩ := id arriving.frames
      have larger : ce.1.toInt < e.1.toInt :=
        arriving.sorted.before_lt (by simp [Path.before]) (by simp)
      have largest : pe.1.toInt < e.1.toInt :=
        arriving.sorted.before_lt (by simp [Path.before]) (by simp)
      obtain ⟨s₁, runs, rep, frames, glob, within⟩ := splitParent_right arriving.detached
        arriving.frames arriving.nodup larger largest arriving.leftBlack
      cases fuel with
      | zero => simp at enough
      | succ fuel =>
          rw [parentOf_cons, insertLoop_link pLive (by simp [pCell]) (by simp [pCell]), pCell]
          cases path with
          | nil =>
              cases above with
              | root => 
                  have top : s.glob.root = p := arriving.top
                  exact ⟨s₁, by simp [runs, afterSplit], rep, by simp [glob, top], within⟩
          | cons frame path =>
              have moved : (playing (frame :: path) p (node c false ce x y) (node a false e l r)).Perm
                  (playing (⟨.right, p, false, pe, node c true ce x y⟩ :: frame :: path) a l r) := by
                refine List.perm_iff_count.mpr fun x => ?_
                simp only [labels_node, Path.labels_cons, List.count_cons, List.count_append]
                omega
              have detached : Detached s₁ p pe (node c false ce x y) (node a false e l r) false :=
                ⟨rep.1, ⟨_, rep.2.1⟩, rep.2.2.1, rep.2.2.2⟩
              have arriving' : Arriving s₁ (frame :: path) p pe (node c false ce x y)
                  (node a false e l r) p :=
                ⟨detached, by rw [glob]; exact frames, by rw [glob]; exact arriving.top,
                  moved.nodup_iff.mpr arriving.nodup, within.live ▸ arriving.good,
                  by simpa [Path.before, Path.after] using arriving.sorted, rfl, rfl⟩
              obtain ⟨s', runs', rep', glob', within'⟩ :=
                ih (by simp at enough ⊢; omega) (by simp) arriving'
              simp only [glob, List.isEmpty_cons, Bool.false_eq_true, if_false] at runs' rep' glob'
              rw [parentOf_cons] at runs'
              refine ⟨s', ?_, rep', glob', within.trans (within'.mono moved.subset)⟩
              simp [runs, afterSplit, detached.live, rep.2.1, runs']
  | @splitOuter p g a pe ge e u v l r tree path deeper black above ih =>
      intro s fuel hole enough _ arriving
      obtain ⟨pLive, pCell, _, gLive, gCell, _⟩ := id arriving.frames
      have smaller : e.1.toInt < pe.1.toInt :=
        arriving.sorted.lt_after (by simp) (by simp [Path.after])
      have moved : (playing path p (node a false e l r) (node g false ge u v)).Perm
          (playing (⟨.left, p, true, pe, u⟩ :: ⟨.left, g, false, ge, v⟩ :: path) a l r) := by
        refine List.perm_iff_count.mpr fun x => ?_
        simp only [labels_node, Path.labels_cons, List.count_cons, List.count_append]
        omega
      obtain ⟨s₁, runs, detached, frames, glob, within⟩ := splitParent_outer arriving.detached
        arriving.frames arriving.good black arriving.nodup smaller arriving.leftBlack
      cases fuel with
      | zero => simp at enough
      | succ fuel =>
          rw [parentOf_cons, insertLoop_red pLive (by simp [pCell]) (by simp [pCell]) gLive, runs,
            andThen_some, gCell]
          refine afterSplit_grow detached frames glob within moved arriving.nodup arriving.top
            arriving.good (by simpa [Path.before, Path.after] using arriving.sorted) rfl above
            fun s nonempty arriving => ih (by simp at enough; omega) nonempty arriving
  | @splitInner p g a pe ge e u v l r tree path deeper above ih =>
      intro s fuel hole enough _ arriving
      obtain ⟨pLive, pCell, _, gLive, gCell, _⟩ := id arriving.frames
      have larger : pe.1.toInt < e.1.toInt :=
        arriving.sorted.before_lt (by simp [Path.before]) (by simp)
      have smaller : e.1.toInt < ge.1.toInt :=
        arriving.sorted.lt_after (by simp) (by simp [Path.after])
      have moved : (playing path a (node p false pe u l) (node g false ge r v)).Perm
          (playing (⟨.right, p, true, pe, u⟩ :: ⟨.left, g, false, ge, v⟩ :: path) a l r) := by
        refine List.perm_iff_count.mpr fun x => ?_
        simp only [labels_node, Path.labels_cons, List.count_cons, List.count_append]
        omega
      obtain ⟨s₁, runs, detached, frames, glob, within⟩ := splitParent_inner arriving.detached
        arriving.frames arriving.good arriving.nodup larger smaller arriving.rightBlack
      cases fuel with
      | zero => simp at enough
      | succ fuel =>
          rw [parentOf_cons, insertLoop_red pLive (by simp [pCell]) (by simp [pCell]) gLive, runs,
            andThen_some, gCell]
          exact afterSplit_grow detached frames glob within moved arriving.nodup arriving.top
            arriving.good (by simpa [Path.before, Path.after] using arriving.sorted) rfl above
            fun s nonempty arriving => ih (by simp at enough; omega) nonempty arriving

end Loop

end GbfLibrary.Rbtree
