import GbfLibrary.Rbtree.Failures

/-!
# Removals that are watched

`rbt_remove` with checks on every exchange of two nodes, at every head of its loop, and on every nephew and
grandson. A check that fails is a fault.
-/

set_option autoImplicit false

namespace GbfLibrary.Rbtree

open Memory Prog Trees ColoredTree

/-- No node is exchanged with itself. -/
def checkedSwap (a b : Addr) : RbProg Unit := if a = b then fault else swapNodeData a b

/-- The right pointer of the operated node is null at first and later the same as the left one. A black one that is
not the root has a brother. -/
def checkedHead (first : Bool) (op : Addr) : RbProg Unit := do
  let o ← load op
  if o.rnode ≠ (if first then 0 else o.lnode) then fault
  else if o.isRoot || o.isRed then return ()
  else (do
    let p ← load o.parent
    if (if op == p.lnode then p.rnode else p.lnode) = 0 then fault else return ())

def checkedRelative (a : Addr) : RbProg Unit := if a = 0 then fault else return ()

def Watch.on : Watch := ⟨checkedSwap, checkedHead, checkedRelative⟩

private theorem Watch.on_swap : Watch.on.swap = checkedSwap := rfl

private theorem Watch.on_head : Watch.on.head = checkedHead := rfl

section Checks

variable {s : RbMachine} {path : RbPath} {op p : Addr} {red pRed first : Bool} {rest b : RbTree} {pe : Entry}
  {side : Side} {fuel : Nat}

private theorem checkedSwap_of_ne {a b : Addr} (different : a ≠ b) : checkedSwap a b = swapNodeData a b :=
  if_neg different

/-- The relatives of an operated node are apart. -/
structure Apart (s : RbMachine) (op parent bro : Addr) : Prop where
  opParent : op ≠ parent
  opBrother : op ≠ bro
  parentBrother : parent ≠ bro
  rightNephew : (s.cell bro).rnode ≠ parent
  leftNephew : (s.cell bro).lnode ≠ parent

theorem Leaving.apart (leaving : Leaving s (⟨side, p, pRed, pe, b⟩ :: path) op red rest) (brother : b ≠ .nil) :
    Apart s op p (addr b) := by
  obtain ⟨_, _, _, frames, _, nodup, good, _⟩ := leaving
  cases b with
  | nil => exact absurd rfl brother
  | node b bRed be l r =>
      obtain ⟨pLive, bCell⟩ : p ∈ s.live ∧ (s.cell b).lnode = addr l ∧ (s.cell b).rnode = addr r := by
        cases side with
        | left =>
            obtain ⟨pLive, _, ⟨_, bCell, _⟩, _⟩ := frames
            exact ⟨pLive, by rw [bCell], by rw [bCell]⟩
        | right =>
            obtain ⟨pLive, _, ⟨_, bCell, _⟩, _⟩ := frames
            exact ⟨pLive, by rw [bCell], by rw [bCell]⟩
      have pSome : p ≠ 0 := fun null => good (null ▸ pLive)
      simp only [Path.labels_cons, labels_node, List.nodup_cons, List.nodup_append', List.mem_cons, List.mem_append,
        not_or] at nodup
      obtain ⟨opParent, opBrother, parentBrother, notLeft, notRight⟩ : op ≠ p ∧ op ≠ b ∧ p ≠ b ∧ p ∉ l.labels ∧
          p ∉ r.labels := by
        simp [nodup]
      refine ⟨opParent, opBrother, parentBrother, ?_, ?_⟩
      · rw [addr_node, bCell.2]
        rintro same
        exact notRight (same ▸ addr_mem_labels (same ▸ pSome))
      · rw [addr_node, bCell.1]
        rintro same
        exact notLeft (same ▸ addr_mem_labels (same ▸ pSome))

variable {bro : Addr}

private theorem removeRedBrotherWatched_on (apart : Apart s op p bro) (good : 0 ∉ s.live) (live : bro ∈ s.live)
    (nephew : (s.cell bro).rnode ∈ s.live)
    (grandson : (s.cell (s.cell bro).rnode).hasRedLink = true → (s.cell (s.cell bro).rnode).lnode ≠ 0) :
    removeRedBrother .on op p bro s = removeRedBrother .off op p bro s := by
  have notNull : (s.cell bro).rnode ≠ 0 := fun null => good (null ▸ nephew)
  simp only [removeRedBrother, Watch.off_swap, Watch.off_relative, bind_apply, load_apply live, load_apply nephew, andThen_some,
    Watch.on, checkedRelative, if_neg notNull, pure_apply, Prog.ite_apply, checkedSwap_of_ne apart.opParent.symm,
    checkedSwap_of_ne apart.parentBrother, checkedSwap_of_ne apart.rightNephew]
  by_cases link : (s.cell (s.cell bro).rnode).hasRedLink = true
  · simp only [if_pos link, if_neg (grandson link), andThen_some, bind_apply]
  · simp only [if_neg link]

private theorem removeRedLinkWatched_on (apart : Apart s op p bro) (live : bro ∈ s.live)
    (nephew : (s.cell bro).lnode ≠ 0) (left : Bool) :
    removeRedLink .on op p bro left s = removeRedLink .off op p bro left s := by
  simp only [removeRedLink, Watch.off_swap, Watch.off_relative, bind_apply, load_apply live, andThen_some, Watch.on, checkedRelative,
    if_neg nephew, pure_apply, checkedSwap_of_ne apart.opParent, checkedSwap_of_ne apart.leftNephew.symm,
    checkedSwap_of_ne apart.parentBrother.symm, checkedSwap_of_ne apart.opBrother]

private theorem removeMergeWatched_on (apart : Apart s op p bro) (left : Bool) :
    removeMerge .on op p bro left = removeMerge .off op p bro left := by
  simp only [removeMerge, Watch.off_swap, Watch.on, checkedSwap_of_ne apart.opParent,
    checkedSwap_of_ne apart.opParent.symm]

private theorem checkedHead_leaving (leaving : Leaving s path op red rest) (start : first = true → rest = .nil)
    (brother : red = false → ∀ frame ∈ path.head?, frame.sibling ≠ .nil) :
    checkedHead first op s = some ((), s) := by
  obtain ⟨live, ⟨e, cell⟩, _, frames, _, nodup, good, _⟩ := leaving
  have right : (s.cell op).rnode = if first then 0 else (s.cell op).lnode := by
    rw [cell]
    cases first with
    | false => rfl
    | true => exact congrArg addr (start rfl)
  have passes : ¬ (s.cell op).rnode ≠ if first then 0 else (s.cell op).lnode := not_not.mpr right
  simp only [checkedHead, bind_apply, load_apply live, andThen_some, Prog.ite_apply, if_neg passes]
  cases path with
  | nil => simp [cell]
  | cons frame path =>
      rcases frame with ⟨side, p, pRed, pe, b⟩
      cases red with
      | true => simp [cell]
      | false =>
          have sibling : b ≠ .nil := brother rfl _ rfl
          cases side with
          | left =>
              obtain ⟨pLive, pCell, bRep, _⟩ := frames
              have bSome := mt (addr_eq_zero good bRep).mp sibling
              simp [cell, pLive, pCell, bSome]
          | right =>
              obtain ⟨pLive, pCell, bRep, _⟩ := frames
              have bSome := mt (addr_eq_zero good bRep).mp sibling
              have notBrother : op ≠ addr b := by
                intro same
                have member : op ∈ b.labels := same ▸ addr_mem_labels bSome
                simp [member] at nodup
              simp [cell, pLive, pCell, bSome, notBrother]

/-- One iteration, for a black node that is not the root. -/
theorem removeLoopWatched_black (leaving : Leaving s (⟨side, p, pRed, pe, b⟩ :: path) op false rest)
    (start : first = true → rest = .nil) (brother : b ≠ .nil) :
    removeLoop .on (fuel + 1) first op s =
      (do
        let bro ← load (addr b)
        if bro.isRed then removeRedBrother .on op p (addr b)
        else if bro.hasRedLink then removeRedLink .on op p (addr b) (side = .left)
        else (do
          removeMerge .on op p (addr b) (side = .left)
          removeLoop .on fuel false p) : RbProg Addr) s := by
  have head : checkedHead first op s = some ((), s) := checkedHead_leaving leaving start fun _ frame here => by
    obtain rfl := Option.some.inj here
    exact brother
  have apart := leaving.apart brother
  obtain ⟨oLive, ⟨e, oCell⟩, _, frames, _⟩ := leaving
  rw [removeLoop, bind_apply, Watch.on_head, head, andThen_some]
  cases side with
  | left =>
      obtain ⟨pLive, pCell, _⟩ := frames
      simp [oLive, oCell, pLive, pCell]
  | right =>
      obtain ⟨pLive, pCell, _⟩ := frames
      have different : (op == addr b) = false := by simpa using apart.opBrother
      simp [oLive, oCell, pLive, pCell, different]

/-- The checks pass in every iteration: they do not change what the loop does. -/
theorem removeLoopWatched_shrink {tree : RbTree} {freed : Addr} {higher : Nat}
    (shrink : Shrink path op red rest tree freed higher) :
    ∀ {s fuel first}, Leaving s path op red rest → (first = true → rest = .nil) →
      removeLoop .on fuel first op s = removeLoop .off fuel first op s := by
  induction shrink with
  | root =>
      intro s fuel first leaving start
      cases fuel with
      | zero => rfl
      | succ fuel =>
          have head := checkedHead_leaving leaving start fun _ frame impossible => by cases impossible
          obtain ⟨live, ⟨e, cell⟩, _⟩ := leaving
          rw [removeLoop, bind_apply, Watch.on_head, head, andThen_some]
          simp [removeLoop, live, cell]
  | red =>
      intro s fuel first leaving start
      cases fuel with
      | zero => rfl
      | succ fuel =>
          have head := checkedHead_leaving leaving start fun black => by cases black
          obtain ⟨live, ⟨e, cell⟩, _⟩ := leaving
          rw [removeLoop, bind_apply, Watch.on_head, head, andThen_some]
          simp [removeLoop, live, cell]
  | redBrotherInner black =>
      intro s fuel first leaving start
      cases fuel with
      | zero => rfl
      | succ fuel =>
          have apart := leaving.apart (by simp)
          obtain ⟨_, _, ⟨bLive, bCell, _, nLive, nCell, ⟨gLive, _⟩, _⟩, _⟩ := id leaving.frames
          have gSome := ne_of_mem_of_not_mem gLive leaving.good
          have watched := removeRedBrotherWatched_on apart leaving.good bLive (by simpa [bCell] using nLive)
            (by simpa [bCell, nCell] using gSome)
          rw [removeLoopWatched_black leaving start (by simp), removeLoop_black leaving]
          simpa [bLive, bCell] using watched
  | redBrotherOuter xNode xBlack yBlack =>
      intro s fuel first leaving start
      cases fuel with
      | zero => rfl
      | succ fuel =>
          have apart := leaving.apart (by simp)
          obtain ⟨_, _, ⟨bLive, bCell, _, nLive, nCell, _⟩, _⟩ := id leaving.frames
          have watched := removeRedBrotherWatched_on apart leaving.good bLive (by simpa [bCell] using nLive)
            (by simp [bCell, nCell, yBlack])
          rw [removeLoopWatched_black leaving start (by simp), removeLoop_black leaving]
          simpa [bLive, bCell] using watched
  | redLinkLeft black =>
      intro s fuel first leaving start
      cases fuel with
      | zero => rfl
      | succ fuel =>
          have apart := leaving.apart (by simp)
          obtain ⟨_, _, ⟨bLive, bCell, ⟨nLive, _⟩, _⟩, _⟩ := id leaving.frames
          have nSome := ne_of_mem_of_not_mem nLive leaving.good
          have watched := removeRedLinkWatched_on apart bLive (by simpa [bCell] using nSome) true
          rw [removeLoopWatched_black leaving start (by simp), removeLoop_black leaving]
          simpa [bLive, bCell] using watched
  | redLinkRight black =>
      intro s fuel first leaving start
      cases fuel with
      | zero => rfl
      | succ fuel =>
          have apart := leaving.apart (by simp)
          obtain ⟨_, _, ⟨bLive, bCell, ⟨nLive, _⟩, _⟩, _⟩ := id leaving.frames
          have nSome := ne_of_mem_of_not_mem nLive leaving.good
          have watched := removeRedLinkWatched_on apart bLive (by simpa [bCell] using nSome) false
          rw [removeLoopWatched_black leaving start (by simp), removeLoop_black leaving]
          simpa [bLive, bCell] using watched
  | mergeLeft black above ih =>
      intro s fuel first leaving start
      cases fuel with
      | zero => rfl
      | succ fuel =>
          obtain ⟨s₁, runs, leaving₁, _⟩ := removeMerge_left leaving
          obtain ⟨_, _, ⟨bLive, bCell, _⟩, _⟩ := id leaving.frames
          have merges := removeMergeWatched_on (leaving.apart (by simp)) true
          have loops : removeLoop .on fuel false _ s₁ = removeLoop .off fuel false _ s₁ := ih leaving₁ (by simp)
          rw [addr_node] at merges
          rw [removeLoopWatched_black leaving start (by simp), removeLoop_black leaving]
          simp [bLive, bCell, black, merges, runs, loops]
  | mergeRight black above ih =>
      intro s fuel first leaving start
      cases fuel with
      | zero => rfl
      | succ fuel =>
          obtain ⟨s₁, runs, leaving₁, _⟩ := removeMerge_right leaving black
          obtain ⟨_, _, ⟨bLive, bCell, _⟩, _⟩ := id leaving.frames
          have merges := removeMergeWatched_on (leaving.apart (by simp)) false
          have loops : removeLoop .on fuel false _ s₁ = removeLoop .off fuel false _ s₁ := ih leaving₁ (by simp)
          rw [addr_node] at merges
          rw [removeLoopWatched_black leaving start (by simp), removeLoop_black leaving]
          simp [bLive, bCell, black, merges, runs, loops]

end Checks

section Remove

variable {s : RbMachine} {tree : RbTree} {nodes : List Addr} {levels fuel : Nat}

private theorem removeLoopWatched_unlinks {path : RbPath} {op : Addr} {red : Bool} {e : Entry}
    (shaped : Shaped s (path.plug (node op red e .nil .nil)) nodes levels) :
    removeLoop .on fuel true op s = removeLoop .off fuel true op s := by
  obtain ⟨height, leaf, outer⟩ := Path.Balanced.of_plug shaped.balanced shaped.black
  obtain ⟨below, _, _, _, rfl⟩ := leaf.subtrees
  obtain ⟨tree', freed, higher, shrink⟩ := Shrink.exists_of_balanced path outer op .nil
  exact removeLoopWatched_shrink shrink shaped.leaving fun _ => rfl

/-- The checks do not change what a removal does. -/
theorem Holds.removeWatched (holds : Holds s tree nodes levels) (enough : tree.labels.length + 1 < fuel) (key : Word)
    (out : Bool) : rbtRemoveWatched .on fuel key out s = rbtRemove fuel key out s := by
  obtain ⟨path, sub, found, rfl, surrounds⟩ := holds.split key
  have searched : rbtSearch fuel key s = some (addr sub, s) := holds.search found (by omega)
  have good := holds.stocked.good
  cases sub with
  | nil => simp [rbtRemove, rbtRemoveWatched, searched]
  | node a red e l r =>
      obtain ⟨⟨live, cell, lRep, rRep⟩, _⟩ := rep_plug.mp holds.rep
      have notNull := ne_of_mem_of_not_mem live good
      have distinct := (path.labels_plug _).nodup_iff.mp (List.nodup_append'.mp holds.stocked.nodup).1
      obtain ⟨height, balanced, outer⟩ := Path.Balanced.of_plug holds.balanced holds.black
      obtain ⟨below, left, right, rightBlack, _⟩ := balanced.subtrees
      by_cases empty : r = .nil
      · subst empty
        cases right with
        | nil =>
            cases link : l.isRed with
            | false =>
                obtain rfl := left.nil_of_height_zero link
                have loops : removeLoop .on fuel true a s = removeLoop .off fuel true a s :=
                  removeLoopWatched_unlinks holds.shaped
                simp [rbtRemove, rbtRemoveWatched, searched, notNull, live, cell, loops]
            | true =>
                obtain ⟨b, be, bl, br, rfl, _⟩ := left.red_node link
                have different : a ≠ b := by
                  rintro rfl
                  simp at distinct
                simp [rbtRemove, rbtRemoveWatched, searched, notNull, live, cell, Watch.on_swap,
                  checkedSwap_of_ne different]
      · have rSome := mt (addr_eq_zero good rRep).mp empty
        have short : r.height ≤ fuel := by
          have length := (path.labels_plug (node a red e l r)).length_eq
          simp only [labels_node, List.cons_append, List.length_cons, List.length_append] at length
          exact r.height_le_length_labels.trans (by omega)
        obtain ⟨inner, o, oRed, oe, rr, rfl, first, runs⟩ := firstLoop_apply good rRep empty short
        obtain ⟨_, leaf, _⟩ := Path.Balanced.of_plug right rightBlack
        obtain ⟨_, leafLeft, leafRight, leafRightBlack, _⟩ := leaf.subtrees
        cases leafLeft with
        | nil =>
            obtain rfl := leafRight.nil_of_height_zero leafRightBlack
            have whole : path.plug (node a red e l (inner.plug (node o oRed oe .nil .nil))) =
                Path.plug (inner ++ ⟨.right, a, red, e, l⟩ :: path) (node o oRed oe .nil .nil) := by
              simp [Path.plug_append]
            obtain ⟨s₁, swaps, glob, shaped⟩ := (whole ▸ holds.shaped).swapped
            have different : a ≠ o := by
              rintro rfl
              have again := (inner.labels_plug (node a oRed oe .nil .nil)).mem_iff.mpr (by simp : a ∈ _ ++ inner.labels)
              simp [again] at distinct
            obtain ⟨⟨oLive, oCell, _⟩, _⟩ := rep_plug.mp shaped.rep
            have loops : removeLoop .on fuel true o s₁ = removeLoop .off fuel true o s₁ :=
              removeLoopWatched_unlinks shaped
            simp [-addr_plug, rbtRemove, rbtRemoveWatched, searched, notNull, live, cell, rSome, rbtFirst, runs,
              Watch.on_swap, checkedSwap_of_ne different, swaps, oLive, oCell, loops]

end Remove

/-- Every check passes in a removal from a tree that calls made: it returns, as it does without them. -/
theorem reached_remove_checks (malloc : Malloc) (calls : List Call) (fuel : Nat) (enough : calls.length + 1 < fuel)
    (s : RbMachine) (reached : Reached malloc fuel calls s) (key : Word) (out : Bool) :
    0 ∉ s.live ∧ ∃ result s', rbtRemoveWatched .on fuel key out s = some (result, s') ∧
      rbtRemove fuel key out s = some (result, s') := by
  obtain ⟨tree, nodes, levels, holds, length⟩ := reached.holds (by omega)
  have inside : tree.labels.length + 1 < fuel := by omega
  obtain ⟨contents, binds⟩ := holds.sorted.exists_binds
  obtain ⟨s', _, _, _, runs, _⟩ := rbtRemove_serves holds binds inside key out
  exact ⟨holds.stocked.good, _, s', (holds.removeWatched inside key out).trans runs, runs⟩

theorem reached_remove_checks_two : ∃ s : RbMachine, s.glob.count = 2 ∧ 0 ∉ s.live ∧
    ∃ result s', rbtRemoveWatched .on 4 7 true s = some (result, s') ∧ rbtRemove 4 7 true s = some (result, s') := by
  let calls : List Call := [.insert 7 70 false false, .insert 2 20 false false]
  obtain ⟨s, runs, two⟩ : ∃ s, runCalls .bump 4 calls ((rbtNewTree .bump true 0 0 emptyMemory).get rfl).2 =
      some ([.inserted .ok none, .inserted .ok none], s) ∧ s.glob.count = 2 := ⟨_, rfl, rfl⟩
  have reached : Reached .bump 4 calls s := ⟨emptyMemory, 0, 0, _, _, by simp [emptyMemory], rfl, runs⟩
  exact ⟨s, two, reached_remove_checks .bump calls 4 (by decide) s reached 7 true⟩

end GbfLibrary.Rbtree
