import GbfLibrary.Rbtree.Failures
import GbfLibrary.Trees.Walk

/-!
# Walking through a tree

`rbt_first` and `rbt_next` go through the nodes in search order, `rbt_last` and
`rbt_prev` go back.
-/

set_option autoImplicit false

namespace GbfLibrary.Rbtree

open Memory Prog Trees ColoredTree

/-- The side of a node that lies in this direction. -/
def Way.side : Way → Side
  | .back => .left
  | .forth => .right

/-- A loop that goes on to a neighbour until there is none. -/
def visit (step : Addr → RbProg Addr) : Nat → Addr → RbProg (List Addr)
  | 0, _ => fault
  | fuel + 1, a =>
    if a = 0 then return []
    else (do
      let next ← step a
      let rest ← visit step fuel next
      return a :: rest)

section Steps

variable {s : RbMachine} {tree : RbTree} {path : RbPath} {self parent a : Addr} {root : Bool}
  {fuel : Nat}

@[simp] theorem side_other (way : Way) : way.other.side = way.side.other := by
  cases way <;> rfl

private theorem firstLoop_eq (fuel : Nat) (node : Addr) : firstLoop fuel node = descendLoop .back fuel node := by
  induction fuel generalizing node with
  | zero => rfl
  | succ fuel ih =>
      simp only [firstLoop, descendLoop, ih]
      rfl

/-- The way down ends at the first node of a walk. -/
theorem descendLoop_apply (way : Way) (good : 0 ∉ s.live) (rep : Rep s tree parent root) (nonempty : tree ≠ .nil)
    (enough : tree.height ≤ fuel) (rest : List Addr) :
    descendLoop way fuel (addr tree) s = some ((tree.walk way.side.other ++ rest).headD 0, s) := by
  induction tree generalizing fuel parent root rest with
  | nil => exact absurd rfl nonempty
  | node b red e l r leftIH rightIH =>
      obtain ⟨live, here, left, right⟩ := rep
      simp only [height] at enough
      obtain ⟨fuel, rfl⟩ : ∃ more, fuel = more + 1 := ⟨fuel - 1, by omega⟩
      cases way with
      | back =>
          by_cases empty : l = .nil
          · simp [descendLoop, live, here, Node.child, empty, Way.side, Side.other, walk]
          · have notNull := mt (addr_eq_zero good left).mp empty
            have below := leftIH left empty (show l.height ≤ fuel by omega) (b :: r.walk .right ++ rest)
            simpa [descendLoop, live, here, Node.child, notNull, Way.side, Side.other, walk] using below
      | forth =>
          by_cases empty : r = .nil
          · simp [descendLoop, live, here, Node.child, empty, Way.side, Side.other, walk]
          · have notNull := mt (addr_eq_zero good right).mp empty
            have below := rightIH right empty (show r.height ≤ fuel by omega) (b :: l.walk .left ++ rest)
            simpa [descendLoop, live, here, Node.child, notNull, Way.side, Side.other, walk] using below

/-- The way up ends at the first node beyond the hole. -/
theorem climbLoop_apply (way : Way) (good : 0 ∉ s.live) (live : a ∈ s.live)
    (parents : (s.cell a).parent = parentOf self path) (top : (s.cell a).isRoot = path.isEmpty)
    {red : Bool} (frames : RepPath s self path a red) (outside : a ∉ path.labels)
    (nodup : path.labels.Nodup) (enough : path.length < fuel) :
    climbLoop way fuel a s = some ((path.beyond way.side).headD 0, s) := by
  have notNull : a ≠ 0 := fun null => good (null ▸ live)
  induction path generalizing fuel a red with
  | nil =>
      obtain ⟨fuel, rfl⟩ : ∃ more, fuel = more + 1 := ⟨fuel - 1, by omega⟩
      simp at top
      simp [climbLoop, live, top]
  | cons frame path ih =>
      rcases frame with ⟨side, b, bRed, be, sibling⟩
      simp only [List.length_cons] at enough
      obtain ⟨fuel, rfl⟩ : ∃ more, fuel = more + 1 := ⟨fuel - 1, by omega⟩
      simp only [parentOf_cons, List.isEmpty_cons] at parents top
      simp only [Path.labels_cons, List.mem_cons, List.mem_append, not_or] at outside
      simp only [Path.labels_cons, List.nodup_cons, List.mem_append, not_or] at nodup
      have notSibling : a ≠ addr sibling := by
        rintro rfl
        exact outside.2.1 (addr_mem_labels notNull)
      have apart : (Path.labels path).Nodup := (List.nodup_append'.mp nodup.2).2.1
      cases side with
      | left =>
          obtain ⟨bLive, bCell, _, above⟩ := frames
          have bNotNull : b ≠ 0 := fun null => good (null ▸ bLive)
          cases way with
          | forth =>
              simp [climbLoop, live, top, parents, bLive, bCell, Node.child, notSibling, Way.side,
                Path.beyond]
          | back =>
              have up := ih bLive (by simp [bCell]) (by simp [bCell]) above nodup.1.2 apart
                (show path.length < fuel by omega) bNotNull
              simpa [climbLoop, live, top, parents, bLive, bCell, Node.child, Way.side, Path.beyond]
                using up
      | right =>
          obtain ⟨bLive, bCell, _, above⟩ := frames
          have bNotNull : b ≠ 0 := fun null => good (null ▸ bLive)
          cases way with
          | back =>
              simp [climbLoop, live, top, parents, bLive, bCell, Node.child, notSibling, Way.side,
                Path.beyond]
          | forth =>
              have up := ih bLive (by simp [bCell]) (by simp [bCell]) above nodup.1.2 apart
                (show path.length < fuel by omega) bNotNull
              simpa [climbLoop, live, top, parents, bLive, bCell, Node.child, Way.side, Path.beyond]
                using up

private theorem neighbour_apply (way : Way) {red : Bool} {e : Entry} {l r : RbTree} (good : 0 ∉ s.live)
    (rep : Rep s (path.plug (node a red e l r)) self true)
    (nodup : (path.plug (node a red e l r)).labels.Nodup)
    (enough : (path.plug (node a red e l r)).labels.length < fuel) :
    neighbour way fuel a s = some (((match way.side with | .left => l | .right => r).walk way.side ++
      path.beyond way.side).headD 0, s) := by
  obtain ⟨here, frames⟩ := rep_plug.mp rep
  obtain ⟨live, cell, left, right⟩ := here
  have notNull : a ≠ 0 := fun null => good (null ▸ live)
  have labels := path.labels_plug (node a red e l r)
  have length := labels.length_eq
  have distinct := labels.nodup_iff.mp nodup
  simp only [labels_node, List.cons_append, List.length_cons, List.length_append] at length
  simp only [labels_node, List.cons_append, List.nodup_cons, List.mem_append, not_or,
    List.nodup_append'] at distinct
  have short : path.length < fuel := by
    have := path.length_le_length_labels
    omega
  have climbs : climbLoop way fuel a s = some ((path.beyond way.side).headD 0, s) :=
    climbLoop_apply way good live (by simp [cell]) (by simp [cell]) frames distinct.1.2 distinct.2.2.1 short
  cases way with
  | forth =>
      by_cases empty : r = .nil
      · simpa [neighbour, notNull, live, cell, Node.child, empty, Way.side] using climbs
      · have rightNotNull := mt (addr_eq_zero good right).mp empty
        have low : r.height ≤ fuel := r.height_le_length_labels.trans (by omega)
        simpa [neighbour, notNull, live, cell, Node.child, rightNotNull, Way.side, Way.other, Side.other]
          using descendLoop_apply .back good right empty low (path.beyond .right)
  | back =>
      by_cases empty : l = .nil
      · simpa [neighbour, notNull, live, cell, Node.child, empty, Way.side] using climbs
      · have leftNotNull := mt (addr_eq_zero good left).mp empty
        have low : l.height ≤ fuel := l.height_le_length_labels.trans (by omega)
        simpa [neighbour, notNull, live, cell, Node.child, leftNotNull, Way.side, Way.other, Side.other]
          using descendLoop_apply .forth good left empty low (path.beyond .left)

theorem neighbour_walk (way : Way) (good : 0 ∉ s.live) (rep : Rep s tree self true) (nodup : tree.labels.Nodup)
    (enough : tree.labels.length < fuel) {done rest : List Addr}
    (here : tree.walk way.side = done ++ a :: rest) :
    neighbour way fuel a s = some (rest.headD 0, s) := by
  have member : a ∈ tree.labels := ((tree.walk_perm way.side).mem_iff).mp (by simp [here])
  obtain ⟨path, red, e, l, r, rfl⟩ := exists_plug member
  have step := neighbour_apply way good rep nodup enough
  have distinct : (done ++ a :: rest).Nodup :=
    here ▸ ((Path.plug path (node a red e l r)).walk_perm way.side).nodup_iff.mpr nodup
  rw [List.nodup_middle, List.nodup_cons, List.mem_append, not_or] at distinct
  rw [Path.walk_plug] at here
  cases way with
  | forth =>
      simp only [Way.side, walk, List.append_assoc, List.cons_append] at here step
      rw [← List.append_assoc] at here
      obtain ⟨_, _, same⟩ := (List.append_cons_inj_of_notMem distinct.1.1 distinct.1.2).mp here.symm
      rw [step, same]
  | back =>
      simp only [Way.side, walk, List.append_assoc, List.cons_append] at here step
      rw [← List.append_assoc] at here
      obtain ⟨_, _, same⟩ := (List.append_cons_inj_of_notMem distinct.1.1 distinct.1.2).mp here.symm
      rw [step, same]

private theorem visit_walk (way : Way) (good : 0 ∉ s.live) (rep : Rep s tree self true) (nodup : tree.labels.Nodup)
    (enough : tree.labels.length < fuel) {done rest : List Addr} (here : tree.walk way.side = done ++ rest)
    {limit : Nat} (inLimit : rest.length < limit) :
    visit (neighbour way fuel) limit (rest.headD 0) s = some (rest, s) := by
  induction rest generalizing done limit with
  | nil =>
      obtain ⟨limit, rfl⟩ : ∃ more, limit = more + 1 := ⟨limit - 1, by omega⟩
      simp [visit]
  | cons a rest ih =>
      obtain ⟨limit, rfl⟩ : ∃ more, limit = more + 1 := ⟨limit - 1, by omega⟩
      simp only [List.length_cons] at inLimit
      have live : a ∈ s.live :=
        rep.live a (((tree.walk_perm way.side).mem_iff).mp (by simp [here]))
      have notNull : a ≠ 0 := fun null => good (null ▸ live)
      have step := neighbour_walk way good rep nodup enough here
      have split : tree.walk way.side = (done ++ [a]) ++ rest := by simpa using here
      have beyond := ih split (show rest.length < limit by omega)
      rw [List.headD_cons, visit, if_neg notNull]
      simp only [bind_apply, step, andThen_some, beyond, pure_apply]

theorem Rep.walk_entries (rep : Rep s tree parent root) :
    (tree.walk .right).map (fun a => ((s.cell a).key, (s.cell a).data)) = tree.inorder := by
  induction tree generalizing parent root with
  | nil => rfl
  | node b red e l r leftIH rightIH =>
      obtain ⟨_, cell, left, right⟩ := rep
      simp [walk, leftIH left, rightIH right, cell]

end Steps

/-- The walks through a tree: forth through these nodes, and back. -/
structure Walks (fuel : Nat) (s : RbMachine) (nodes : List Addr) : Prop where
  forth : (do
    let first ← rbtFirst fuel s.glob.root
    visit (rbtNext fuel) fuel first) s = some (nodes, s)
  back : (do
    let last ← rbtLast fuel s.glob.root
    visit (rbtPrev fuel) fuel last) s = some (nodes.reverse, s)
  increasing : (nodes.map fun a => (s.cell a).key.toInt).Pairwise (· < ·)
  stored : ∀ key data, Bound fuel s key data ↔ ∃ a ∈ nodes, (s.cell a).key = key ∧ (s.cell a).data = data
  returns : ∀ x ∈ nodes, ∀ y, y ≠ 0 → rbtNext fuel x s = some (y, s) → rbtPrev fuel y s = some (x, s)

theorem Holds.first {s : RbMachine} {tree : RbTree} {nodes : List Addr} {levels fuel : Nat}
    (holds : Holds s tree nodes levels) (enough : tree.labels.length < fuel) :
    rbtFirst fuel s.glob.root s = some ((tree.walk .right).headD 0, s) := by
  have good := holds.stocked.good
  rw [holds.root]
  by_cases empty : tree = .nil
  · simp [rbtFirst, empty]
  · have first := descendLoop_apply .back good holds.rep empty (holds.height_lt enough).le []
    rw [List.append_nil] at first
    simpa [rbtFirst, firstLoop_eq, mt (addr_eq_zero good holds.rep).mp empty, Way.side, Side.other] using first

theorem Holds.last {s : RbMachine} {tree : RbTree} {nodes : List Addr} {levels fuel : Nat}
    (holds : Holds s tree nodes levels) (enough : tree.labels.length < fuel) :
    rbtLast fuel s.glob.root s = some ((tree.walk .left).headD 0, s) := by
  have good := holds.stocked.good
  rw [holds.root]
  by_cases empty : tree = .nil
  · simp [rbtLast, empty]
  · have last := descendLoop_apply .forth good holds.rep empty (holds.height_lt enough).le []
    rw [List.append_nil] at last
    simpa [rbtLast, mt (addr_eq_zero good holds.rep).mp empty, Way.side, Side.other] using last

theorem Holds.walks {s : RbMachine} {tree : RbTree} {nodes : List Addr} {levels fuel : Nat}
    (holds : Holds s tree nodes levels) (enough : tree.labels.length < fuel) :
    Walks fuel s (tree.walk .right) := by
  have good := holds.stocked.good
  have rep := holds.rep
  have nodup := (List.nodup_append'.mp holds.stocked.nodup).1
  have length : ∀ side, (tree.walk side).length = tree.labels.length :=
    fun side => (tree.walk_perm side).length_eq
  have reversed : tree.walk .left = (tree.walk .right).reverse := walk_other .right tree
  refine ⟨?_, ?_, ?_, fun key data => ?_, fun x member y notNull next => ?_⟩
  · have visited := visit_walk .forth good rep nodup enough (List.nil_append _).symm
      (show (tree.walk .right).length < fuel by rw [length]; exact enough)
    simp only [bind_apply, holds.first enough, andThen_some]
    exact visited
  · have visited := visit_walk .back good rep nodup enough (List.nil_append _).symm
      (show (tree.walk .left).length < fuel by rw [length]; exact enough)
    rw [← reversed]
    simp only [bind_apply, holds.last enough, andThen_some]
    exact visited
  · have sorted := holds.sorted
    rw [Sorted, ← rep.walk_entries, List.map_map] at sorted
    exact sorted
  · rw [holds.search_bound enough, ← rep.walk_entries, List.mem_map]
    simp only [Prod.mk.injEq]
  · obtain ⟨done, rest, split⟩ := List.append_of_mem member
    have here := neighbour_walk .forth good rep nodup enough split
    rw [show rbtNext fuel x s = neighbour .forth fuel x s from rfl, here] at next
    cases rest with
    | nil =>
        cases next
        exact absurd rfl notNull
    | cons z rest =>
        obtain rfl : z = y := by simpa using next
        have mirrored : tree.walk Way.back.side = rest.reverse ++ z :: x :: done.reverse := by
          rw [show tree.walk Way.back.side = tree.walk .left from rfl, reversed, split]
          simp
        exact neighbour_walk .back good rep nodup enough mirrored

/-- Every tree that calls make is walked through in order. -/
theorem reached_walks (malloc : Malloc) (calls : List Call) (fuel : Nat) (enough : calls.length < fuel)
    (s : RbMachine) (reached : Reached malloc fuel calls s) : ∃ nodes, Walks fuel s nodes := by
  obtain ⟨tree, _, _, holds, length⟩ := reached.holds enough
  exact ⟨tree.walk .right, holds.walks (by omega)⟩

theorem reached_walks_two : ∃ (s : RbMachine) (nodes : List Addr), s.glob.count = 2 ∧
    Walks 4 s nodes := by
  let calls : List Call := [.insert 7 70 false false, .insert 2 20 false false]
  obtain ⟨s, runs, two⟩ : ∃ s, runCalls .bump 4 calls ((rbtNewTree .bump true 0 0 emptyMemory).get rfl).2 =
      some ([.inserted .ok none, .inserted .ok none], s) ∧ s.glob.count = 2 := ⟨_, rfl, rfl⟩
  have reached : Reached .bump 4 calls s := ⟨emptyMemory, 0, 0, _, _, by simp [emptyMemory], rfl, runs⟩
  obtain ⟨nodes, walks⟩ := reached_walks .bump calls 4 (by decide) s reached
  exact ⟨s, nodes, two, walks⟩

end GbfLibrary.Rbtree
