import GbfLibrary.Rbtree.Failures
import Mathlib.Data.Nat.Log

/-!
# How deep a tree is

The recorded depth is at most logarithmic in the number of nodes, and no way into the
tree is longer than twice the depth.
-/

set_option autoImplicit false

namespace GbfLibrary.Rbtree

open Memory Prog Trees ColoredTree

/-- The bounds on a tree, with the number of iterations of `rbt_search` as its fuel. -/
structure Shallow (s : RbMachine) (tree : RbTree) (depth : Nat) : Prop where
  spells : Spells s s.glob.root tree
  recorded : s.glob.depth = depth
  full : 2 ^ depth ≤ tree.labels.length + 1
  paths : tree.height ≤ 2 * depth
  search : ∀ key, ∃ a, ∀ more,
    rbtSearch (2 * Nat.log 2 (tree.labels.length + 1) + more) key s = some (a, s)

private theorem Holds.shallow {s : RbMachine} {tree : RbTree} {nodes : List Addr} {levels : Nat}
    (holds : Holds s tree nodes levels) : Shallow s tree levels := by
  have full : 2 ^ levels ≤ tree.labels.length + 1 := holds.balanced.two_pow_le
  have paths : tree.height ≤ 2 * levels := by
    have bound := holds.balanced.height_le
    rwa [holds.black] at bound
  have deep : levels ≤ Nat.log 2 (tree.labels.length + 1) :=
    (Nat.le_log_iff_pow_le (by decide) (Nat.succ_ne_zero _)).mpr full
  refine ⟨holds.wellFormed.spells, holds.depth, full, paths, fun key => ?_⟩
  refine ⟨addr (seek (direction key) [] tree).2, fun more => ?_⟩
  exact rbtSearch_apply holds.stocked.good holds.rep holds.root (by omega)

/-- Every tree that calls make is shallow. -/
theorem reached_shallow (malloc : Malloc) (calls : List Call) (fuel : Nat) (enough : calls.length < fuel)
    (s : RbMachine) (reached : Reached malloc fuel calls s) :
    ∃ tree depth, s.glob.count = tree.labels.length ∧ Shallow s tree depth := by
  obtain ⟨tree, nodes, levels, holds, _⟩ := reached.holds enough
  exact ⟨tree, levels, holds.count, holds.shallow⟩

theorem reached_shallow_two : ∃ (s : RbMachine) (tree : RbTree) (depth : Nat), s.glob.count = 2 ∧
    s.glob.count = tree.labels.length ∧ Shallow s tree depth := by
  let calls : List Call := [.insert 2 20 false false, .insert 7 70 false false]
  obtain ⟨s, runs, two⟩ : ∃ s, runCalls .bump 4 calls ((rbtNewTree .bump true 0 0 emptyMemory).get rfl).2 =
      some ([.inserted .ok none, .inserted .ok none], s) ∧ s.glob.count = 2 := ⟨_, rfl, rfl⟩
  have reached : Reached .bump 4 calls s := ⟨emptyMemory, 0, 0, _, _, by simp [emptyMemory], rfl, runs⟩
  obtain ⟨tree, depth, bounds⟩ := reached_shallow .bump calls 4 (by decide) s reached
  exact ⟨s, tree, depth, two, bounds⟩

end GbfLibrary.Rbtree
