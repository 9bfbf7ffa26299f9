import GbfLibrary.TwoThree.Update

/-!
# Well-formed 2-3 trees

What a 2-3 tree in memory is, clause by clause: every clause reads the nodes and
the header as the C code does.
-/

set_option autoImplicit false

namespace GbfLibrary.TwoThree

open Memory Prog Trees Tree23

/-- What the child pointers and key fields below `root` spell out. -/
def Spells (s : TreeMachine) : Addr → LbsTree → Prop
  | root, .nil => root = 0
  | root, .two a e l r =>
      root = a ∧ a ≠ 0 ∧ a ∈ s.live ∧ (s.cell a).rkey = INVALID_KEY_VALUE ∧
      e = ((s.cell a).lkey, (s.cell a).lvalue) ∧
      Spells s (s.cell a).lchild l ∧ Spells s (s.cell a).rchild r
  | root, .three a e f l m r =>
      root = a ∧ a ≠ 0 ∧ a ∈ s.live ∧ (s.cell a).rkey ≠ INVALID_KEY_VALUE ∧
      e = ((s.cell a).lkey, (s.cell a).lvalue) ∧ f = ((s.cell a).rkey, (s.cell a).rvalue) ∧
      Spells s (s.cell a).lchild l ∧ Spells s (s.cell a).mchild m ∧ Spells s (s.cell a).rchild r

/-- The rules that a node and its children obey. -/
structure NodeRules (s : TreeMachine) (a : Addr) : Prop where
  valid : (s.cell a).lkey ≠ INVALID_KEY_VALUE
  oneKey : (s.cell a).rkey = INVALID_KEY_VALUE →
    (s.cell a).mchild = 0 ∧ ((s.cell a).lchild = 0 ↔ (s.cell a).rchild = 0)
  twoKeys : (s.cell a).rkey ≠ INVALID_KEY_VALUE →
    (s.cell a).lkey < (s.cell a).rkey ∧
      ((s.cell a).lchild = 0 ↔ (s.cell a).mchild = 0) ∧
      ((s.cell a).lchild = 0 ↔ (s.cell a).rchild = 0)
  noFourth : (s.cell a).mchild2 = 0
  parents : ∀ child ∈ [(s.cell a).lchild, (s.cell a).mchild, (s.cell a).rchild], child ≠ 0 →
    (s.cell child).parent = a

structure WellFormed (s : TreeMachine) (tree : LbsTree) : Prop where
  spells : Spells s s.glob.root tree
  distinct : tree.labels.Nodup
  rules : ∀ a ∈ tree.labels, NodeRules s a
  ordered : tree.Ordered rank
  leaves : ∃ levels : Nat, tree.Uniform levels ∧ s.glob.level = levels
  rootBit : ∀ a ∈ tree.labels, (s.cell a).isroot = 1 ↔ a = s.glob.root
  rootParent : s.glob.root ≠ 0 → (s.cell s.glob.root).parent = s.glob.slot
  count : s.glob.nodeCount = tree.inorder.length

section Facts

variable {s : TreeMachine} {tree : LbsTree} {levels height : Nat} {parent : Addr} {root : Int}

theorem Rep.spells (good : 0 ∉ s.live) (rep : Rep s tree parent root) :
    Spells s (addr tree) tree := by
  induction tree generalizing parent root with
  | nil => rfl
  | two a e l r leftIH rightIH =>
      obtain ⟨live, _, cell, left, right⟩ := rep
      refine ⟨rfl, fun null => good (null ▸ live), live, ?_, ?_, ?_, ?_⟩
      · simp [cell]
      · simp [cell]
      · simpa [cell] using leftIH left
      · simpa [cell] using rightIH right
  | three a e f l m r leftIH middleIH rightIH =>
      obtain ⟨live, _, valid, cell, left, middle, right⟩ := rep
      refine ⟨rfl, fun null => good (null ▸ live), live, ?_, ?_, ?_, ?_, ?_, ?_⟩
      · simpa [cell] using valid
      · simp [cell]
      · simp [cell]
      · simpa [cell] using leftIH left
      · simpa [cell] using middleIH middle
      · simpa [cell] using rightIH right

theorem Rep.addr_eq_zero (good : 0 ∉ s.live) (rep : Rep s tree parent root)
    (uniform : tree.Uniform height) : addr tree = 0 ↔ height = 0 := by
  cases height with
  | zero => simp [uniform.eq_nil]
  | succ height => simpa using rep.addr_ne_of_uniform good uniform

theorem Rep.atRoot (rep : Rep s tree parent root) (notNull : addr tree ≠ 0) :
    (s.cell (addr tree)).parent = parent ∧ (s.cell (addr tree)).isroot = root := by
  cases tree with
  | nil => simp at notNull
  | two a e l r => simp [rep.2.2.1]
  | three a e f l m r => simp [rep.2.2.2.1]

/-- Only the root of the whole tree has the root flag. -/
theorem Rep.isroot (nodup : tree.labels.Nodup) (rep : Rep s tree parent root) :
    ∀ a ∈ tree.labels, (s.cell a).isroot = 1 ↔ root = 1 ∧ a = addr tree := by
  induction tree generalizing parent root with
  | nil => simp
  | two a e l r leftIH rightIH =>
      obtain ⟨_, _, cell, left, right⟩ := rep
      simp only [labels_two, List.nodup_cons, List.mem_append, not_or, List.nodup_append'] at nodup
      intro b member
      simp only [labels_two, List.mem_cons, List.mem_append] at member
      rcases member with rfl | inLeft | inRight
      · simp [cell]
      · have different : b ≠ a := fun same => nodup.1.1 (same ▸ inLeft)
        simp [leftIH nodup.2.1 left b inLeft, different]
      · have different : b ≠ a := fun same => nodup.1.2 (same ▸ inRight)
        simp [rightIH nodup.2.2.1 right b inRight, different]
  | three a e f l m r leftIH middleIH rightIH =>
      obtain ⟨_, _, _, cell, left, middle, right⟩ := rep
      simp only [labels_three, List.nodup_cons, List.mem_append, not_or, List.nodup_append'] at nodup
      obtain ⟨⟨notLeft, notMiddle, notRight⟩, leftNodup, ⟨middleNodup, rightNodup, _⟩, _⟩ := nodup
      intro b member
      simp only [labels_three, List.mem_cons, List.mem_append] at member
      rcases member with rfl | inLeft | inMiddle | inRight
      · simp [cell]
      · have different : b ≠ a := fun same => notLeft (same ▸ inLeft)
        simp [leftIH leftNodup left b inLeft, different]
      · have different : b ≠ a := fun same => notMiddle (same ▸ inMiddle)
        simp [middleIH middleNodup middle b inMiddle, different]
      · have different : b ≠ a := fun same => notRight (same ▸ inRight)
        simp [rightIH rightNodup right b inRight, different]

private theorem nodeRules_two {a : Addr} {e : Entry} {l r : LbsTree} (good : 0 ∉ s.live)
    (rep : Rep s (two a e l r) parent root) (leftEven : l.Uniform height)
    (rightEven : r.Uniform height) : NodeRules s a := by
  obtain ⟨_, valid, cell, left, right⟩ := rep
  refine ⟨by simpa [cell] using valid, fun _ => ⟨by simp [cell], ?_⟩, ?_, by simp [cell], ?_⟩
  · simp only [cell]
    rw [left.addr_eq_zero good leftEven, right.addr_eq_zero good rightEven]
  · simp [cell]
  · simp only [cell, List.mem_cons, List.not_mem_nil, or_false]
    rintro child (rfl | rfl | rfl) some
    · exact (left.atRoot some).1
    · exact absurd rfl some
    · exact (right.atRoot some).1

private theorem nodeRules_three {a : Addr} {e f : Entry} {l m r : LbsTree} (good : 0 ∉ s.live)
    (rep : Rep s (three a e f l m r) parent root) (smaller : rank e < rank f)
    (leftEven : l.Uniform height) (middleEven : m.Uniform height) (rightEven : r.Uniform height) :
    NodeRules s a := by
  obtain ⟨_, first, second, cell, left, middle, right⟩ := rep
  refine ⟨by simpa [cell] using first, ?_, fun _ => ⟨?_, ?_, ?_⟩, by simp [cell], ?_⟩
  · simp [cell, second]
  · simpa [cell] using (key_lt smaller).1
  · simp only [cell]
    rw [left.addr_eq_zero good leftEven, middle.addr_eq_zero good middleEven]
  · simp only [cell]
    rw [left.addr_eq_zero good leftEven, right.addr_eq_zero good rightEven]
  · simp only [cell, List.mem_cons, List.not_mem_nil, or_false]
    rintro child (rfl | rfl | rfl) some
    · exact (left.atRoot some).1
    · exact (middle.atRoot some).1
    · exact (right.atRoot some).1

theorem Rep.nodeRules (good : 0 ∉ s.live) (rep : Rep s tree parent root)
    (ordered : tree.Ordered rank) (uniform : tree.Uniform height) :
    ∀ a ∈ tree.labels, NodeRules s a := by
  induction uniform generalizing parent root with
  | nil => simp
  | two leftEven rightEven leftIH rightIH =>
      obtain ⟨_, _, leftOrdered, rightOrdered⟩ := ordered
      simp only [labels_two, List.mem_cons, List.mem_append]
      rintro b (rfl | inLeft | inRight)
      · exact nodeRules_two good rep leftEven rightEven
      · exact leftIH rep.2.2.2.1 leftOrdered b inLeft
      · exact rightIH rep.2.2.2.2 rightOrdered b inRight
  | three leftEven middleEven rightEven leftIH middleIH rightIH =>
      obtain ⟨smaller, _, _, _, leftOrdered, middleOrdered, rightOrdered⟩ := ordered
      simp only [labels_three, List.mem_cons, List.mem_append]
      rintro b (rfl | inLeft | inMiddle | inRight)
      · exact nodeRules_three good rep smaller leftEven middleEven rightEven
      · exact leftIH rep.2.2.2.2.1 leftOrdered b inLeft
      · exact middleIH rep.2.2.2.2.2.1 middleOrdered b inMiddle
      · exact rightIH rep.2.2.2.2.2.2 rightOrdered b inRight

/-- The invariant says everything that the rules demand. -/
theorem Holds.wellFormed (holds : Holds s tree levels) : WellFormed s tree := by
  obtain ⟨rep, top, good, nodup, uniform, level, sorted, count⟩ := holds
  have ordered := ordered_of_sorted rank tree sorted
  refine ⟨by rw [top]; exact rep.spells good, nodup, rep.nodeRules good ordered uniform, ordered,
    ⟨levels, uniform, level⟩, ?_, ?_, count⟩
  · intro a member
    rw [top]
    simpa using rep.isroot nodup a member
  · intro notNull
    rw [top] at notNull ⊢
    exact (rep.atRoot notNull).1

end Facts

end GbfLibrary.TwoThree
