import GbfLibrary.Trees.RedBlack
import Mathlib.Data.List.Count

/-!
# Rebalancing left-leaning red-black trees

`Grow` puts one more black node at the hole of a path, `Shrink` takes a node
away from there. Both are relations between a path and the whole tree that
results, one constructor for each shape around the hole; the constructors with
a premise move on to the frames above.
-/

set_option autoImplicit false

namespace GbfLibrary.Trees

variable {A E : Type}

open ColoredTree

/-!
## Growing
-/

/-- `Grow path label entry left right tree deeper`: the black node `label` with
these subtrees is one level too high for the hole of `path`. The path takes it
in as `tree`, which is `deeper` levels higher than before. -/
inductive Grow : Path A E → A → E → ColoredTree A E → ColoredTree A E → ColoredTree A E → Nat → Prop where
  | root {a : A} {e : E} {l r : ColoredTree A E} :
      Grow [] a e l r (node a false e l r) 1
  | joinLeft {p a : A} {pe e : E} {b l r : ColoredTree A E} {path : Path A E} :
      Grow (⟨.left, p, false, pe, b⟩ :: path) a e l r
        (path.plug (node p false pe (node a true e l r) b)) 0
  | joinRight {p a : A} {pe e : E} {b l r : ColoredTree A E} {path : Path A E}
      (black : b.isRed = false) :
      Grow (⟨.right, p, false, pe, b⟩ :: path) a e l r
        (path.plug (node a false e (node p true pe b l) r)) 0
  | splitRight {p c a : A} {pe ce e : E} {x y l r tree : ColoredTree A E} {path : Path A E} {deeper : Nat}
      (above : Grow path p pe (node c false ce x y) (node a false e l r) tree deeper) :
      Grow (⟨.right, p, false, pe, node c true ce x y⟩ :: path) a e l r tree deeper
  | splitOuter {p g a : A} {pe ge e : E} {u v l r tree : ColoredTree A E} {path : Path A E} {deeper : Nat}
      (black : u.isRed = false)
      (above : Grow path p pe (node a false e l r) (node g false ge u v) tree deeper) :
      Grow (⟨.left, p, true, pe, u⟩ :: ⟨.left, g, false, ge, v⟩ :: path) a e l r tree deeper
  | splitInner {p g a : A} {pe ge e : E} {u v l r tree : ColoredTree A E} {path : Path A E} {deeper : Nat}
      (above : Grow path a e (node p false pe u l) (node g false ge r v) tree deeper) :
      Grow (⟨.right, p, true, pe, u⟩ :: ⟨.left, g, false, ge, v⟩ :: path) a e l r tree deeper

namespace Grow

variable {path : Path A E} {a : A} {e : E} {l r tree : ColoredTree A E} {deeper height total : Nat}

theorem inorder (grow : Grow path a e l r tree deeper) :
    tree.inorder = path.before ++ ((node a false e l r).inorder ++ path.after) := by
  induction grow with
  | root => simp [Path.before, Path.after]
  | joinLeft => simp [Path.inorder_plug, Path.before, Path.after]
  | joinRight => simp [Path.inorder_plug, Path.before, Path.after]
  | splitRight _ ih => simp [ih, Path.before, Path.after]
  | splitOuter _ _ ih => simp [ih, Path.before, Path.after]
  | splitInner _ ih => simp [ih, Path.before, Path.after]

theorem labels (grow : Grow path a e l r tree deeper) :
    tree.labels.Perm ((node a false e l r).labels ++ path.labels) := by
  classical
  refine List.perm_iff_count.mpr fun x => ?_
  induction grow with
  | root => simp
  | joinLeft =>
      rw [(Path.labels_plug _ _).count_eq]
      simp only [labels_node, Path.labels_cons, List.count_cons, List.count_append]
      omega
  | joinRight =>
      rw [(Path.labels_plug _ _).count_eq]
      simp only [labels_node, Path.labels_cons, List.count_cons, List.count_append]
      omega
  | splitRight _ ih | splitOuter _ _ ih | splitInner _ ih =>
      rw [ih]
      simp only [labels_node, Path.labels_cons, List.count_cons, List.count_append]
      omega

theorem balanced (grow : Grow path a e l r tree deeper)
    (frames : path.Balanced false height total) (left : l.Balanced height)
    (right : r.Balanced height) (leftBlack : l.isRed = false) (rightBlack : r.isRed = false) :
    tree.Balanced (total + deeper) ∧ tree.isRed = false := by
  induction grow generalizing height with
  | root =>
      obtain ⟨_, rfl⟩ := frames
      exact ⟨.black left right rightBlack, rfl⟩
  | joinLeft =>
      obtain ⟨sibling, _, black, outer⟩ := frames
      exact Path.Balanced.plug outer
        (.black (.red left right leftBlack rightBlack) sibling (black (.inr rfl)))
  | joinRight black =>
      obtain ⟨sibling, _, _, outer⟩ := frames
      exact Path.Balanced.plug outer (.black (.red sibling left black leftBlack) right rightBlack)
  | splitRight _ ih =>
      obtain ⟨sibling, _, _, outer⟩ := frames
      cases sibling with
      | red x y _ yBlack =>
          exact ih outer (.black x y yBlack) (.black left right rightBlack) rfl rfl
  | splitOuter _ _ ih =>
      obtain ⟨inner, _, innerBlack, sibling, _, black, outer⟩ := frames
      exact ih outer (.black left right rightBlack)
        (.black inner sibling (black (.inr rfl))) rfl rfl
  | splitInner _ ih =>
      obtain ⟨inner, _, innerBlack, sibling, _, black, outer⟩ := frames
      exact ih outer (.black inner left leftBlack)
        (.black right sibling (black (.inr rfl))) rfl rfl

theorem exists_of_balanced : (path : Path A E) → {height total : Nat} →
    path.Balanced false height total → (a : A) → (e : E) → (l r : ColoredTree A E) →
    ∃ tree deeper, Grow path a e l r tree deeper
  | [], _, _, _, _, _, _, _ => ⟨_, _, .root⟩
  | ⟨.left, _, false, _, _⟩ :: _, _, _, _, _, _, _, _ => ⟨_, _, .joinLeft⟩
  | ⟨.right, _, false, _, .nil⟩ :: _, _, _, _, _, _, _, _ => ⟨_, _, .joinRight rfl⟩
  | ⟨.right, _, false, _, .node _ false _ _ _⟩ :: _, _, _, _, _, _, _, _ =>
      ⟨_, _, .joinRight rfl⟩
  | ⟨.right, p, false, pe, .node c true ce x y⟩ :: path, _, _, frames, a, e, l, r =>
      let ⟨tree, deeper, above⟩ := exists_of_balanced path frames.2.2.2 p pe
        (node c false ce x y) (node a false e l r)
      ⟨tree, deeper, .splitRight above⟩
  | [⟨_, _, true, _, _⟩], _, _, frames, _, _, _, _ => by
      simpa using frames.2.2.2.1
  | ⟨_, _, true, _, _⟩ :: ⟨.right, _, _, _, _⟩ :: _, _, _, frames, _, _, _, _ => by
      simpa using (frames.2.2.2.2.1 rfl).1
  | ⟨_, _, true, _, _⟩ :: ⟨_, _, true, _, _⟩ :: _, _, _, frames, _, _, _, _ => by
      simpa using (frames.2.2.2.2.1 rfl).2
  | ⟨.left, p, true, pe, u⟩ :: ⟨.left, g, false, ge, v⟩ :: path, _, _, frames, a, e, l, r =>
      let ⟨tree, deeper, above⟩ := exists_of_balanced path frames.2.2.2.2.2.2 p pe
        (node a false e l r) (node g false ge u v)
      ⟨tree, deeper, .splitOuter (frames.2.2.1 (.inl rfl)) above⟩
  | ⟨.right, p, true, pe, u⟩ :: ⟨.left, g, false, ge, v⟩ :: path, _, _, frames, a, e, l, r =>
      let ⟨tree, deeper, above⟩ := exists_of_balanced path frames.2.2.2.2.2.2 a e
        (node p false pe u l) (node g false ge r v)
      ⟨tree, deeper, .splitInner above⟩

end Grow

/-!
## Shrinking
-/

/-- `Shrink path op red rest tree freed higher`: the node `op` of the given
colour fills the hole of `path`, has no entry any more and `rest` as its only
subtree. Dropping it gives `tree`, which is `higher` levels lower than before;
`freed` is the node that no longer belongs to the tree. -/
inductive Shrink : Path A E → A → Bool → ColoredTree A E → ColoredTree A E → A → Nat → Prop where
  | root {op : A} {rest : ColoredTree A E} :
      Shrink [] op false rest rest op 1
  | red {op p : A} {pe : E} {rest b : ColoredTree A E} {path : Path A E} :
      Shrink (⟨.left, p, false, pe, b⟩ :: path) op true rest
        (path.plug (node p false pe rest b)) op 0
  | redBrotherInner {op p b n g : A} {pe be ne ge : E} {rest x y w z : ColoredTree A E}
      {path : Path A E} (black : y.isRed = false) :
      Shrink (⟨.right, p, false, pe,
          node b true be x (node n false ne (node g true ge w z) y)⟩ :: path) op false rest
        (path.plug (node p false ne (node b true be x (node g false ge w z))
          (node op false pe y rest))) n 0
  | redBrotherOuter {op p b n : A} {pe be ne : E} {rest x y z : ColoredTree A E} {path : Path A E}
      (xNode : x ≠ .nil) (xBlack : x.isRed = false) (yBlack : y.isRed = false) :
      Shrink (⟨.right, p, false, pe, node b true be x (node n false ne y z)⟩ :: path) op false rest
        (path.plug (node p false be x (node op false pe (node n true ne y z) rest))) b 0
  | redLinkLeft {op p b n : A} {red : Bool} {pe be ne : E} {rest y w z : ColoredTree A E}
      {path : Path A E} (black : w.isRed = false) :
      Shrink (⟨.left, p, red, pe, node b false be (node n true ne y w) z⟩ :: path) op false rest
        (path.plug (node p red ne (node op false pe rest y) (node b false be w z))) n 0
  | redLinkRight {op p b n : A} {red : Bool} {pe be ne : E} {rest x y w : ColoredTree A E}
      {path : Path A E} (black : w.isRed = false) :
      Shrink (⟨.right, p, red, pe, node b false be (node n true ne x y) w⟩ :: path) op false rest
        (path.plug (node p red be (node n false ne x y) (node op false pe w rest))) b 0
  | mergeLeft {op p b freed : A} {red : Bool} {pe be : E} {rest y z tree : ColoredTree A E}
      {path : Path A E} {higher : Nat} (black : y.isRed = false)
      (above : Shrink path p red (node b false be (node op true pe rest y) z) tree freed higher) :
      Shrink (⟨.left, p, red, pe, node b false be y z⟩ :: path) op false rest tree freed higher
  | mergeRight {op p b freed : A} {red : Bool} {pe be : E} {rest x y tree : ColoredTree A E}
      {path : Path A E} {higher : Nat} (black : x.isRed = false)
      (above : Shrink path p red (node op false pe (node b true be x y) rest) tree freed higher) :
      Shrink (⟨.right, p, red, pe, node b false be x y⟩ :: path) op false rest tree freed higher

namespace Shrink

variable {path : Path A E} {op freed : A} {red : Bool} {rest tree : ColoredTree A E}
  {higher height total : Nat}

theorem inorder (shrink : Shrink path op red rest tree freed higher) :
    tree.inorder = path.before ++ (rest.inorder ++ path.after) := by
  induction shrink with
  | root => simp [Path.before, Path.after]
  | red | redBrotherInner | redBrotherOuter | redLinkLeft | redLinkRight =>
      simp [Path.inorder_plug, Path.before, Path.after]
  | mergeLeft _ _ ih | mergeRight _ _ ih => simp [ih, Path.before, Path.after]

theorem labels (shrink : Shrink path op red rest tree freed higher) :
    (freed :: tree.labels).Perm (op :: (rest.labels ++ path.labels)) := by
  classical
  refine List.perm_iff_count.mpr fun x => ?_
  induction shrink with
  | root => simp
  | red | redBrotherInner | redBrotherOuter | redLinkLeft | redLinkRight =>
      rw [List.count_cons, (Path.labels_plug _ _).count_eq]
      simp only [labels_node, Path.labels_cons, List.count_cons, List.count_append]
      omega
  | mergeLeft _ _ ih | mergeRight _ _ ih =>
      rw [ih]
      simp only [labels_node, Path.labels_cons, List.count_cons, List.count_append]
      omega

theorem balanced (shrink : Shrink path op red rest tree freed higher)
    (frames : path.Balanced red (if red then height else height + 1) total)
    (below : rest.Balanced height) (restBlack : rest.isRed = false) :
    ∃ lower, lower + higher = total ∧ tree.Balanced lower ∧ tree.isRed = false := by
  induction shrink generalizing height with
  | root =>
      obtain ⟨_, rfl⟩ := frames
      exact ⟨height, rfl, below, restBlack⟩
  | red =>
      obtain ⟨sibling, hole, black, outer⟩ := frames
      exact ⟨total, rfl, Path.Balanced.plug outer (.black below sibling (black (.inr rfl)))⟩
  | redBrotherInner =>
      obtain ⟨sibling, _, _, outer⟩ := frames
      cases sibling with
      | red x nephew xBlack _ =>
          cases nephew with
          | black grandson y yBlack =>
              cases grandson with
              | red w z _ zBlack =>
                  exact ⟨total, rfl, Path.Balanced.plug outer
                    (.black (.red x (.black w z zBlack) xBlack rfl) (.black y below restBlack) rfl)⟩
  | redBrotherOuter _ _ black =>
      obtain ⟨sibling, _, _, outer⟩ := frames
      cases sibling with
      | red x nephew xBlack _ =>
          cases nephew with
          | black y z zBlack =>
              exact ⟨total, rfl, Path.Balanced.plug outer
                (.black x (.black (.red y z black zBlack) below restBlack) rfl)⟩
  | redLinkLeft =>
      obtain ⟨sibling, _, _, outer⟩ := frames
      cases sibling with
      | black nephew z zBlack =>
          cases nephew with
          | red y w yBlack wBlack =>
              exact ⟨total, rfl, Path.Balanced.plug outer
                (.join (.black below y yBlack) (.black w z zBlack) rfl rfl)⟩
  | redLinkRight =>
      obtain ⟨sibling, _, _, outer⟩ := frames
      cases sibling with
      | black nephew w wBlack =>
          cases nephew with
          | red x y xBlack yBlack =>
              exact ⟨total, rfl, Path.Balanced.plug outer
                (.join (.black x y yBlack) (.black w below restBlack) rfl rfl)⟩
  | mergeLeft black _ ih =>
      obtain ⟨sibling, _, _, outer⟩ := frames
      cases sibling with
      | black y z zBlack =>
          exact ih outer (.black (.red below y restBlack black) z zBlack) rfl
  | mergeRight black _ ih =>
      obtain ⟨sibling, _, _, outer⟩ := frames
      cases sibling with
      | black x y yBlack =>
          exact ih outer (.black (.red x y black yBlack) below restBlack) rfl

/-- A node can be dropped from the hole of every balanced path. -/
theorem exists_of_balanced : (path : Path A E) → {red : Bool} → {height total : Nat} →
    path.Balanced red (if red then height else height + 1) total → (op : A) → (rest : ColoredTree A E) →
    ∃ tree freed higher, Shrink path op red rest tree freed higher
  | [], _, _, _, frames, op, rest => by
      obtain ⟨rfl, _⟩ := frames
      exact ⟨_, _, _, .root⟩
  | ⟨side, p, frameRed, pe, sibling⟩ :: path, true, height, _, frames, op, rest => by
      obtain ⟨rfl, rfl⟩ := frames.2.1 rfl
      exact ⟨_, _, _, .red⟩
  | ⟨side, p, frameRed, pe, sibling⟩ :: path, false, height, _, frames, op, rest => by
      obtain ⟨balanced, _, black, outer⟩ := frames
      cases redBrother : sibling.isRed with
      | true =>
          cases side with
          | left => simp [redBrother] at black
          | right =>
              have frameBlack : frameRed = false := by
                by_contra frameRed
                simp [redBrother, frameRed] at black
              obtain ⟨b, be, x, nephew, rfl, xBalanced, nephewBalanced, xBlack, nephewBlack⟩ :=
                balanced.red_node redBrother
              obtain ⟨n, ne, y, z, rfl, yBalanced, _, zBlack⟩ := nephewBalanced.black_node nephewBlack
              subst frameBlack
              cases redLink : y.isRed with
              | false =>
                  obtain ⟨_, _, _, _, rfl, _⟩ := xBalanced.black_node xBlack
                  exact ⟨_, _, _, .redBrotherOuter (by simp) xBlack redLink⟩
              | true =>
                  obtain ⟨g, ge, w, v, rfl, _, _, _, _⟩ := yBalanced.red_node redLink
                  exact ⟨_, _, _, .redBrotherInner zBlack⟩
      | false =>
          obtain ⟨b, be, x, y, rfl, xBalanced, _, yBlack⟩ := balanced.black_node redBrother
          cases redLink : x.isRed with
          | true =>
              obtain ⟨n, ne, w, v, rfl, _, _, _, vBlack⟩ := xBalanced.red_node redLink
              cases side with
              | left => exact ⟨_, _, _, .redLinkLeft vBlack⟩
              | right => exact ⟨_, _, _, .redLinkRight yBlack⟩
          | false =>
              have merge : ∀ merged, ∃ tree freed higher,
                  Shrink path p frameRed merged tree freed higher := by
                intro merged
                cases frameRed <;> exact exists_of_balanced path outer p merged
              cases side with
              | left =>
                  obtain ⟨_, _, _, above⟩ := merge _
                  exact ⟨_, _, _, .mergeLeft redLink above⟩
              | right =>
                  obtain ⟨_, _, _, above⟩ := merge _
                  exact ⟨_, _, _, .mergeRight redLink above⟩

end Shrink

end GbfLibrary.Trees
