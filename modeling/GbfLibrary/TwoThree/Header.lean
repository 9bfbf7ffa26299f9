import GbfLibrary.TwoThree.Model

/-!
# The header of a 2-3 tree

No call on a tree allocates or frees anything but nodes.
-/

set_option autoImplicit false

namespace GbfLibrary.TwoThree

open Memory Prog

section Steps

private theorem swapKey_spares (a : Addr) (x : Side) (b : Addr) (y : Side) : Spares (swapKey a x b y) :=
  .bind (.load b) fun _ => .bind (.store a _) fun _ => .bind (.load a) fun _ => .bind (.store b _)
    fun _ => .bind (.load b) fun _ => .store a _

private theorem swapValue_spares (a : Addr) (x : Side) (b : Addr) (y : Side) : Spares (swapValue a x b y) :=
  .bind (.load b) fun _ => .bind (.store a _) fun _ => .bind (.load a) fun _ => .bind (.store b _)
    fun _ => .bind (.load b) fun _ => .store a _

private theorem swapPair_spares {a : Addr} {x : Side} {b : Addr} {y : Side} : Spares (swapPair a x b y) :=
  .bind (swapKey_spares a x b y) fun _ => swapValue_spares a x b y

private theorem adopt_spares {link : Addr → Addr → TreeProg Unit} (links : ∀ a b, Spares (link a b)) (parent child : Addr) :
    Spares (adopt link parent child) :=
  .ite (.ite (.bind (links parent child) fun _ => .store child _) (.pure ())) (.pure ())

private theorem setLeftChild_spares {parent child : Addr} : Spares (setLeftChild parent child) :=
  adopt_spares (fun a _ => .store a _) parent child

private theorem setMidChild_spares {parent child : Addr} : Spares (setMidChild parent child) :=
  adopt_spares (fun a _ => .store a _) parent child

private theorem setRightChild_spares {parent child : Addr} : Spares (setRightChild parent child) :=
  adopt_spares (fun a _ => .store a _) parent child

private theorem setRelations_spares (parent left mid right : Addr) : Spares (setRelations parent left mid right) :=
  .bind setLeftChild_spares fun _ => .bind setMidChild_spares fun _ =>
    setRightChild_spares

private theorem changeRootNode_spares (new old : Addr) : Spares (changeRootNode new old) := by
  apply Spares.bind (.load old)
  intro o
  apply Spares.ite ?_ .fault
  apply Spares.bind .getGlob
  intro tree
  have rest : Spares (do
      if new ≠ 0 then (do
        setParent new o.parent
        store new fun n => { n with isroot := 1 })
      else pure ()
      store old fun n => { n with isroot := 0 }) :=
    .ite (.bind (.bind (.store new _) fun _ => .store new _) fun _ => .store old _) (.store old _)
  exact .ite (.bind (.setGlob _) fun _ => rest) (.bind .fault fun _ => rest)

private theorem addLevel_spares {slot : Addr} {difference : Int} : Spares (addLevel slot difference) :=
  .bind .getGlob fun _ => .ite (.setGlob _) .fault

private theorem newNode_spares (malloc : Malloc) (value key : Word) : Spares (newNode malloc value key) :=
  .bind (.calloc malloc _) fun node => .ite (.pure 0) (.bind (.store node _) fun _ => .bind (.store node _) fun _ =>
    .pure node)

private theorem searchNodeOrParent_spares (fuel : Nat) (starter : Addr) (key : Word) :
    Spares (searchNodeOrParent fuel starter key) := by
  induction fuel generalizing starter with
  | zero => exact .fault
  | succ fuel ih =>
      apply Spares.ite (.pure _)
      apply Spares.bind (.load starter)
      intro n
      exact .ite (.pure _) (.ite (.pure _) (.ite (.pure _) (ih _)))

end Steps

section Insertion

private theorem mergeNodes_spares (node parent : Addr) : Spares (mergeNodes node parent) := by
  have swaps : ∀ x, Spares (do
      swapValue parent x node .l
      swapKey parent x node .l) :=
    fun x => .bind (swapValue_spares parent x node .l) fun _ => swapKey_spares parent x node .l
  apply Spares.bind (.load node)
  intro n
  apply Spares.bind (.load parent)
  intro p
  exact .ite (.pure ()) (.ite (swaps .l) (.ite (swaps .r) (.pure ())))

private theorem divideNode_spares (malloc : Malloc) (node : Addr) : Spares (divideNode malloc node) := by
  apply Spares.bind (.load node)
  intro n
  apply Spares.bind (newNode_spares malloc _ _)
  intro dnode
  apply Spares.ite (.pure 0)
  apply Spares.bind (.store node _)
  intro _
  apply Spares.bind (.store node _)
  intro _
  apply Spares.bind (.load node)
  intro n
  refine .ite (.bind ?_ fun _ => .pure dnode) (.pure dnode)
  exact .bind (setRelations_spares dnode _ 0 _) fun _ => .bind (.store node _) fun _ => .bind (.store node _) fun _ =>
    .store node _

private theorem insertDividedNode_spares (source node parent : Addr) : Spares (insertDividedNode source node parent) := by
  apply Spares.bind (.load parent)
  intro p
  apply Spares.ite
  · exact .ite (.bind (.store parent _) fun _ => .store parent _) (.bind (.store parent _) fun _ => .store parent _)
  · apply Spares.ite (.store parent _)
    exact .ite (.ite (.bind (.store parent _) fun _ => .store parent _) (.store parent _)) (.pure ())

private theorem insertInto_spares (malloc : Malloc) (fuel : Nat) (node parent : Addr) :
    Spares (insertInto malloc fuel node parent) := by
  induction fuel generalizing parent with
  | zero => exact .fault
  | succ fuel ih =>
      apply Spares.ite (.pure _)
      apply Spares.bind (.load parent)
      intro p
      apply Spares.bind (.load node)
      intro n
      apply Spares.ite
      · apply Spares.ite .fault
        apply Spares.bind (mergeNodes_spares node parent)
        intro _
        apply Spares.bind (divideNode_spares malloc parent)
        intro dnode
        apply Spares.ite (.pure _)
        apply Spares.ite
        · exact .bind (changeRootNode_spares node parent) fun _ => .bind (setRelations_spares node parent 0 dnode) fun _ =>
            .bind addLevel_spares fun _ => .pure Status.ok
        · exact .bind (.store dnode _) fun _ => .bind (insertDividedNode_spares parent dnode p.parent) fun _ => ih p.parent
      · have frees : Spares (do
            free node
            return .ok : TreeProg Status) := .bind (.free node) fun _ => .pure Status.ok
        exact .ite (.bind (.store parent _) fun _ => frees)
          (.bind (.bind (.store parent _) fun _ => .store parent _) fun _ => frees)

theorem insert_spares (malloc : Malloc) (fuel : Nat) (value key : Word) : Spares (insert malloc fuel value key) := by
  apply Spares.ite (.pure _)
  apply Spares.bind (newNode_spares malloc value key)
  intro node
  apply Spares.ite (.pure _)
  apply Spares.bind .getGlob
  intro tree
  apply Spares.ite
  · exact .bind (.setGlob _) fun _ => .bind (.setGlob _) fun _ => .bind (.setGlob _) fun _ => .bind (.store node _) fun _ =>
      .bind (.store node _) fun _ => .pure Status.ok
  · apply Spares.bind (searchNodeOrParent_spares fuel tree.root key)
    rintro ⟨parent, result⟩
    apply Spares.ite (.bind (.free node) fun _ => .pure _)
    apply Spares.ite (.bind (.free node) fun _ => .pure _)
    refine .ite (.bind (insertInto_spares malloc fuel node parent) fun rc => ?_) (.pure _)
    exact .ite (.bind (.setGlob _) fun _ => .pure rc) (.pure rc)

end Insertion

private theorem search_spares (fuel : Nat) (key : Word) : Spares (search fuel key) := by
  apply Spares.ite (.pure _)
  apply Spares.bind .getGlob
  intro tree
  apply Spares.bind (searchNodeOrParent_spares fuel tree.root key)
  rintro ⟨node, result⟩
  apply Spares.ite (.pure _)
  cases result with
  | lvalue => exact .bind (.load node) fun _ => .pure _
  | rvalue => exact .bind (.load node) fun _ => .pure _
  | target => exact .pure _
  | parent => exact .pure _
  | error => exact .pure _

section Deletion

private theorem getSuccessorAndSwap_spares (fuel : Nat) (node : Addr) (key : Word) :
    Spares (getSuccessorAndSwap fuel node key) := by
  apply Spares.ite .fault
  apply Spares.bind (.load node)
  intro n
  apply Spares.ite (.pure _)
  apply Spares.bind (searchNodeOrParent_spares fuel node (key + 1))
  rintro ⟨successor, _⟩
  apply Spares.ite (.pure _)
  exact .ite (.bind swapPair_spares fun _ => .pure successor) (.bind swapPair_spares fun _ => .pure successor)

private theorem rightBorrow_spares {parent node midBro : Addr} : Spares (rightBorrow parent node midBro) :=
  .bind swapPair_spares fun _ => .bind swapPair_spares fun _ => .bind (.load node) fun _ => .ite (.pure ())
    (.bind setRightChild_spares fun _ => .bind (.load _) fun _ => .bind setLeftChild_spares fun _ =>
      .bind (.load _) fun _ => .bind setRightChild_spares fun _ => .store _ _)

private theorem rightJoin_spares {parent node midBro : Addr} : Spares (rightJoin parent node midBro) :=
  .bind swapPair_spares fun _ => .bind setRightChild_spares fun _ => .bind (.store _ _) fun _ =>
    .bind (.load node) fun _ => .ite (.free node)
      (.bind (.bind (.load _) fun _ => .bind setMidChild_spares fun _ => .bind (.load _) fun _ =>
        setRightChild_spares) fun _ => .free node)

private theorem rightFromTwo_spares {parent node bro : Addr} : Spares (rightFromTwo parent node bro) :=
  .bind (.bind swapPair_spares fun _ => swapPair_spares) fun _ => .bind swapPair_spares fun _ =>
    .bind (.load node) fun _ => .ite (.pure ())
      (.bind setRightChild_spares fun _ => .bind (.load _) fun _ => .bind setLeftChild_spares fun _ =>
        .bind (.load _) fun _ => .bind setRightChild_spares fun _ => .store _ _)

private theorem rightMerge_spares {parent node bro : Addr} : Spares (rightMerge parent node bro) :=
  .bind swapPair_spares fun _ => .bind (.load node) fun _ => .ite (.free node)
    (.bind (.bind (.load _) fun _ => .bind setMidChild_spares fun _ => .bind (.load _) fun _ =>
      setRightChild_spares) fun _ => .free node)

private theorem middleBorrow_spares {parent node bro : Addr} : Spares (middleBorrow parent node bro) :=
  .bind swapPair_spares fun _ => .bind swapPair_spares fun _ => .bind swapPair_spares fun _ =>
    .bind (.load node) fun _ => .ite (.pure ())
      (.bind (.load _) fun _ => .bind setRightChild_spares fun _ => .bind (.load _) fun _ =>
        .bind setLeftChild_spares fun _ => .store _ _)

private theorem middleJoin_spares {parent node bro : Addr} : Spares (middleJoin parent node bro) :=
  .bind swapPair_spares fun _ => .bind swapPair_spares fun _ => .bind (.store _ _) fun _ =>
    .bind (.load node) fun _ => .ite (.free node)
      (.bind (.bind (.load _) fun _ => .bind setMidChild_spares fun _ => .bind (.load _) fun _ =>
        setLeftChild_spares) fun _ => .free node)

private theorem leftBorrow_spares {parent node midBro : Addr} : Spares (leftBorrow parent node midBro) :=
  .bind swapPair_spares fun _ => .bind swapPair_spares fun _ => .bind swapPair_spares fun _ =>
    .bind (.load node) fun _ => .ite (.pure ())
      (.bind (.load _) fun _ => .bind setRightChild_spares fun _ => .bind (.load _) fun _ =>
        .bind setLeftChild_spares fun _ => .store _ _)

private theorem leftJoin_spares {parent node midBro : Addr} : Spares (leftJoin parent node midBro) := by
  have rest : Spares (do
      setMchild parent 0
      free midBro) := .bind (.store parent _) fun _ => .free midBro
  exact .bind swapPair_spares fun _ => .bind swapPair_spares fun _ => .bind swapPair_spares fun _ =>
    .bind (.load node) fun _ => .ite rest
      (.bind (.bind (.load _) fun _ => .bind (.store _ _) fun _ => .bind (.load _) fun _ => .bind (.store _ _) fun _ =>
        .bind (.load _) fun _ => .bind (.store _ _) fun _ => .bind (.load _) fun _ => .store _ _) fun _ => rest)

private theorem leftFromTwo_spares {parent node bro : Addr} : Spares (leftFromTwo parent node bro) :=
  .bind swapPair_spares fun _ => .bind swapPair_spares fun _ => .bind swapPair_spares fun _ =>
    .bind (.load node) fun _ => .ite (.pure ())
      (.bind (.load _) fun _ => .bind (.store _ _) fun _ => .bind (.load _) fun _ => .bind (.store _ _) fun _ =>
        .bind (.load _) fun _ => .bind (.store _ _) fun _ => .store _ _)

private theorem leftMerge_spares {parent node bro : Addr} : Spares (leftMerge parent node bro) :=
  .bind swapPair_spares fun _ => .bind swapPair_spares fun _ => .bind (.load node) fun _ => .ite (.free node)
    (.bind (.bind (.load _) fun _ => .bind (.store _ _) fun _ => .bind (.load _) fun _ => .bind (.store _ _) fun _ =>
      .bind (.load _) fun _ => .store _ _) fun _ => .free node)

private theorem dropRoot_spares {bro root : Addr} : Spares (dropRoot bro root) :=
  .bind (.load root) fun _ => .bind addLevel_spares fun _ => .bind (changeRootNode_spares bro root) fun _ => .free root

private theorem fixNullNode_spares (fuel : Nat) (node : Addr) : Spares (fixNullNode fuel node) := by
  induction fuel generalizing node with
  | zero => exact .fault
  | succ fuel ih =>
      apply Spares.bind (.load node)
      intro n
      apply Spares.ite (.bind dropRoot_spares fun _ => .pure _)
      apply Spares.bind (.load n.parent)
      intro p
      apply Spares.ite
      · apply Spares.ite
        · apply Spares.ite
          · exact .bind (.load _) fun _ => .ite (.bind rightBorrow_spares fun _ => .pure _)
              (.bind rightJoin_spares fun _ => .pure _)
          · apply Spares.bind (.load _)
            intro bro
            apply Spares.ite (.bind rightFromTwo_spares fun _ => .pure _)
            apply Spares.bind rightMerge_spares
            intro _
            exact .ite (.bind dropRoot_spares fun _ => .pure _) (.bind (.store _ _) fun _ => ih n.parent)
        · refine .ite (.bind (.load _) fun _ => ?_) (.pure _)
          exact .ite (.bind middleBorrow_spares fun _ => .pure _) (.bind middleJoin_spares fun _ => .pure _)
      · apply Spares.ite
        · exact .bind (.load _) fun _ => .ite (.bind leftBorrow_spares fun _ => .pure _)
            (.bind leftJoin_spares fun _ => .pure _)
        · apply Spares.bind (.load _)
          intro bro
          apply Spares.ite (.bind leftFromTwo_spares fun _ => .pure _)
          apply Spares.bind leftMerge_spares
          intro _
          exact .ite (.bind dropRoot_spares fun _ => .pure _)
            (.bind (.store _ _) fun _ => .bind (.store _ _) fun _ => ih n.parent)

private theorem removeKey_spares (fuel : Nat) (leaf : Addr) (key : Word) : Spares (removeKey fuel leaf key) := by
  apply Spares.ite .fault
  apply Spares.bind (.load leaf)
  intro n
  apply Spares.ite .fault
  apply Spares.ite .fault
  apply Spares.ite
  · have clears : Spares (do
        clrRkeyValue leaf
        return .ok : TreeProg Status) := .bind (.store leaf _) fun _ => .pure Status.ok
    exact .ite (.bind (.store leaf _) fun _ => clears) clears
  · exact .bind (.store leaf _) fun _ => .bind (.store leaf _) fun _ => fixNullNode_spares fuel leaf

private theorem delete_spares (fuel : Nat) (key : Word) : Spares (delete fuel key) := by
  apply Spares.ite (.pure _)
  apply Spares.bind .getGlob
  intro tree
  apply Spares.bind (searchNodeOrParent_spares fuel tree.root key)
  rintro ⟨node, result⟩
  apply Spares.ite (.pure _)
  apply Spares.ite (.pure _)
  apply Spares.bind (getSuccessorAndSwap_spares fuel node key)
  intro successor
  apply Spares.ite (.pure _)
  apply Spares.bind (removeKey_spares fuel successor key)
  intro rc
  exact .ite (.bind (.setGlob _) fun _ => .pure rc) (.pure rc)

end Deletion

private theorem Call.run_spares (malloc : Malloc) (fuel : Nat) (call : Call) : Spares (call.run malloc fuel) := by
  cases call with
  | insert value key => exact .bind (insert_spares malloc fuel value key) fun _ => .pure _
  | delete key => exact .bind (delete_spares fuel key) fun _ => .pure _
  | search key => exact .bind (search_spares fuel key) fun _ => .pure _

theorem runCalls_spares (malloc : Malloc) (fuel : Nat) (calls : List Call) : Spares (runCalls malloc fuel calls) := by
  induction calls with
  | nil => exact .pure _
  | cons call calls ih => exact .bind (call.run_spares malloc fuel) fun _ => .bind ih fun _ => .pure _

end GbfLibrary.TwoThree
