import GbfLibrary.Memory.Machine
import Mathlib.Data.Finset.Card
import Mathlib.Data.List.Nodup

/-!
# Linked lists in memory

Records linked through one of their fields, up to a null pointer.
-/

set_option autoImplicit false

namespace GbfLibrary.Memory

open Prog

variable {Rec Glob : Type} {link : Rec → Addr}

/-- The nodes from `head` on, along the field `link`. -/
def Chain (link : Rec → Addr) (s : Machine Rec Glob) : Addr → List Addr → Prop
  | head, [] => head = 0
  | head, a :: nodes => head = a ∧ a ≠ 0 ∧ a ∈ s.live ∧ Chain link s (link (s.cell a)) nodes

/-- The nodes from `head` on, each with a link to the node before it. -/
def Doubly (next prev : Rec → Addr) (s : Machine Rec Glob) : Addr → Addr → List Addr → Prop
  | _, head, [] => head = 0
  | before, head, a :: nodes =>
    head = a ∧ a ≠ 0 ∧ a ∈ s.live ∧ prev (s.cell a) = before ∧ Doubly next prev s a (next (s.cell a)) nodes

/-- The last node, and how many links lead there. -/
def lastNode (link : Rec → Addr) : Nat → Addr → Prog Rec Glob (Addr × Nat)
  | 0, _ => fault
  | fuel + 1, a => do
    let node ← load a
    if link node = 0 then return (a, 0)
    else (do
      let (last, steps) ← lastNode link fuel (link node)
      return (last, steps + 1))

theorem length_lt_of_nodup {nodes : List Addr} {bound : Nat} (nodup : nodes.Nodup) (positive : 0 < bound)
    (inside : ∀ a ∈ nodes, a ≠ 0 ∧ a < bound) : nodes.length < bound := by
  have distinct : (0 :: nodes).Nodup := List.nodup_cons.mpr ⟨fun null => (inside 0 null).1 rfl, nodup⟩
  have within : (0 :: nodes).toFinset ⊆ Finset.range bound := by
    intro a member
    rw [List.mem_toFinset] at member
    rw [Finset.mem_range]
    cases member with
    | head => exact positive
    | tail _ inNodes => exact (inside a inNodes).2
  have few := Finset.card_le_card within
  rwa [List.toFinset_card_of_nodup distinct, Finset.card_range, List.length_cons] at few

theorem notMem_head?_of_mem_tail {a : Addr} {nodes : List Addr} (nodup : nodes.Nodup) (later : a ∈ nodes.tail) :
    a ∉ nodes.head? := by
  cases nodes with
  | nil => exact nofun
  | cons b nodes => exact fun first => (List.nodup_cons.mp nodup).1 (Option.some.inj first ▸ later)

namespace Chain

variable {s : Machine Rec Glob} {head a b : Addr} {nodes front : List Addr}

theorem readsNodes (link : Rec → Addr) (head : Addr) (nodes : List Addr) :
    Local nodes fun s : Machine Rec Glob => Chain link s head nodes := by
  intro s s' agree
  induction nodes generalizing head with
  | nil => exact Iff.rfl
  | cons a nodes ih =>
      have here := agree a (List.mem_cons_self ..)
      have rest := ih (link (s.cell a)) (agree.mono (List.subset_cons_self _ _))
      simp only [Chain, here.1, here.2, ← rest]

@[simp] theorem withGlob {g : Glob} :
    Chain link (s.withGlob g) head nodes ↔ Chain link s head nodes :=
  (readsNodes link head nodes).withGlob

theorem modify {f : Rec → Rec} (outside : a ∉ nodes) :
    Chain link (s.modify a f) head nodes ↔ Chain link s head nodes :=
  (readsNodes link head nodes).modify outside

theorem modify_link {f : Rec → Rec} (keeps : link (f (s.cell a)) = link (s.cell a))
    (chain : Chain link s head nodes) : Chain link (s.modify a f) head nodes := by
  induction nodes generalizing head with
  | nil => exact chain
  | cons b nodes ih =>
      obtain ⟨here, notNull, live, rest⟩ := chain
      have same : link ((s.modify a f).cell b) = link (s.cell b) := by
        by_cases at_ : b = a
        · subst at_
          simpa using keeps
        · rw [Machine.modify_cell_of_ne at_]
      exact ⟨here, notNull, by simpa using live, same ▸ ih rest⟩

theorem extend {r : Rec} (outside : a ∉ nodes) :
    Chain link (s.extend a r) head nodes ↔ Chain link s head nodes :=
  (readsNodes link head nodes).extend outside

theorem live (chain : Chain link s head nodes) : ∀ a ∈ nodes, a ∈ s.live := by
  induction nodes generalizing head with
  | nil => simp
  | cons a nodes ih =>
      obtain ⟨_, _, here, rest⟩ := chain
      intro b member
      cases member with
      | head => exact here
      | tail _ inRest => exact ih rest b inRest

theorem notNull (chain : Chain link s head nodes) : ∀ a ∈ nodes, a ≠ 0 := by
  induction nodes generalizing head with
  | nil => simp
  | cons a nodes ih =>
      obtain ⟨_, here, _, rest⟩ := chain
      intro b member
      cases member with
      | head => exact here
      | tail _ inRest => exact ih rest b inRest

theorem nil_of_null (chain : Chain link s 0 nodes) : nodes = [] := by
  cases nodes with
  | nil => rfl
  | cons a nodes =>
      obtain ⟨rfl, notNull, _⟩ := chain
      exact absurd rfl notNull

theorem exists_cons (chain : Chain link s head nodes) (notNull : head ≠ 0) :
    ∃ rest, nodes = head :: rest ∧ head ∈ s.live ∧ Chain link s (link (s.cell head)) rest := by
  cases nodes with
  | nil => exact absurd chain notNull
  | cons a nodes =>
      obtain ⟨rfl, _, here, rest⟩ := chain
      exact ⟨nodes, rfl, here, rest⟩

theorem mem_head?_iff (chain : Chain link s head nodes) : a ∈ nodes.head? ↔ a = head ∧ head ≠ 0 := by
  cases nodes with
  | nil =>
      obtain rfl : head = 0 := chain
      exact iff_of_false nofun fun both => both.2 rfl
  | cons b nodes =>
      obtain ⟨rfl, notNull, _⟩ := chain
      rw [List.head?_cons, Option.mem_some, eq_comm]
      exact (and_iff_left notNull).symm

theorem unique {other : List Addr} (chain : Chain link s head nodes) (again : Chain link s head other) :
    nodes = other := by
  induction nodes generalizing head other with
  | nil =>
      obtain rfl : head = 0 := chain
      exact again.nil_of_null.symm
  | cons a nodes ih =>
      obtain ⟨rfl, notNull, _, rest⟩ := chain
      obtain ⟨more, rfl, _, restAgain⟩ := again.exists_cons notNull
      rw [ih rest restAgain]

theorem drop {back : List Addr} (chain : Chain link s head (front ++ a :: back)) : Chain link s a (a :: back) := by
  induction front generalizing head with
  | nil =>
      obtain ⟨rfl, notNull, live, rest⟩ := chain
      exact ⟨rfl, notNull, live, rest⟩
  | cons c front ih => exact ih chain.2.2.2

/-- A list that ends does not come back to a node. -/
theorem nodup (chain : Chain link s head nodes) : nodes.Nodup := by
  induction nodes generalizing head with
  | nil => exact List.nodup_nil
  | cons a nodes ih =>
      refine List.nodup_cons.mpr ⟨fun member => ?_, ih chain.2.2.2⟩
      obtain ⟨front, back, rfl⟩ := List.append_of_mem member
      have first : head = a := chain.1
      subst first
      have whole : Chain link s head ((head :: front) ++ head :: back) := chain
      have same := chain.unique whole.drop
      have shorter := congrArg List.length same
      simp only [List.length_cons, List.length_append] at shorter
      omega

/-- A list without repetitions is not longer than the memory is large. -/
theorem length_le (chain : Chain link s head nodes) (nodup : nodes.Nodup) :
    nodes.length ≤ s.live.card := by
  rw [← List.toFinset_card_of_nodup nodup]
  refine Finset.card_le_card fun a member => ?_
  exact chain.live a (List.mem_toFinset.mp member)

theorem lastNode_apply {fuel : Nat} (chain : Chain link s head nodes) (notNull : head ≠ 0)
    (enough : nodes.length ≤ fuel) :
    ∃ front last, nodes = front ++ [last] ∧
      lastNode link fuel head s = some ((last, front.length), s) := by
  induction nodes generalizing head fuel with
  | nil => exact absurd chain notNull
  | cons a nodes ih =>
      obtain ⟨rfl, _, here, rest⟩ := chain
      obtain ⟨fuel, rfl⟩ : ∃ more, fuel = more + 1 :=
        ⟨fuel - 1, by simp only [List.length_cons] at enough; omega⟩
      by_cases final : link (s.cell head) = 0
      · rw [final] at rest
        obtain rfl := rest.nil_of_null
        exact ⟨[], head, rfl, by simp [lastNode, here, final]⟩
      · simp only [List.length_cons] at enough
        have shorter : nodes.length ≤ fuel := by omega
        obtain ⟨front, last, rfl, walks⟩ := ih rest final shorter
        exact ⟨head :: front, last, rfl, by simp [lastNode, here, final, walks]⟩

theorem snoc {f : Rec → Rec} (chain : Chain link s head (front ++ [a]))
    (nodup : (front ++ [a]).Nodup) (outside : b ∉ front ++ [a]) (bNotNull : b ≠ 0) (here : b ∈ s.live)
    (final : link (s.cell b) = 0) (links : link (f (s.cell a)) = b) :
    Chain link (s.modify a f) head (front ++ [a, b]) := by
  induction front generalizing head with
  | nil =>
      obtain ⟨rfl, notNull, live, _⟩ := chain
      have different : b ≠ head := by simpa using outside
      exact ⟨rfl, notNull, by simpa using live, by simpa using links, bNotNull, by simpa using here,
        by simpa [different, Chain] using final⟩
  | cons c front ih =>
      obtain ⟨rfl, notNull, live, rest⟩ := chain
      simp only [List.cons_append, List.nodup_cons, List.mem_cons, not_or] at nodup outside
      have different : head ≠ a := fun same => nodup.1 (by simp [same])
      refine ⟨rfl, notNull, by simpa using live, ?_⟩
      rw [Machine.modify_cell_of_ne different]
      exact ih rest nodup.2 outside.2

end Chain

namespace Doubly

variable {next prev : Rec → Addr} {s s' : Machine Rec Glob} {before head a b : Addr} {nodes front back : List Addr}

theorem chain (linked : Doubly next prev s before head nodes) : Chain next s head nodes := by
  induction nodes generalizing before head with
  | nil => exact linked
  | cons a nodes ih =>
      obtain ⟨here, notNull, live, _, rest⟩ := linked
      exact ⟨here, notNull, live, ih rest⟩

theorem first (linked : Doubly next prev s before head nodes) : head = nodes.headD 0 := by
  cases nodes with
  | nil => exact linked
  | cons a nodes => exact linked.1

/-- The node behind the last one of `front` and its links. -/
theorem links (linked : Doubly next prev s before head (front ++ a :: back)) :
    prev (s.cell a) = front.getLast?.getD before ∧ next (s.cell a) = back.headD 0 := by
  induction front generalizing before head with
  | nil =>
      obtain ⟨_, _, _, prev_, rest⟩ := linked
      exact ⟨prev_, rest.first⟩
  | cons c front ih =>
      obtain ⟨_, _, _, _, rest⟩ := linked
      rw [List.getLast?_cons, Option.getD_some]
      exact ih rest

/-- Changes of other fields, and of other records. -/
theorem congr (linked : Doubly next prev s before head nodes) (live : ∀ x ∈ nodes, x ∈ s'.live)
    (same : ∀ x ∈ nodes, next (s'.cell x) = next (s.cell x) ∧ prev (s'.cell x) = prev (s.cell x)) :
    Doubly next prev s' before head nodes := by
  induction nodes generalizing before head with
  | nil => exact linked
  | cons a nodes ih =>
      obtain ⟨here, notNull, _, prev_, rest⟩ := linked
      obtain ⟨nextSame, prevSame⟩ := same a List.mem_cons_self
      refine ⟨here, notNull, live a List.mem_cons_self, prevSame.trans prev_, ?_⟩
      rw [nextSame]
      apply ih rest
      · exact fun x member => live x (List.mem_cons_of_mem a member)
      · exact fun x member => same x (List.mem_cons_of_mem a member)

theorem behind {other : Addr} (linked : Doubly next prev s before head nodes) (live : ∀ x ∈ nodes, x ∈ s'.live)
    (first : ∀ x ∈ nodes.head?, prev (s'.cell x) = other) (nexts : ∀ x ∈ nodes, next (s'.cell x) = next (s.cell x))
    (prevs : ∀ x ∈ nodes.tail, prev (s'.cell x) = prev (s.cell x)) : Doubly next prev s' other head nodes := by
  cases nodes with
  | nil => exact linked
  | cons a nodes =>
      obtain ⟨here, notNull, _, _, rest⟩ := linked
      refine ⟨here, notNull, live a List.mem_cons_self, first a rfl, ?_⟩
      rw [nexts a List.mem_cons_self]
      apply rest.congr
      · exact fun x member => live x (List.mem_cons_of_mem a member)
      · exact fun x member => ⟨nexts x (List.mem_cons_of_mem a member), prevs x member⟩

theorem snoc (linked : Doubly next prev s before head (front ++ [a]))
    (bNotNull : b ≠ 0) (live : ∀ x ∈ front ++ [a, b], x ∈ s'.live)
    (joined : next (s'.cell a) = b ∧ prev (s'.cell b) = a) (final : next (s'.cell b) = 0)
    (nexts : ∀ x ∈ front, next (s'.cell x) = next (s.cell x))
    (prevs : ∀ x ∈ front ++ [a], prev (s'.cell x) = prev (s.cell x)) :
    Doubly next prev s' before head (front ++ [a, b]) := by
  induction front generalizing before head with
  | nil =>
      obtain ⟨here, notNull, _, prev_, _⟩ := linked
      refine ⟨here, notNull, live a (by simp), (prevs a (by simp)).trans prev_, ?_⟩
      exact ⟨joined.1, bNotNull, live b (by simp), joined.2, final⟩
  | cons c front ih =>
      obtain ⟨here, notNull, _, prev_, rest⟩ := linked
      refine ⟨here, notNull, live c (by simp), (prevs c (by simp)).trans prev_, ?_⟩
      rw [nexts c List.mem_cons_self]
      apply ih rest
      · exact fun x member => live x (List.mem_cons_of_mem c member)
      · exact fun x member => nexts x (List.mem_cons_of_mem c member)
      · exact fun x member => prevs x (List.mem_cons_of_mem c member)

theorem second (linked : Doubly next prev s before head (a :: nodes)) (bNotNull : b ≠ 0)
    (live : ∀ x ∈ a :: b :: nodes, x ∈ s'.live) (kept : prev (s'.cell a) = prev (s.cell a))
    (joined : next (s'.cell a) = b ∧ prev (s'.cell b) = a) (following : next (s'.cell b) = next (s.cell a))
    (first : ∀ x ∈ nodes.head?, prev (s'.cell x) = b) (nexts : ∀ x ∈ nodes, next (s'.cell x) = next (s.cell x))
    (prevs : ∀ x ∈ nodes.tail, prev (s'.cell x) = prev (s.cell x)) :
    Doubly next prev s' before head (a :: b :: nodes) := by
  obtain ⟨here, notNull, _, prev_, rest⟩ := linked
  refine ⟨here, notNull, live a (by simp), kept.trans prev_, joined.1, bNotNull, live b (by simp), joined.2, ?_⟩
  rw [following]
  exact rest.behind (fun x member => live x (by simp [member])) first nexts prevs

/-- The list without the node `a`, which is not the first one. -/
theorem unlink (linked : Doubly next prev s before head (front ++ b :: a :: back))
    (nodup : (front ++ b :: a :: back).Nodup) (live : ∀ x ∈ front ++ b :: back, x ∈ s'.live)
    (joined : next (s'.cell b) = next (s.cell a)) (behind : ∀ x ∈ back.head?, prev (s'.cell x) = b)
    (nexts : ∀ x, x ≠ b → next (s'.cell x) = next (s.cell x))
    (prevs : ∀ x, x ∉ back.head? → prev (s'.cell x) = prev (s.cell x)) :
    Doubly next prev s' before head (front ++ b :: back) := by
  have apart : ∀ x ∈ front ++ [b], x ∉ back.head? := by
    intro x member inBack
    have distinct := (List.nodup_append'.mp (List.append_cons front b (a :: back) ▸ nodup)).2.2
    exact distinct member (List.mem_cons_of_mem a (List.mem_of_mem_head? inBack))
  induction front generalizing before head with
  | nil =>
      obtain ⟨here, notNull, _, prev_, there⟩ := linked
      obtain ⟨next_, _, _, _, rest⟩ := there
      refine ⟨here, notNull, live b (by simp), ?_, ?_⟩
      · rw [prevs b (apart b (by simp)), prev_]
      · rw [joined]
        cases back with
        | nil => exact rest
        | cons c back =>
            obtain ⟨following, good, _, _, more⟩ := rest
            obtain ⟨notIn, distinct⟩ := List.nodup_cons.mp nodup
            have outside : c ∉ back := (List.nodup_cons.mp (List.nodup_cons.mp distinct).2).1
            have notFirst : c ≠ b := by
              rintro rfl
              simp at notIn
            refine ⟨following, good, live c (by simp), behind c rfl, ?_⟩
            rw [nexts c notFirst]
            apply more.congr
            · exact fun x member => live x (by simp [member])
            · intro x member
              constructor
              · apply nexts
                rintro rfl
                simp [member] at notIn
              · apply prevs
                rintro ⟨⟩
                exact outside member
  | cons c front ih =>
      obtain ⟨here, notNull, _, prev_, rest⟩ := linked
      obtain ⟨notIn, distinct⟩ := List.nodup_cons.mp nodup
      have notLast : c ≠ b := by
        rintro rfl
        simp at notIn
      refine ⟨here, notNull, live c (by simp), ?_, ?_⟩
      · rw [prevs c (apart c (by simp)), prev_]
      · rw [nexts c notLast]
        apply ih rest distinct
        · exact fun x member => live x (List.mem_cons_of_mem c member)
        · exact fun x member => apart x (List.mem_cons_of_mem c member)

end Doubly

end GbfLibrary.Memory
