import GbfLibrary.Enet.HttpHandles

/-!
# Changes of the list of handles

What `enet_http_handle_insert`, `enet_http_new_handle` and `enet_http_handle_delete` do to the list and the objects.
-/

set_option autoImplicit false

namespace GbfLibrary.Enet.Http

open Memory Prog

variable {s s' : HttpMachine} {nodes front back : List Addr} {objects : Registry} {value : BitVec 32} {a : Addr}
  {obj : HttpObj} {malloc : Memory.Malloc}

theorem objectAt_apply (inside : a ∈ s.others) (content : s.glob.objects a = some obj) :
    objectAt a s = some (obj, s) := by
  simp only [objectAt, if_pos inside, content, Option.map_some]

@[simp] theorem setObject_apply (a : Addr) (content : Option HttpObj) : setObject a content s =
    some ((), s.withGlob { s.glob with objects := Function.update s.glob.objects a content }) := rfl

theorem Represents.neighbours (represents : Represents s (front ++ a :: back) objects) :
    ((s.cell a).prev = front.getLast?.getD 0 ∧ (s.cell a).next = back.headD 0) ∧
      ((s.cell a).prev ≠ 0 → (s.cell a).prev ∈ s.live ∧ (s.cell a).prev ≠ a) ∧
        ((s.cell a).next ≠ 0 → (s.cell a).next ∈ s.live ∧ (s.cell a).next ≠ a) := by
  obtain ⟨prevLink, nextLink⟩ := represents.linked.links
  have live := represents.live
  obtain ⟨notFront, notBack⟩ : a ∉ front ∧ a ∉ back := by
    have outside := (List.nodup_middle.mp represents.nodup).notMem
    simpa using outside
  refine ⟨⟨prevLink, nextLink⟩, ?_, ?_⟩
  · rw [prevLink]
    intro notNull
    cases last : front.getLast? with
    | none =>
        rw [last] at notNull
        exact absurd rfl notNull
    | some before =>
        have member : before ∈ front := List.mem_of_getLast? last
        exact ⟨live before (by simp [member]), fun same => notFront (same ▸ member)⟩
  · rw [nextLink]
    intro notNull
    cases back with
    | nil => exact absurd rfl notNull
    | cons after back => exact ⟨live after (by simp), fun same => notBack (same ▸ List.mem_cons_self)⟩

/-- The state in which the neighbours of a handle are linked to each other. -/
def unlinked (s : HttpMachine) (a : Addr) : HttpMachine :=
  ((s.withGlob { s.glob with
    handles := if (s.cell a).prev = 0 then (s.cell a).next else s.glob.handles }).touch (s.cell a).prev fun before =>
      { before with next := (s.cell a).next }).touch (s.cell a).next fun after => { after with prev := (s.cell a).prev }

@[simp] theorem unlinked_live (s : HttpMachine) (a : Addr) : (unlinked s a).live = s.live := by
  simp [unlinked]

@[simp] theorem unlinked_others (s : HttpMachine) (a : Addr) : (unlinked s a).others = s.others := by
  simp [unlinked]

@[simp] theorem unlinked_glob (s : HttpMachine) (a : Addr) : (unlinked s a).glob =
    { s.glob with handles := if (s.cell a).prev = 0 then (s.cell a).next else s.glob.handles } := by
  simp [unlinked]

private theorem unlinked_cell (s : HttpMachine) (a b : Addr) : (unlinked s a).cell b =
    { s.cell b with
      next := if b = (s.cell a).prev ∧ (s.cell a).prev ≠ 0 then (s.cell a).next else (s.cell b).next
      prev := if b = (s.cell a).next ∧ (s.cell a).next ≠ 0 then (s.cell a).prev else (s.cell b).prev } := by
  simp only [unlinked, Machine.touch_cell, Machine.withGlob_cell]
  split <;> split <;> rfl

private theorem unlinked_linked (represents : Represents s (front ++ a :: back) objects) :
    Doubly HttpHandle.next HttpHandle.prev (unlinked s a) 0 (unlinked s a).glob.handles (front ++ back) := by
  obtain ⟨⟨prevLink, _⟩, _, _⟩ := represents.neighbours
  have behind : Chain HttpHandle.next s (s.cell a).next back := represents.linked.chain.drop.2.2.2
  have live : ∀ x ∈ front ++ back, x ∈ (unlinked s a).live := by
    intro x member
    rw [unlinked_live]
    exact represents.live x (by simp at member ⊢; tauto)
  have afterPrev : ∀ x ∈ back.head?, ((unlinked s a).cell x).prev = (s.cell a).prev := by
    intro x first
    rw [unlinked_cell]
    exact if_pos (behind.mem_head?_iff.mp first)
  have otherPrev : ∀ x ∉ back.head?, ((unlinked s a).cell x).prev = (s.cell x).prev := by
    intro x different
    rw [unlinked_cell]
    exact if_neg fun both => different (behind.mem_head?_iff.mpr both)
  rcases List.eq_nil_or_concat front with rfl | ⟨front, before, rfl⟩
  · have first : (s.cell a).prev = 0 := prevLink
    obtain ⟨_, _, _, _, rest⟩ := represents.linked
    rw [unlinked_glob, if_pos first]
    apply rest.behind live
    · exact fun x here => (afterPrev x here).trans first
    · intro x _
      rw [unlinked_cell]
      exact if_neg fun both => both.2 first
    · exact fun x later => otherPrev x (notMem_head?_of_mem_tail behind.nodup later)
  · rw [List.concat_eq_append, List.getLast?_concat, Option.getD_some] at prevLink
    have linked := represents.linked
    have distinct := represents.nodup
    rw [List.concat_eq_append, List.append_assoc] at linked distinct live ⊢
    have prevNotNull : (s.cell a).prev ≠ 0 := prevLink ▸ linked.chain.notNull before (by simp)
    rw [unlinked_glob, if_neg prevNotNull]
    apply Doubly.unlink linked distinct live
    · rw [unlinked_cell]
      exact if_pos ⟨prevLink.symm, prevNotNull⟩
    · exact fun x here => (afterPrev x here).trans prevLink
    · intro x different
      rw [unlinked_cell]
      exact if_neg fun both => different (both.1.trans prevLink)
    · exact otherPrev

/-- The handle is unlinked, its object destructed, and its memory freed. -/
theorem handleDelete_apply (represents : Represents s (front ++ a :: back) objects) :
    handleDelete a s = some ((), ((unlinked s a).withGlob { (unlinked s a).glob with
      objects := Function.update s.glob.objects (s.cell a).obj none }).release a) := by
  obtain ⟨_, prevGood, nextGood⟩ := represents.neighbours
  have inside : a ∈ front ++ a :: back := by simp
  have here : a ∈ s.live := represents.live a inside
  obtain ⟨objSome, owned, present⟩ := represents.owned a inside
  obtain ⟨obj, content⟩ := Option.isSome_iff_exists.mp present
  have links : handleDelete a s = httpDestruct a (unlinked s a) := by
    by_cases first : (s.cell a).prev = 0
    · by_cases last : (s.cell a).next = 0
      · simp [handleDelete, unlinked, here, first, last]
      · simp [handleDelete, unlinked, here, first, last, nextGood]
    · have same : s.withGlob s.glob = s := rfl
      by_cases last : (s.cell a).next = 0
      · simp [handleDelete, unlinked, here, first, last, prevGood, same]
      · simp [handleDelete, unlinked, here, first, last, prevGood, nextGood, same]
  have sameObj : ((unlinked s a).cell a).obj = (s.cell a).obj := by rw [unlinked_cell]
  have reads : objectAt (s.cell a).obj (unlinked s a) = some (obj, unlinked s a) := by
    apply objectAt_apply
    · rwa [unlinked_others]
    · rw [unlinked_glob, content]
  rw [links]
  simp [httpDestruct, here, sameObj, objSome, reads, free_apply, represents.good]

theorem Represents.delete (represents : Represents s (front ++ a :: back) objects) :
    ∃ s', handleDelete a s = some ((), s') ∧
      Represents s' (front ++ back) (Function.update objects (s.cell a).handle none) := by
  have entries := represents.toEntries.perm List.perm_middle
  have outside : a ∉ front ++ back := (List.nodup_middle.mp represents.nodup).notMem
  refine ⟨_, handleDelete_apply represents, ?_, ?_, ?_⟩
  · apply entries.tail.congr
    · intro b _
      simp [unlinked_cell]
    · intro b member
      rw [Machine.release_others, Machine.withGlob_others, unlinked_others]
      exact (entries.tail.owned b member).2.1
    · intro b member
      rw [Machine.release_glob, Machine.withGlob_glob]
      exact Function.update_of_ne (entries.own b member) none s.glob.objects
  · rw [Machine.release_glob, Machine.withGlob_glob]
    apply (unlinked_linked represents).congr
    · intro b member
      rw [Machine.release_live, Finset.mem_erase]
      exact ⟨fun same => outside (same ▸ member), (unlinked_linked represents).chain.live b member⟩
    · exact fun b _ => ⟨rfl, rfl⟩
  · simp [represents.good]

/-- The list with a node in the second place, or in the first one if there is none. -/
def second (a : Addr) : List Addr → List Addr
  | [] => [a]
  | head :: rest => head :: a :: rest

theorem second_perm (a : Addr) (nodes : List Addr) : (second a nodes).Perm (a :: nodes) := by
  cases nodes with
  | nil => exact List.Perm.refl _
  | cons head rest => exact List.Perm.swap a head rest

/-- The state in which a handle stands behind the first one. -/
def linkedIn (s : HttpMachine) (head a : Addr) : HttpMachine :=
  ((s.modify head fun node => { node with next := a }).modify a fun record =>
    { record with prev := head, next := (s.cell head).next }).touch (s.cell head).next fun after =>
      { after with prev := a }

private theorem linkedIn_cell (s : HttpMachine) (head a b : Addr) : (linkedIn s head a).cell b =
    { s.cell b with
      next := if b = a then (s.cell head).next else if b = head then a else (s.cell b).next
      prev := if b = (s.cell head).next ∧ (s.cell head).next ≠ 0 then a
        else if b = a then head
        else (s.cell b).prev } := by
  simp only [linkedIn, Machine.touch_cell, Machine.modify_cell]
  split <;> split <;> split <;> rfl

@[simp] theorem linkedIn_live (s : HttpMachine) (head a : Addr) : (linkedIn s head a).live = s.live := by
  simp [linkedIn]

@[simp] theorem linkedIn_glob (s : HttpMachine) (head a : Addr) : (linkedIn s head a).glob = s.glob := by
  simp [linkedIn]

private theorem linkedIn_linked {head : Addr} {rest : List Addr}
    (linked : Doubly HttpHandle.next HttpHandle.prev s 0 s.glob.handles (head :: rest))
    (nodup : (a :: head :: rest).Nodup) (notNull : a ≠ 0) (here : a ∈ s.live) :
    Doubly HttpHandle.next HttpHandle.prev (linkedIn s head a) 0 s.glob.handles (head :: a :: rest) := by
  obtain ⟨outside, headOut, distinct⟩ := by simpa only [List.nodup_cons] using nodup
  have behind : Chain HttpHandle.next s (s.cell head).next rest := linked.2.2.2.2.chain
  have notNext : ∀ x ∉ rest, ¬ (x = (s.cell head).next ∧ (s.cell head).next ≠ 0) :=
    fun x out both => out (List.mem_of_mem_head? (behind.mem_head?_iff.mpr both))
  have notHead : a ≠ head := fun same => outside (same ▸ List.mem_cons_self)
  have notRest : a ∉ rest := fun member => outside (List.mem_cons_of_mem head member)
  have apart : ∀ x ∈ rest, x ≠ a ∧ x ≠ head :=
    fun x member => ⟨fun same => notRest (same ▸ member), fun same => headOut (same ▸ member)⟩
  apply linked.second notNull
  · intro x member
    have live : x = a ∨ x ∈ s.live := by
      simp only [List.mem_cons] at member
      rcases member with rfl | rfl | member
      · exact .inr (linked.chain.live x List.mem_cons_self)
      · exact .inl rfl
      · exact .inr (linked.chain.live x (List.mem_cons_of_mem head member))
    rw [linkedIn_live]
    rcases live with rfl | live
    · exact here
    · exact live
  · rw [linkedIn_cell]
    simp only [if_neg (notNext head headOut), if_neg notHead.symm]
  · simp only [linkedIn_cell, if_neg notHead.symm, if_pos, if_neg (notNext a notRest), and_self]
  · simp only [linkedIn_cell, if_pos]
  · intro x first
    rw [linkedIn_cell]
    exact if_pos (behind.mem_head?_iff.mp first)
  · intro x member
    simp only [linkedIn_cell, if_neg (apart x member).1, if_neg (apart x member).2]
  · intro x member
    have inRest : x ∈ rest := List.mem_of_mem_tail member
    have notFirst := notMem_head?_of_mem_tail behind.nodup member
    simp only [linkedIn_cell, if_neg (fun both => notFirst (behind.mem_head?_iff.mpr both)), if_neg (apart x inRest).1]

/-- A handle is linked to the first one and the one behind it. -/
theorem handleInsert_apply (linked : Doubly HttpHandle.next HttpHandle.prev s 0 s.glob.handles nodes)
    (nodup : (a :: nodes).Nodup) (notNull : a ≠ 0) (here : a ∈ s.live) :
    ∃ s', handleInsert a s = some ((), s') ∧
      Doubly HttpHandle.next HttpHandle.prev s' 0 s'.glob.handles (second a nodes) ∧
        (s'.live = s.live ∧ s'.others = s.others ∧ s'.glob.objects = s.glob.objects) ∧
          ∀ b, (s'.cell b).handle = (s.cell b).handle ∧ (s'.cell b).obj = (s.cell b).obj := by
  cases nodes with
  | nil =>
      have empty : s.glob.handles = 0 := linked
      refine ⟨(s.withGlob { s.glob with handles := a }).modify a fun record => { record with prev := 0, next := 0 },
        ?_, ?_, by simp, ?_⟩
      · simp [handleInsert, empty, here]
      · simp [second, Doubly, notNull, here]
      · intro b
        rw [Machine.modify_cell]
        split <;> exact ⟨rfl, rfl⟩
  | cons head rest =>
      refine ⟨linkedIn s head a, ?_, ?_, by simp [linkedIn], ?_⟩
      · obtain ⟨first, notNull, live, _, rest⟩ := linked
        by_cases last : (s.cell head).next = 0
        · simp [handleInsert, linkedIn, first, notNull, live, here, last]
        · obtain ⟨_, _, nextLive, _⟩ := rest.chain.exists_cons last
          simp [handleInsert, linkedIn, first, notNull, live, here, last, nextLive]
      · rw [linkedIn_glob]
        exact linkedIn_linked linked nodup notNull here
      · intro b
        simp [linkedIn_cell]

theorem Represents.setContent (represents : Represents s (front ++ a :: back) objects) (obj : HttpObj) :
    Represents (s.withGlob { s.glob with objects := Function.update s.glob.objects (s.cell a).obj (some obj) })
      (front ++ a :: back) (Function.update objects (s.cell a).handle (some obj)) := by
  have entries := represents.toEntries.perm List.perm_middle
  obtain ⟨objNotNull, inside, _⟩ := entries.owned a List.mem_cons_self
  refine ⟨?_, represents.linked.congr represents.live fun b _ => ⟨rfl, rfl⟩, represents.good⟩
  have others : Entries (s.withGlob { s.glob with
      objects := Function.update s.glob.objects (s.cell a).obj (some obj) }) (front ++ back)
      (Function.update objects (s.cell a).handle none) := by
    apply entries.tail.congr
    · exact fun b _ => ⟨rfl, rfl⟩
    · exact fun b member => (entries.tail.owned b member).2.1
    · exact fun b member => Function.update_of_ne (entries.own b member) _ s.glob.objects
  have whole := others.cons a obj (Function.update_self ..) entries.own objNotNull inside
    (Function.update_self ..)
  rw [Machine.withGlob_cell, Function.update_idem] at whole
  exact whole.perm List.perm_middle.symm

/-- A new handle has an object of its own and a value that is not known. -/
theorem newHandle_apply (succeeds : malloc.Succeeds) (represents : Represents s nodes objects)
    (ticks : List (BitVec 32)) : ∃ a o s', Represents s' nodes objects ∧ (a ∉ nodes ∧ a ≠ 0 ∧ a ∈ s'.live) ∧
      (o ≠ 0 ∧ o ∈ s'.others ∧ s'.glob.objects o = some HttpObj.new ∧ ∀ b ∈ nodes, (s'.cell b).obj ≠ o) ∧
        newHandle malloc ticks s = (ticks.find? fun tick => (objects (hashIntShift tick)).isNone).map fun tick =>
          (a, s'.modify a fun record => { record with handle := hashIntShift tick, obj := o }) := by
  obtain ⟨a, callocs, notNull, fresh, _⟩ := calloc_apply succeeds HttpHandle.zero s
  obtain ⟨o, picked⟩ := succeeds (insert a s.live ∪ s.others) (s.callocs + 1)
  have picked' : malloc.pick ((s.extend a HttpHandle.zero).live ∪ (s.extend a HttpHandle.zero).others)
      (s.extend a HttpHandle.zero).callocs = some o := picked
  obtain ⟨allocates, objNotNull, _, freshObj⟩ := callocOther_some picked'
  have outside : a ∉ nodes := fun member => fresh (represents.live a member)
  have own : ∀ b ∈ nodes, (s.cell b).obj ≠ o := fun b member same =>
    freshObj (by simpa using same ▸ (represents.owned b member).2.1)
  have kept : ∀ b ∈ nodes, (s.extend a HttpHandle.zero).cell b = s.cell b := fun b member =>
    Machine.extend_cell_of_ne fun same => outside (same ▸ member)
  let s' : HttpMachine := { s.extend a HttpHandle.zero with
    others := insert o s.others
    callocs := s.callocs + 2
    glob := { s.glob with objects := Function.update s.glob.objects o (some HttpObj.new) } }
  have here : a ∈ s'.live := Finset.mem_insert_self a s.live
  have represents' : Represents s' nodes objects := by
    refine ⟨?_, represents.linked.congr ?_ ?_, ?_⟩
    · apply represents.toEntries.congr
      · intro b member
        exact ⟨congrArg HttpHandle.handle (kept b member), congrArg HttpHandle.obj (kept b member)⟩
      · exact fun b member => Finset.mem_insert_of_mem (represents.owned b member).2.1
      · exact fun b member => Function.update_of_ne (own b member) _ s.glob.objects
    · exact fun b member => Finset.mem_insert_of_mem (represents.live b member)
    · intro b member
      exact ⟨congrArg HttpHandle.next (kept b member), congrArg HttpHandle.prev (kept b member)⟩
    · intro member
      rcases Finset.mem_insert.mp member with null | live
      · exact notNull null.symm
      · exact represents.good live
  refine ⟨a, o, s', represents', ⟨outside, notNull, here⟩, ⟨objNotNull, Finset.mem_insert_self o s.others,
    Function.update_self .., ?_⟩, ?_⟩
  · intro b member
    exact fun same => own b member ((congrArg HttpHandle.obj (kept b member)).symm.trans same)
  · have prepares : newHandle malloc ticks s = (genHandleValue ticks >>= fun handle => (do
        store a fun record => { record with handle }
        store a fun record => { record with obj := o }
        return a)) s' := by
      rw [newHandle, bind_apply, callocs, andThen_some, if_neg notNull, bind_apply, allocates, andThen_some,
        if_neg objNotNull]
      rfl
    rw [prepares, bind_apply, genHandleValue_apply represents']
    cases found : ticks.find? fun tick => (objects (hashIntShift tick)).isNone with
    | none => rfl
    | some tick =>
        simp only [Option.map_some, andThen_some, bind_apply, store_apply here, Machine.modify_live, store_apply,
          pure_apply, Machine.modify_modify, here]
        rfl

theorem Represents.create {o : Addr} (represents : Represents s nodes objects) (outside : a ∉ nodes) (notNull : a ≠ 0)
    (here : a ∈ s.live) (objNotNull : o ≠ 0) (inside : o ∈ s.others) (content : s.glob.objects o = some obj)
    (own : ∀ b ∈ nodes, (s.cell b).obj ≠ o) (unknown : objects value = none) :
    ∃ s', handleInsert a (s.modify a fun record => { record with handle := value, obj := o }) = some ((), s') ∧
      Represents s' (second a nodes) (Function.update objects value (some obj)) ∧
        (s'.cell a).handle = value ∧ (s'.cell a).obj = o ∧ s'.glob.objects o = some obj := by
  have kept : ∀ b ∈ nodes, (s.modify a fun record => { record with handle := value, obj := o }).cell b = s.cell b :=
    fun b member => Machine.modify_cell_of_ne fun same => outside (same ▸ member)
  have linked : Doubly HttpHandle.next HttpHandle.prev
      (s.modify a fun record => { record with handle := value, obj := o }) 0 s.glob.handles nodes := by
    apply represents.linked.congr
    · intro b member
      rw [Machine.modify_live]
      exact represents.live b member
    · intro b member
      rw [kept b member]
      exact ⟨rfl, rfl⟩
  obtain ⟨s', inserts, linked', ⟨live, others, contents⟩, same⟩ :=
    handleInsert_apply linked (List.nodup_cons.mpr ⟨outside, represents.nodup⟩) notNull (by simpa using here)
  rw [Machine.modify_live] at live
  rw [Machine.modify_others] at others
  rw [Machine.modify_glob] at contents
  have handleHere : (s'.cell a).handle = value := by rw [(same a).1, Machine.modify_cell_self]
  have objHere : (s'.cell a).obj = o := by rw [(same a).2, Machine.modify_cell_self]
  have objs : ∀ b ∈ nodes, (s'.cell b).obj = (s.cell b).obj := fun b member => by rw [(same b).2, kept b member]
  refine ⟨s', inserts, ⟨?_, linked', by rw [live]; exact represents.good⟩, handleHere, objHere, contents ▸ content⟩
  have before : Entries s' nodes objects := by
    apply represents.toEntries.congr
    · exact fun b member => ⟨by rw [(same b).1, kept b member], objs b member⟩
    · exact fun b member => others ▸ (represents.owned b member).2.1
    · exact fun b _ => by rw [contents]
  have after := before.cons a obj (by rw [handleHere, unknown])
    (fun b member => by rw [objs b member, objHere]; exact own b member) (by rwa [objHere])
    (by rwa [objHere, others]) (by rw [objHere, contents, content])
  rw [handleHere] at after
  exact after.perm (second_perm a nodes).symm

end GbfLibrary.Enet.Http
