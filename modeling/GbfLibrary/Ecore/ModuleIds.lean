import GbfLibrary.Ecore.ModuleRuns

/-!
# The ids of modules

What loads do to the tree of the modules: the modules that are there stay, and new ones come under the next ids.
-/

set_option autoImplicit false

namespace GbfLibrary.Ecore

open Memory Rbtree

/-- The module with an id, as an entry of the tree. -/
def Stored (fuel : Nat) (s : RbMachine) (e : Entry) : Prop := Bound fuel s e.1 e.2

section Ids

variable {loader : Loader} {malloc : Malloc} {fuel remaining limit type mode : Nat} {s s' s₁ : ModuleMemory}
  {name path : Option Bytes}

theorem insertModuleToTree_inserts {p : Word} {mod : EcoreModule} {rc : ModuleCode} (allocated : s.modules p = some mod)
    (inserts : insertModuleToTree malloc fuel p s = some (rc, s')) :
    (rc ≠ .ok ∧ s' = s) ∨
      ∃ result, rbtInsert malloc fuel s.moduleIndex p false false s.tree = some (result, s'.tree) ∧
        (rc = .ok ↔ result.1 = .ok) ∧ s'.moduleIndex = s.moduleIndex + 1 ∧
        s'.modules = Function.update s.modules p (some { mod with id := s.moduleIndex }) := by
  obtain ⟨mod', there, inserts⟩ := Option.bind_eq_some_iff.mp inserts
  obtain rfl : mod = mod' := Option.some.inj (allocated.symm.trans there)
  split at inserts
  · cases inserts
    exact .inl ⟨by decide, rfl⟩
  · obtain ⟨⟨result, tree⟩, runs, returns⟩ := Option.bind_eq_some_iff.mp inserts
    cases returns
    refine .inr ⟨result, runs, ?_, rfl, rfl⟩
    split
    · next ok => exact iff_of_true rfl ok
    · next refused => exact iff_of_false (by decide) refused

private theorem onmessage_of_checkModuleStatus {mod : EcoreModule} {loaded : Bool}
    (checks : checkModuleStatus mod loaded = .ok) : mod.onmessage = true := by
  unfold checkModuleStatus at checks
  split at checks
  · cases checks
  · split at checks
    · cases checks
    · split at checks
      · cases checks
      · next answers => exact Bool.eq_true_of_not_eq_false answers

/-- A load makes one insertion at most, of a module that answers to messages, under the next id. -/
theorem ecoreLoadModuleDummy_inserts {rc : Option ModuleCode}
    (loads : ecoreLoadModuleDummy loader malloc fuel name path type mode s = some (rc, s')) :
    s' = s ∨ ∃ p mod result, p ≠ 0 ∧ s.modules p = none ∧ mod.onmessage = true ∧
      rbtInsert malloc fuel s.moduleIndex p false false s.tree = some (result, s'.tree) ∧
      s'.moduleIndex = s.moduleIndex + 1 ∧
      s'.modules = if result.1 = .ok then Function.update s.modules p (some mod) else s.modules := by
  cases name with
  | none =>
      cases loads
      exact .inl rfl
  | some name =>
      cases picked : loader.calloc s with
      | none =>
          simp only [ecoreLoadModuleDummy, picked] at loads
          cases loads
          exact .inl rfl
      | some p =>
          obtain ⟨notNull, fresh⟩ := loader.fresh s p picked
          have freed (mod : EcoreModule) : ecoreModuleFree p (s.put p mod) = s := ecoreModuleFree_put s fresh mod
          simp only [ecoreLoadModuleDummy, picked, freed] at loads
          obtain ⟨_, _, loads⟩ := Option.bind_eq_some_iff.mp loads
          obtain ⟨⟨code, mod⟩, _, loads⟩ := Option.bind_eq_some_iff.mp loads
          dsimp only at loads
          split at loads
          · cases loads
            exact .inl rfl
          · split at loads
            · cases loads
              exact .inl rfl
            · next accepted =>
                have answers := onmessage_of_checkModuleStatus (not_not.mp accepted)
                obtain ⟨⟨code', s₁⟩, inserts, loads⟩ := Option.bind_eq_some_iff.mp loads
                dsimp only at loads
                have put (mod : EcoreModule) : (s.put p mod).modules p = some mod := Function.update_self ..
                rcases insertModuleToTree_inserts (put _) inserts with ⟨refused, rfl⟩ | ⟨result, runs, ok, index, modules⟩
                · rw [if_pos refused] at loads
                  cases loads
                  exact .inl (freed _)
                · right
                  rw [ModuleMemory.put, Function.update_idem] at modules
                  by_cases inserted : result.1 = .ok
                  · rw [if_neg (not_not.mpr (ok.mpr inserted))] at loads
                    cases loads
                    exact ⟨p, { mod with type, runningMode := mode, id := s.moduleIndex }, result, notNull, fresh, answers,
                      runs, index, by rw [if_pos inserted, modules]⟩
                  · rw [if_pos fun accepted => inserted (ok.mp accepted)] at loads
                    cases loads
                    refine ⟨p, { mod with type, runningMode := mode, id := s.moduleIndex }, result, notNull, fresh, answers,
                      runs, index, ?_⟩
                    rw [if_neg inserted, ecoreModuleFree, modules, Function.update_idem, ← fresh,
                      Function.update_eq_self]

/-- The ids of the modules are below the next one, and there are ids for a number of loads. -/
structure Numbered (fuel remaining : Nat) (s : ModuleMemory) : Prop where
  ids : ∀ e, Stored fuel s.tree e → 0 < keyOf e ∧ keyOf e < s.moduleIndex.toNat
  positive : 0 < s.moduleIndex.toNat
  room : s.moduleIndex.toNat + remaining ≤ 2147483648
  inFuel : s.moduleIndex.toNat + remaining ≤ fuel

theorem Numbered.mono {less : Nat} (numbered : Numbered fuel remaining s) (fewer : less ≤ remaining) :
    Numbered fuel less s where
  ids := numbered.ids
  positive := numbered.positive
  room := (Nat.add_le_add_left fewer _).trans numbered.room
  inFuel := (Nat.add_le_add_left fewer _).trans numbered.inFuel

/-- The modules of the tree are there and answer to messages. -/
def Answering (fuel : Nat) (s : ModuleMemory) : Prop :=
  ∀ e, Stored fuel s.tree e → e.2 ≠ 0 ∧ ∃ mod, s.modules e.2 = some mod ∧ mod.onmessage = true

/-- There are more modules. -/
structure Enlarged (fuel : Nat) (s s' : ModuleMemory) : Prop where
  keeps : ∀ e, Stored fuel s.tree e → Stored fuel s'.tree e
  answering : Answering fuel s → Answering fuel s'

theorem Enlarged.refl (fuel : Nat) (s : ModuleMemory) : Enlarged fuel s s := ⟨fun _ => id, id⟩

theorem Enlarged.trans (first : Enlarged fuel s s₁) (later : Enlarged fuel s₁ s') : Enlarged fuel s s' where
  keeps e here := later.keeps e (first.keeps e here)
  answering all := later.answering (first.answering all)

/-- They come under new ids. -/
structure Later (fuel : Nat) (s s' : ModuleMemory) : Prop where
  older : ∀ e, keyOf e < s.moduleIndex.toNat → Stored fuel s'.tree e → Stored fuel s.tree e
  index : s.moduleIndex.toNat ≤ s'.moduleIndex.toNat

/-- What a number of loads do. -/
structure Loads (fuel made : Nat) (s s' : ModuleMemory) : Prop extends Enlarged fuel s s' where
  numbered : ∀ remaining, Numbered fuel (made + remaining) s → Numbered fuel remaining s' ∧ Later fuel s s'

theorem Loads.none (tree : s'.tree = s.tree) (index : s'.moduleIndex = s.moduleIndex) (modules : s'.modules = s.modules)
    (made : Nat) : Loads fuel made s s' where
  keeps e here := tree ▸ here
  answering all e here := modules ▸ all e (tree ▸ here)
  numbered remaining numbered := by
    obtain ⟨ids, positive, room, inFuel⟩ := numbered.mono (Nat.le_add_left remaining made)
    refine ⟨⟨?_, ?_, ?_, ?_⟩, fun e _ here => tree ▸ here, index ▸ le_rfl⟩
    · rw [tree, index]
      exact ids
    · rwa [index]
    · rwa [index]
    · rwa [index]

theorem Loads.trans {made more : Nat} (first : Loads fuel made s s₁) (later : Loads fuel more s₁ s') :
    Loads fuel (made + more) s s' where
  toEnlarged := first.toEnlarged.trans later.toEnlarged
  numbered remaining numbered := by
    rw [Nat.add_assoc] at numbered
    obtain ⟨between, older, index⟩ := first.numbered _ numbered
    obtain ⟨last, older', index'⟩ := later.numbered _ between
    refine ⟨last, fun e below here => older e below (older' e ?_ here), index.trans index'⟩
    exact below.trans_le (Int.ofNat_le.mpr index)

private theorem ecoreLoadModuleDummy_loads {rc : Option ModuleCode} (ready : Ready fuel (remaining + 1) s)
    (loads : ecoreLoadModuleDummy loader malloc fuel name path type mode s = some (rc, s')) : Loads fuel 1 s s' := by
  rcases ecoreLoadModuleDummy_inserts loads with rfl | ⟨p, mod, result, notNull, fresh, answers, inserts, index, modules⟩
  · exact .none rfl rfl rfl 1
  · obtain ⟨shape, nodes, levels, holds, short⟩ := ready.tree
    have enough : shape.labels.length < fuel := by omega
    obtain ⟨code, old, tree, shape', nodes', levels', runs, holds', longer, outcome⟩ :=
      rbtInsert_adds malloc holds (show shape.labels.length + 1 < fuel by omega) s.moduleIndex p
    obtain ⟨result_eq, rfl⟩ := Prod.mk.inj (Option.some.inj (runs.symm.trans inserts))
    have stored : (result.1 = .ok ∧ ∀ e, Stored fuel s'.tree e ↔ e = (s.moduleIndex, p) ∨ Stored fuel s.tree e) ∨
        ∀ e, Stored fuel s'.tree e ↔ Stored fuel s.tree e := by
      rcases outcome with ⟨ok, _, entries⟩ | ⟨_, unchanged⟩
      · refine .inl ⟨result_eq ▸ ok, fun e => (holds'.search_bound (by omega)).trans ((entries e).trans ?_)⟩
        exact or_congr_right (holds.search_bound enough).symm
      · exact .inr fun e => bound_unchanged holds enough unchanged
    have more : ∀ e, Stored fuel s'.tree e → (result.1 = .ok ∧ e = (s.moduleIndex, p)) ∨ Stored fuel s.tree e := by
      intro e here
      rcases stored with ⟨ok, added⟩ | same
      · exact ((added e).mp here).imp_left (And.intro ok)
      · exact .inr ((same e).mp here)
    have kept : ∀ q other, s.modules q = some other → s'.modules q = some other := by
      intro q other allocated
      have different : q ≠ p := fun same => by
        rw [same, fresh] at allocated
        cases allocated
      rw [modules]
      split
      · rwa [Function.update_of_ne different]
      · exact allocated
    refine ⟨⟨fun e here => ?_, fun all e here => ?_⟩, fun remaining numbered => ?_⟩
    · rcases stored with ⟨_, added⟩ | same
      · exact (added e).mpr (.inr here)
      · exact (same e).mpr here
    · rcases more e here with ⟨ok, rfl⟩ | there
      · exact ⟨notNull, mod, by rw [modules, if_pos ok, Function.update_self], answers⟩
      · obtain ⟨live, other, allocated, answers'⟩ := all e there
        exact ⟨live, other, kept _ _ allocated, answers'⟩
    · obtain ⟨ids, positive, room, inFuel⟩ := numbered
      have next : s'.moduleIndex.toNat = s.moduleIndex.toNat + 1 := by
        rw [index, BitVec.toNat_add]
        exact Nat.mod_eq_of_lt (show s.moduleIndex.toNat + 1 < 4294967296 by omega)
      have id : keyOf (s.moduleIndex, p) = s.moduleIndex.toNat :=
        BitVec.toInt_eq_toNat_of_lt (show 2 * s.moduleIndex.toNat < 4294967296 by omega)
      refine ⟨⟨fun e here => ?_, by omega, by omega, by omega⟩, fun e below here => ?_, by omega⟩
      · rcases more e here with ⟨_, rfl⟩ | there
        · exact ⟨by omega, by omega⟩
        · have := ids e there
          exact ⟨this.1, by omega⟩
      · rcases more e here with ⟨_, rfl⟩ | there
        · omega
        · exact there

theorem ecoreLoadModules_loads {list : List ModuleListNode} (sized : ∀ node ∈ list, node.Sized) {rc : Option ModuleCode}
    (ready : Ready fuel (list.length + remaining) s)
    (loads : ecoreLoadModules loader malloc fuel list s = some (rc, s')) :
    Ready fuel remaining s' ∧ Loads fuel list.length s s' := by
  induction list generalizing s with
  | nil =>
      cases loads
      exact ⟨ready.mono (Nat.le_add_left ..), .none rfl rfl rfl 0⟩
  | cons node list ih =>
      obtain ⟨name, path⟩ := sized node List.mem_cons_self
      rw [List.length_cons, Nat.add_right_comm] at ready
      obtain ⟨⟨rc₁, s₁⟩, load, loads⟩ := Option.bind_eq_some_iff.mp loads
      have ready₁ : Ready fuel (list.length + remaining) s₁ := by
        rcases ecoreLoadModuleDummy_outcome loader malloc ready name path node.type node.mode with
          ⟨faults, _⟩ | ⟨rc', s', load', ready', _⟩
        · cases faults.symm.trans load
        · cases load'.symm.trans load
          exact ready'
      have first := ecoreLoadModuleDummy_loads ready load
      rw [List.length_cons, Nat.add_comm]
      dsimp only at loads
      split at loads
      · cases loads
        exact ⟨ready₁.mono (Nat.le_add_left ..), first.trans (.none rfl rfl rfl list.length)⟩
      · obtain ⟨ready', later⟩ := ih (fun other member => sized other (List.mem_cons_of_mem _ member)) ready₁ loads
        exact ⟨ready', first.trans later⟩

private theorem startModuleOnload_index (mod : EcoreModule) (index : Word) (s : ModuleMemory) :
    (startModuleOnload mod index s).2.moduleIndex = s.moduleIndex := by
  unfold startModuleOnload
  split
  · rfl
  · split <;> rfl

theorem startLoop_index {node : Addr} {rc rc' : ModuleCode} (starts : startLoop fuel limit node rc s = some (rc', s')) :
    s'.moduleIndex = s.moduleIndex := by
  induction limit generalizing node rc s with
  | zero => cases starts
  | succ limit ih =>
      rw [startLoop] at starts
      split at starts
      · cases starts
        rfl
      · obtain ⟨⟨n, tree⟩, _, starts⟩ := Option.bind_eq_some_iff.mp starts
        obtain ⟨mod, _, starts⟩ := Option.bind_eq_some_iff.mp starts
        have same := startModuleOnload_index mod n.key { s with tree }
        generalize startModuleOnload mod n.key { s with tree } = result at same starts
        obtain ⟨rc₁, s₁⟩ := result
        dsimp only at same starts
        split at starts
        · cases starts
          exact same
        · obtain ⟨⟨next, tree'⟩, _, starts⟩ := Option.bind_eq_some_iff.mp starts
          exact (ih starts).trans same

theorem ecoreStartModules_index {rc : ModuleCode} (starts : ecoreStartModules fuel s = some (rc, s')) :
    s'.moduleIndex = s.moduleIndex := by
  obtain ⟨⟨first, tree⟩, _, starts⟩ := Option.bind_eq_some_iff.mp starts
  dsimp only at starts
  exact (startLoop_index starts :)

theorem ModuleCall.run_loads {call : ModuleCall} (sized : call.Sized) {rc : Option ModuleCode}
    (ready : Ready fuel (call.loads + remaining) s) (runs : call.run loader malloc fuel s = some (rc, s')) :
    Ready fuel remaining s' ∧ Loads fuel call.loads s s' := by
  cases call with
  | load list => exact ecoreLoadModules_loads sized ready runs
  | start =>
      obtain ⟨rc₁, s₁, starts, started⟩ := ecoreStartModules_outcome ready
      simp only [ModuleCall.run, starts, Option.map_some, Option.some.injEq, Prod.mk.injEq] at runs
      obtain ⟨_, rfl⟩ := runs
      exact ⟨(ready.kept started.kept).mono (Nat.le_add_left ..), .none started.1 (ecoreStartModules_index starts) started.2.1 0⟩

/-- After `init_module` there is no module. -/
theorem Initialised.empty (initialised : Initialised malloc s) (enough : 0 < fuel) (e : Entry) :
    ¬ Stored fuel s.tree e := by
  obtain ⟨nodes, holds⟩ := initialised.tree
  intro here
  have member := (holds.search_bound (by simpa using enough)).mp here
  cases member

end Ids

end GbfLibrary.Ecore
