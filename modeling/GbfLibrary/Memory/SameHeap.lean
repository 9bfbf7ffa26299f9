import GbfLibrary.Memory.Chain
import GbfLibrary.Systems.Run

/-!
# Machines with different globals

Two programs over the same records that keep their globals in different ways, and when they do the
same.
-/

set_option autoImplicit false

namespace GbfLibrary.Memory

open Prog Systems

variable {Rec Glob Glob' α β : Type} {R : Glob → Glob' → Prop}

/-- The machines differ in their globals alone, and these are related. -/
structure SameHeap (R : Glob → Glob' → Prop) (s : Machine Rec Glob) (t : Machine Rec Glob') : Prop where
  live : t.live = s.live
  others : t.others = s.others
  cell : t.cell = s.cell
  callocs : t.callocs = s.callocs
  glob : R s.glob t.glob

namespace SameHeap

variable {s : Machine Rec Glob} {t : Machine Rec Glob'} {a : Addr}

theorem modify (same : SameHeap R s t) (a : Addr) (f : Rec → Rec) : SameHeap R (s.modify a f) (t.modify a f) := by
  obtain ⟨live, others, cell, callocs, glob⟩ := same
  exact ⟨live, others, by simp only [Machine.modify, cell], callocs, glob⟩

theorem release (same : SameHeap R s t) (a : Addr) : SameHeap R (s.release a) (t.release a) := by
  obtain ⟨live, others, cell, callocs, glob⟩ := same
  exact ⟨by simp only [Machine.release, live], others, cell, callocs, glob⟩

theorem extend (same : SameHeap R s t) (a : Addr) (zero : Rec) : SameHeap R (s.extend a zero) (t.extend a zero) := by
  obtain ⟨live, others, cell, callocs, glob⟩ := same
  exact ⟨by simp only [Machine.extend, live], others, by simp only [Machine.extend, cell],
    by simp only [Machine.extend, callocs], glob⟩

theorem withGlob (same : SameHeap R s t) {glob : Glob} {glob' : Glob'} (related : R glob glob') :
    SameHeap R (s.withGlob glob) (t.withGlob glob') :=
  ⟨same.live, same.others, same.cell, same.callocs, related⟩

end SameHeap

/-- The programs do the same on machines that differ in their globals alone. -/
def Simulates (R : Glob → Glob' → Prop) (prog : Prog Rec Glob α) (prog' : Prog Rec Glob' α) : Prop :=
  ∀ s t, SameHeap R s t → Alike (SameHeap R) (prog s) (prog' t)

namespace Simulates

theorem bind {prog : Prog Rec Glob α} {prog' : Prog Rec Glob' α} {next : α → Prog Rec Glob β}
    {next' : α → Prog Rec Glob' β} (first : Simulates R prog prog') (rest : ∀ x, Simulates R (next x) (next' x)) :
    Simulates R (prog >>= next) (prog' >>= next') := by
  intro s t same
  have here := first s t same
  rw [bind_apply, bind_apply]
  generalize prog s = outcome at here
  generalize prog' t = outcome' at here
  cases here with
  | none => exact .none
  | @some out out' both =>
      obtain ⟨x, between⟩ := out
      obtain ⟨x', between'⟩ := out'
      obtain ⟨rfl, after⟩ := both
      exact rest x between between' after

theorem pure (x : α) : Simulates R (Pure.pure x : Prog Rec Glob α) (Pure.pure x) :=
  fun _ _ same => .some ⟨rfl, same⟩

theorem fault : Simulates R (fault : Prog Rec Glob α) fault :=
  fun _ _ _ => .none

theorem ite {c c' : Prop} [Decidable c] [Decidable c'] {yes no : Prog Rec Glob α} {yes' no' : Prog Rec Glob' α}
    (same : c ↔ c') (positive : c → Simulates R yes yes') (negative : ¬ c → Simulates R no no') :
    Simulates R (if c then yes else no) (if c' then yes' else no') := by
  by_cases here : c
  · rw [if_pos here, if_pos (same.mp here)]
    exact positive here
  · rw [if_neg here, if_neg (mt same.mpr here)]
    exact negative here

/-- A test that both programs make on what they share. -/
theorem cond {c : Prop} [Decidable c] {yes no : Prog Rec Glob α} {yes' no' : Prog Rec Glob' α}
    (positive : Simulates R yes yes') (negative : Simulates R no no') :
    Simulates R (if c then yes else no) (if c then yes' else no') :=
  .ite Iff.rfl (fun _ => positive) fun _ => negative

theorem load (a : Addr) : Simulates R (load a : Prog Rec Glob Rec) (load a) := by
  intro s t same
  rw [Prog.load, Prog.load, same.live, same.cell]
  split
  · exact .some ⟨rfl, same⟩
  · exact .none

theorem store (a : Addr) (f : Rec → Rec) : Simulates R (store a f : Prog Rec Glob Unit) (store a f) := by
  intro s t same
  rw [Prog.store, Prog.store, same.live]
  split
  · exact .some ⟨rfl, same.modify a f⟩
  · exact .none

theorem free (a : Addr) : Simulates R (free a : Prog Rec Glob Unit) (free a) := by
  intro s t same
  rw [Prog.free, Prog.free, same.live]
  split
  · exact .some ⟨rfl, same⟩
  · split
    · exact .some ⟨rfl, same.release a⟩
    · exact .none

theorem calloc (malloc : Malloc) (zero : Rec) :
    Simulates R (calloc malloc zero : Prog Rec Glob Addr) (calloc malloc zero) := by
  intro s t same
  rw [Prog.calloc, Prog.calloc, same.live, same.others, same.callocs]
  split
  · exact .some ⟨rfl, rfl, rfl, same.cell, rfl, same.glob⟩
  · exact .some ⟨rfl, same.extend _ zero⟩

theorem callocOther (malloc : Malloc) : Simulates R (callocOther malloc : Prog Rec Glob Addr) (callocOther malloc) := by
  intro s t same
  rw [Prog.callocOther, Prog.callocOther, same.live, same.others, same.callocs]
  split
  · exact .some ⟨rfl, rfl, rfl, same.cell, rfl, same.glob⟩
  · exact .some ⟨rfl, rfl, rfl, same.cell, rfl, same.glob⟩

/-- The globals are read: what follows may depend on them. -/
theorem getGlob {next : Glob → Prog Rec Glob β} {next' : Glob' → Prog Rec Glob' β}
    (rest : ∀ glob glob', R glob glob' → Simulates R (next glob) (next' glob')) :
    Simulates R (getGlob >>= next) (getGlob >>= next') :=
  fun s t same => rest s.glob t.glob same.glob s t same

theorem setGlob {f : Glob → Glob} {f' : Glob' → Glob'} (changes : ∀ glob glob', R glob glob' → R (f glob) (f' glob')) :
    Simulates R (setGlob f : Prog Rec Glob Unit) (setGlob f') :=
  fun _ _ same => .some ⟨rfl, same.withGlob (changes _ _ same.glob)⟩

theorem lastNode (link : Rec → Addr) (fuel : Nat) (a : Addr) :
    Simulates R (lastNode link fuel a : Prog Rec Glob (Addr × Nat)) (lastNode link fuel a) := by
  induction fuel generalizing a with
  | zero => exact .fault
  | succ fuel ih =>
      refine .bind (.load a) fun node => .cond (.pure _) ?_
      exact .bind (ih (link node)) fun last => .pure _

/-- A run that returns is followed by the other program. -/
theorem returns {prog : Prog Rec Glob α} {prog' : Prog Rec Glob' α} {s : Machine Rec Glob} {t t' : Machine Rec Glob'}
    {x : α} (simulates : Simulates R prog prog') (same : SameHeap R s t) (returns : prog' t = some (x, t')) :
    ∃ s', prog s = some (x, s') ∧ SameHeap R s' t' := by
  have here := simulates s t same
  rw [returns] at here
  generalize outcome : prog s = out at here
  cases here with
  | @some out _ both =>
      obtain ⟨y, s'⟩ := out
      obtain ⟨rfl, after⟩ := both
      exact ⟨s', rfl, after⟩

end Simulates

end GbfLibrary.Memory
