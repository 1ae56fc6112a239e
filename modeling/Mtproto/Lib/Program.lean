import Mathlib.Logic.Relation
import Mathlib.Data.List.Basic

/-!
Programs over one state that either finish or stop at an error, and machines that take one
such program after another.  A program keeps a relation when every finishing run leads from its
first state to a related one; for a reflexive and transitive relation that is read off the
text of the program, command by command.
-/

namespace Mtproto.Lib

/-- A program over the states `σ`: no result means that the run stopped at an error. -/
abbrev Program (σ α : Type) := StateT σ Option α

namespace Program

variable {σ α β : Type}

/-- The state. -/
def read : Program σ σ := fun s => some (s, s)

/-- Rewrites the state. -/
def update (f : σ → σ) : Program σ Unit := fun s => some ((), f s)

/-- Stops at an error. -/
def fault : Program σ α := fun _ => none

/-- The value if there is one, an error otherwise. -/
def require : Option α → Program σ α
  | some a => pure a
  | none => fault

/-- Runs the command where the condition holds. -/
def when (c : Prop) [Decidable c] (m : Program σ Unit) : Program σ Unit :=
  if c then m else pure ()

/-- Runs the command for every entry, in order. -/
def each (f : α → Program σ Unit) : List α → Program σ Unit
  | [] => pure ()
  | a :: as => do
      f a
      each f as

/-! ## Runs -/

@[simp] theorem bind_apply (m : Program σ α) (f : α → Program σ β) (s : σ) :
    (m >>= f) s = (m s).bind fun p => f p.1 p.2 := rfl

@[simp] theorem pure_apply (a : α) (s : σ) : (pure a : Program σ α) s = some (a, s) := rfl

@[simp] theorem read_apply (s : σ) : read s = some (s, s) := rfl

@[simp] theorem update_apply (f : σ → σ) (s : σ) : update f s = some ((), f s) := rfl

@[simp] theorem fault_apply (s : σ) : (fault : Program σ α) s = none := rfl

theorem read_bind (f : σ → Program σ β) (s : σ) : (read >>= f) s = f s s := rfl

theorem update_bind (g : σ → σ) (f : Unit → Program σ β) (s : σ) :
    (update g >>= f) s = f () (g s) := rfl

theorem bind_run {m : Program σ α} {f : α → Program σ β} {s t : σ} {b : β}
    (run : (m >>= f) s = some (b, t)) :
    ∃ a u, m s = some (a, u) ∧ f a u = some (b, t) := by
  rw [bind_apply] at run
  cases h : m s with
  | none => simp [h] at run
  | some p => exact ⟨p.1, p.2, rfl, by simpa [h] using run⟩

theorem pure_run {a b : α} {s t : σ} (run : (pure a : Program σ α) s = some (b, t)) :
    b = a ∧ t = s := by
  simp only [pure_apply, Option.some.injEq, Prod.mk.injEq] at run
  exact ⟨run.1.symm, run.2.symm⟩

theorem read_run {s t u : σ} (run : (read : Program σ σ) s = some (u, t)) : u = s ∧ t = s := by
  simp only [read, Option.some.injEq, Prod.mk.injEq] at run
  exact ⟨run.1.symm, run.2.symm⟩

theorem update_run {f : σ → σ} {s t : σ} {x : Unit} (run : update f s = some (x, t)) :
    t = f s := by
  simp only [update, Option.some.injEq, Prod.mk.injEq] at run
  exact run.2.symm

theorem require_run {o : Option α} {a : α} {s t : σ}
    (run : (require o : Program σ α) s = some (a, t)) : o = some a ∧ t = s := by
  cases o with
  | none => simp [require, fault] at run
  | some b =>
      obtain ⟨rfl, rfl⟩ := pure_run run
      exact ⟨rfl, rfl⟩

theorem when_run {c : Prop} [Decidable c] {m : Program σ Unit} {s t : σ} {x : Unit}
    (run : when c m s = some (x, t)) : (c ∧ m s = some (x, t)) ∨ (¬ c ∧ t = s) := by
  by_cases h : c
  · exact .inl ⟨h, by simpa [when, h] using run⟩
  · refine .inr ⟨h, ?_⟩
    rw [when, if_neg h] at run
    exact (pure_run run).2

/-! ## Kept relations -/

/-- Every finishing run of the program leads to a related state. -/
def Keeps (R : σ → σ → Prop) (m : Program σ α) : Prop :=
  ∀ s a t, m s = some (a, t) → R s t

theorem Keeps.mono {R S : σ → σ → Prop} {m : Program σ α} (le : ∀ s t, R s t → S s t)
    (kept : Keeps R m) : Keeps S m :=
  fun s a t run => le s t (kept s a t run)

section Rules

variable {R : σ → σ → Prop} [IsPreorder σ R]

@[simp] theorem keeps_pure (a : α) : Keeps R (pure a : Program σ α) := by
  intro s b t run
  rw [(pure_run run).2]
  exact refl s

@[simp] theorem keeps_read : Keeps R (read : Program σ σ) := by
  intro s u t run
  rw [(read_run run).2]
  exact refl s

@[simp] theorem keeps_require (o : Option α) : Keeps R (require o : Program σ α) := by
  intro s a t run
  rw [(require_run run).2]
  exact refl s

theorem keeps_bind {m : Program σ α} {f : α → Program σ β} (first : Keeps R m)
    (rest : ∀ a, Keeps R (f a)) : Keeps R (m >>= f) := by
  intro s b t run
  obtain ⟨a, u, left, right⟩ := bind_run run
  exact IsTrans.trans s u t (first s a u left) (rest a u b t right)

theorem keeps_when {c : Prop} [Decidable c] {m : Program σ Unit} (kept : c → Keeps R m) :
    Keeps R (when c m) := by
  intro s x t run
  rcases when_run run with ⟨holds, run⟩ | ⟨-, rfl⟩
  · exact kept holds s x t run
  · exact refl t

theorem keeps_each {f : α → Program σ Unit} {as : List α} (kept : ∀ a ∈ as, Keeps R (f a)) :
    Keeps R (each f as) := by
  induction as with
  | nil => exact keeps_pure ()
  | cons a as ih =>
      exact keeps_bind (kept a (by simp)) fun _ => ih fun b hb => kept b (by simp [hb])

end Rules

variable {R : σ → σ → Prop}

@[simp] theorem keeps_fault : Keeps R (fault : Program σ α) := by
  intro s a t run
  simp [fault] at run

theorem keeps_update {f : σ → σ} (kept : ∀ s, R s (f s)) : Keeps R (update f) := by
  intro s x t run
  rw [update_run run]
  exact kept s

theorem keeps_ite {c : Prop} [Decidable c] {m n : Program σ α} (pos : c → Keeps R m)
    (neg : ¬ c → Keeps R n) : Keeps R (if c then m else n) := by
  split
  · exact pos ‹_›
  · exact neg ‹_›

/-- What holds of the first state holds of the second one. -/
def Preserving (P : σ → Prop) (s t : σ) : Prop := P s → P t

instance {P : σ → Prop} : IsPreorder σ (Preserving P) where
  refl _ := id
  trans _ _ _ first second := second ∘ first

/-! ## Results -/

/-- Every result of the program has the property. -/
def Yields (P : α → Prop) (m : Program σ α) : Prop :=
  ∀ s a t, m s = some (a, t) → P a

section Results

variable {P : α → Prop} {Q : β → Prop}

theorem yields_pure {a : α} (holds : P a) : Yields P (pure a : Program σ α) := by
  intro s b t run
  rw [(pure_run run).1]
  exact holds

@[simp] theorem yields_fault : Yields P (fault : Program σ α) := by
  intro s a t run
  simp [fault] at run

theorem yields_bind {m : Program σ α} {f : α → Program σ β} (first : Yields P m)
    (rest : ∀ a, P a → Yields Q (f a)) : Yields Q (m >>= f) := by
  intro s b t run
  obtain ⟨a, u, left, right⟩ := bind_run run
  exact rest a (first s a u left) u b t right

/-- Where the first result does not matter. -/
theorem yields_after {m : Program σ α} {f : α → Program σ β} (rest : ∀ a, Yields Q (f a)) :
    Yields Q (m >>= f) := by
  intro s b t run
  obtain ⟨a, u, -, right⟩ := bind_run run
  exact rest a u b t right

theorem yields_require {o : Option α} {f : α → Program σ β}
    (rest : ∀ a, o = some a → Yields Q (f a)) :
    Yields Q (require o >>= f) := by
  intro s b t run
  obtain ⟨a, u, left, right⟩ := bind_run run
  exact rest a (require_run left).1 u b t right

theorem yields_mapM {f : α → Program σ β} {as : List α} (each : ∀ a ∈ as, Yields Q (f a)) :
    Yields (fun bs => ∀ b ∈ bs, Q b) (as.mapM f) := by
  induction as with
  | nil => exact yields_pure (by simp)
  | cons a as ih =>
      rw [List.mapM_cons]
      refine yields_bind (each a (by simp)) fun b hb => ?_
      refine yields_bind (ih fun c mem => each c (by simp [mem])) fun bs all => ?_
      exact yields_pure (List.forall_mem_cons.2 ⟨hb, all⟩)

end Results

/-! ## Machines -/

/-- The states a machine reaches from `start` by steps that are taken only where `allowed`. -/
inductive Reaches {ι : Type} (step : ι → Program σ Unit) (start : σ → Prop)
    (allowed : σ → ι → Prop) : σ → Prop
  | start {s : σ} : start s → Reaches step start allowed s
  | step {s t : σ} {i : ι} : Reaches step start allowed s → allowed s i →
      step i s = some ((), t) → Reaches step start allowed t

/-- What holds at the start and is kept by every allowed step holds in every reached state. -/
theorem Reaches.invariant {ι : Type} {step : ι → Program σ Unit} {start : σ → Prop}
    {allowed : σ → ι → Prop} {Inv : σ → Prop} (initial : ∀ s, start s → Inv s)
    (kept : ∀ s i t, Inv s → allowed s i → step i s = some ((), t) → Inv t) {s : σ}
    (reached : Reaches step start allowed s) : Inv s := by
  induction reached with
  | start h => exact initial _ h
  | step _ ok run ih => exact kept _ _ _ ih ok run

/-- Inputs that are always allowed lead from a reached state to another. -/
theorem Reaches.each {ι : Type} {step : ι → Program σ Unit} {start : σ → Prop}
    {allowed : σ → ι → Prop}
    {inputs : List ι} (always : ∀ i ∈ inputs, ∀ s, allowed s i) {s t : σ} {x : Unit}
    (reached : Reaches step start allowed s) (run : each step inputs s = some (x, t)) :
    Reaches step start allowed t := by
  induction inputs generalizing s with
  | nil =>
      rw [(pure_run run).2]
      exact reached
  | cons i is ih =>
      obtain ⟨⟨⟩, u, first, rest⟩ := bind_run run
      have next : Reaches step start allowed u := .step reached (always i (by simp) s) first
      exact ih (fun j mem => always j (by simp [mem])) next rest

/-- A run over a list of inputs, each of them allowed where it is taken. -/
inductive Runs {ι : Type} (step : ι → Program σ Unit) (allowed : σ → ι → Prop) : σ → List ι → σ →
    Prop
  | nil {s : σ} : Runs step allowed s [] s
  | snoc {s t u : σ} {is : List ι} {i : ι} : Runs step allowed s is t → allowed t i →
      step i t = some ((), u) →
      Runs step allowed s (is ++ [i]) u

/-- What holds at the start, with no input taken, and is kept by every allowed input holds behind
every run. -/
theorem Runs.invariant {ι : Type} {step : ι → Program σ Unit} {allowed : σ → ι → Prop}
    {P : List ι → σ → Prop}
    {s t : σ} {is : List ι} (run : Runs step allowed s is t) (initial : P [] s)
    (kept : ∀ is s i t, P is s → allowed s i → step i s = some ((), t) → P (is ++ [i]) t) :
    P is t := by
  induction run with
  | nil => exact initial
  | snoc _ ok run ih => exact kept _ _ _ _ ih ok run

theorem Runs.reaches {ι : Type} {step : ι → Program σ Unit} {start : σ → Prop}
    {allowed : σ → ι → Prop} {s t : σ}
    {is : List ι} (run : Runs step allowed s is t) (reached : Reaches step start allowed s) :
    Reaches step start allowed t := by
  induction run with
  | nil => exact reached
  | snoc _ ok run ih => exact .step ih ok run

/-- The step, where it is allowed. -/
def guarded {ι : Type} (step : ι → Program σ Unit) (allowed : σ → ι → Prop)
    [∀ s i, Decidable (allowed s i)] (i : ι) :
    Program σ Unit :=
  fun s => if allowed s i then step i s else none

/-- A run of steps that are each allowed where they are taken leads from a reached state to
another. -/
theorem Reaches.guarded {ι : Type} {step : ι → Program σ Unit} {start : σ → Prop}
    {allowed : σ → ι → Prop}
    [∀ s i, Decidable (allowed s i)] {inputs : List ι} {s t : σ} {x : Unit}
    (reached : Reaches step start allowed s)
    (run : Program.each (Program.guarded step allowed) inputs s = some (x, t)) :
    Reaches step start allowed t := by
  induction inputs generalizing s with
  | nil =>
      rw [(pure_run run).2]
      exact reached
  | cons i is ih =>
      obtain ⟨⟨⟩, u, first, rest⟩ := bind_run run
      rw [Program.guarded] at first
      split at first
      · exact ih (.step reached ‹_› first) rest
      · cases first

/-- A run of guarded steps is a run. -/
theorem each_of_guarded {ι : Type} {step : ι → Program σ Unit} {allowed : σ → ι → Prop}
    [∀ s i, Decidable (allowed s i)] {inputs : List ι} {s t : σ} {x : Unit}
    (run : Program.each (Program.guarded step allowed) inputs s = some (x, t)) :
    Program.each step inputs s = some (x, t) := by
  induction inputs generalizing s with
  | nil => exact run
  | cons i is ih =>
      obtain ⟨⟨⟩, u, first, rest⟩ := bind_run run
      rw [Program.guarded] at first
      split at first
      · rw [each, bind_apply, first]
        exact ih rest
      · cases first

theorem Reaches.mono {ι : Type} {step : ι → Program σ Unit} {start : σ → Prop}
    {allowed allowed' : σ → ι → Prop} (weaker : ∀ s i, allowed s i → allowed' s i) {s : σ}
    (reached : Reaches step start allowed s) : Reaches step start allowed' s := by
  induction reached with
  | start h => exact .start h
  | step _ ok run ih => exact .step ih (weaker _ _ ok) run

end Program

end Mtproto.Lib
