import Mathlib.Data.List.Basic

/-!
# Programs that a crash may cut short

A program over the states `σ` either finishes with a value or is cut short, and in both cases there
is a last state: what a restart finds.  `Triple P m Q C` says that from a state with `P` the program
`m` finishes with `Q` or is cut short with `C`.
-/

namespace Mtproto.Lib

/-- A program over the states `σ`: no value means that a crash cut the run short. -/
def Interruptible (σ α : Type) := σ → Option α × σ

namespace Interruptible

variable {σ α β : Type}

instance : Monad (Interruptible σ) where
  pure a := fun s => (some a, s)
  bind m f := fun s =>
    match m s with
    | (some a, t) => f a t
    | (none, t) => (none, t)

/-- The crash. -/
def crash : Interruptible σ α := fun s => (none, s)

/-- The state. -/
def get : Interruptible σ σ := fun s => (some s, s)

/-- Rewrites the state. -/
def modify (f : σ → σ) : Interruptible σ Unit := fun s => (some (), f s)

/-- One program for each element of a list. -/
def each (f : α → Interruptible σ Unit) : List α → Interruptible σ Unit
  | [] => pure ()
  | a :: as => do
      f a
      each f as

theorem bind_of_some {m : Interruptible σ α} {f : α → Interruptible σ β} {s t : σ} {a : α}
    (h : m s = (some a, t)) : (m >>= f) s = f a t := by
  show (match m s with | (some a, t) => f a t | (none, t) => (none, t)) = _
  rw [h]

theorem bind_of_none {m : Interruptible σ α} {f : α → Interruptible σ β} {s t : σ}
    (h : m s = (none, t)) : (m >>= f) s = (none, t) := by
  show (match m s with | (some a, t) => f a t | (none, t) => (none, t)) = _
  rw [h]

/-- What is run from a state is replaced by what does the same there. -/
theorem bind_congr_at {m n : Interruptible σ α} {s : σ} (h : m s = n s)
    (f : α → Interruptible σ β) : (m >>= f) s = (n >>= f) s := by
  show (match m s with | (some a, t) => f a t | (none, t) => (none, t)) = _
  rw [h]
  rfl

/-- A program in two parts, and what follows them. -/
theorem bind_assoc_at {γ : Type} (m : Interruptible σ α) (f : α → Interruptible σ β)
    (g : β → Interruptible σ γ) (s : σ) :
    (m >>= f >>= g) s = (m >>= fun a => f a >>= g) s := by
  rcases run : m s with ⟨_ | a, t⟩
  · rw [bind_of_none (bind_of_none run), bind_of_none run]
  · rw [bind_congr_at (n := fun _ => f a t) (bind_of_some run), bind_of_some run]
    rfl

/-! ## Triples -/

/-- What holds at the end of a run. -/
def Ends (Q : α → σ → Prop) (C : σ → Prop) : Option α × σ → Prop
  | (some a, s) => Q a s
  | (none, s) => C s

theorem Ends.mono {Q Q' : α → σ → Prop} {C C' : σ → Prop} {r : Option α × σ} (h : Ends Q C r)
    (hQ : ∀ a s, Q a s → Q' a s) (hC : ∀ s, C s → C' s) : Ends Q' C' r := by
  rcases r with ⟨_ | a, s⟩
  · exact hC s h
  · exact hQ a s h

/-- From a state with `P` the program finishes with `Q` or is cut short with `C`. -/
def Triple (P : σ → Prop) (m : Interruptible σ α) (Q : α → σ → Prop) (C : σ → Prop) : Prop :=
  ∀ s, P s → Ends Q C (m s)

section Rules

variable {P P' : σ → Prop} {Q Q' : α → σ → Prop} {R : β → σ → Prop} {C C' : σ → Prop}

theorem triple_pure (a : α) (h : ∀ s, P s → Q a s) : Triple P (pure a) Q C := h

theorem triple_crash (h : ∀ s, P s → C s) : Triple P (crash : Interruptible σ α) Q C := h

theorem triple_modify {f : σ → σ} {Q : Unit → σ → Prop} (h : ∀ s, P s → Q () (f s)) :
    Triple P (modify f) Q C := h

theorem Triple.bind {m : Interruptible σ α} {f : α → Interruptible σ β} (hm : Triple P m Q C)
    (hf : ∀ a, Triple (Q a) (f a) R C) : Triple P (m >>= f) R C := by
  intro s hs
  have hends := hm s hs
  rcases hrun : m s with ⟨_ | a, t⟩
  · rw [hrun] at hends
    rw [bind_of_none hrun]
    exact hends
  · rw [hrun] at hends
    rw [bind_of_some hrun]
    exact hf a t hends

theorem triple_ite {c : Prop} [Decidable c] {m n : Interruptible σ α} (hm : c → Triple P m Q C)
    (hn : ¬ c → Triple P n Q C) : Triple P (if c then m else n) Q C := by
  split
  · exact hm ‹_›
  · exact hn ‹_›

theorem Triple.weaken {m : Interruptible σ α} (hm : Triple P m Q C) (hP : ∀ s, P' s → P s)
    (hQ : ∀ a s, Q a s → Q' a s) (hC : ∀ s, C s → C' s) : Triple P' m Q' C' :=
  fun s hs => (hm s (hP s hs)).mono hQ hC

/-- A fact that is not about the state stays. -/
theorem Triple.frame {m : Interruptible σ α} (H : Prop) (hm : Triple P m Q C) :
    Triple (fun s => H ∧ P s) m (fun a s => H ∧ Q a s) C :=
  fun s hs => (hm s hs.2).mono (fun _ _ h => ⟨hs.1, h⟩) fun _ h => h

end Rules

end Interruptible

end Mtproto.Lib
