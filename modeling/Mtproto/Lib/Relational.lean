import Mtproto.Lib.Crash

/-!
# Where programs lead and what they depend on

Two properties of programs that pass through sequencing, so that a program has them as soon as its
steps do.  `Moves R m` says that every run leads to a state that the preorder `R` relates to the
first.  `Blind A W m` compares two runs: from states that `A` relates the results are the same and
the last states are again related, as long as the first run stays within `W`.  Both are classes, and
a program is shown to have them by looking up the instances of its steps.
-/

namespace Mtproto.Lib

namespace Interruptible

variable {σ α β : Type}

/-- The result of a program that is cut short is nothing. -/
def caught (m : Interruptible σ α) : Interruptible σ (Option α) := fun s => (some (m s).1, (m s).2)

theorem caught_of_eq {m : Interruptible σ α} {s t : σ} {r : Option α} (h : m s = (r, t)) :
    caught m s = (some r, t) := by
  unfold caught
  rw [h]

/-- One program for each of `n` numbers from `i` on, with the list of the results. -/
def collect (body : ℕ → Interruptible σ α) : ℕ → ℕ → Interruptible σ (List α)
  | _, 0 => pure []
  | i, n + 1 => do
      let a ← body i
      let rest ← collect body (i + 1) n
      pure (a :: rest)

/-! ## Where a program leads -/

/-- Every run leads from a state to one that `R` relates to it. -/
class Moves (R : σ → σ → Prop) (m : Interruptible σ α) : Prop where
  moves : ∀ s, R s (m s).2

section Moves

variable {R : σ → σ → Prop} {m : Interruptible σ α} {f : α → Interruptible σ β}

instance moves_pure [Std.Refl R] (a : α) : Moves R (pure a : Interruptible σ α) :=
  ⟨fun s => Std.Refl.refl s⟩

instance moves_crash [Std.Refl R] : Moves R (crash : Interruptible σ α) :=
  ⟨fun s => Std.Refl.refl s⟩

instance moves_bind [IsTrans σ R] [hm : Moves R m] [hf : ∀ a, Moves R (f a)] :
    Moves R (m >>= f) := by
  constructor
  intro s
  have hfirst := hm.moves s
  rcases hrun : m s with ⟨_ | a, t⟩
  · rw [bind_of_none hrun]
    rwa [hrun] at hfirst
  · rw [bind_of_some hrun]
    rw [hrun] at hfirst
    exact IsTrans.trans _ _ _ hfirst ((hf a).moves t)

instance moves_ite {c : Prop} [Decidable c] {n : Interruptible σ α} [hm : Moves R m]
    [hn : Moves R n] :
    Moves R (if c then m else n) := by
  split
  · exact hm
  · exact hn

instance moves_caught [hm : Moves R m] : Moves R (caught m) := ⟨hm.moves⟩

end Moves

/-! ## What a program depends on -/

/-- From related states the results are the same and the last states are related, unless the run
leaves `W`.  A run that has left does not come back. -/
class Blind (A : σ → σ → Prop) (W : σ → Prop) (m : Interruptible σ α) : Prop where
  blind : ∀ s t, A s t → W (m s).2 → (m t).1 = (m s).1 ∧ A (m s).2 (m t).2
  back : ∀ s, W (m s).2 → W s

section Blind

variable {A : σ → σ → Prop} {W : σ → Prop} {m : Interruptible σ α} {f : α → Interruptible σ β}

instance blind_pure (a : α) : Blind A W (pure a : Interruptible σ α) :=
  ⟨fun _ _ h _ => ⟨rfl, h⟩, fun _ h => h⟩

instance blind_crash : Blind A W (crash : Interruptible σ α) :=
  ⟨fun _ _ h _ => ⟨rfl, h⟩, fun _ h => h⟩

instance blind_bind [hm : Blind A W m] [hf : ∀ a, Blind A W (f a)] : Blind A W (m >>= f) := by
  constructor
  · intro s t hA hW
    have hback := hm.back s
    have hblind := hm.blind s t hA
    rcases hs : m s with ⟨_ | a, s'⟩
    · rw [bind_of_none hs] at hW ⊢
      rw [hs] at hblind
      obtain ⟨hvalue, hlast⟩ := hblind hW
      rw [bind_of_none (show m t = (none, (m t).2) from Prod.ext hvalue rfl)]
      exact ⟨rfl, hlast⟩
    · rw [bind_of_some hs] at hW ⊢
      rw [hs] at hblind
      obtain ⟨hvalue, hlast⟩ := hblind ((hf a).back s' hW)
      rw [bind_of_some (show m t = (some a, (m t).2) from Prod.ext hvalue rfl)]
      exact (hf a).blind s' _ hlast hW
  · intro s hW
    apply hm.back s
    rcases hs : m s with ⟨_ | a, s'⟩
    · rwa [bind_of_none hs] at hW
    · rw [bind_of_some hs] at hW
      exact (hf a).back s' hW

instance blind_ite {c : Prop} [Decidable c] {n : Interruptible σ α} [hm : Blind A W m]
    [hn : Blind A W n] : Blind A W (if c then m else n) := by
  split
  · exact hm
  · exact hn

instance blind_caught [hm : Blind A W m] : Blind A W (caught m) := by
  constructor
  · intro s t hA hW
    obtain ⟨hvalue, hlast⟩ := hm.blind s t hA hW
    exact ⟨congrArg some hvalue, hlast⟩
  · exact hm.back

end Blind

end Interruptible

end Mtproto.Lib
