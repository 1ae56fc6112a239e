import Mathlib.Data.Nat.Init

/-!
# While programs

Programs over one state with loops that need not end.  A program is given a number of rounds that
none of its loops goes beyond, and it has no result when one of them would have to.  `Ends c s t`
says that with enough rounds the program leads from `s` to `t`, and `Total P c Q` is total
correctness: from every state with `P` the program ends, and it ends with `Q`.  The rule of the loop
asks for an invariant and for a measure that every round makes smaller.
-/

namespace Mtproto.Lib.While

/-- A program over the states `σ`, with a bound on the rounds of each loop. -/
def Code (σ : Type) := ℕ → σ → Option σ

section Programs

variable {σ τ : Type}

/-- Rewrites the state. -/
def assign (f : σ → σ) : Code σ := fun _ s => some (f s)

/-- One program after the other. -/
def seq (c d : Code σ) : Code σ := fun n s => (c n s).bind (d n)

/-- `if (p) c else d`. -/
def cond (p : σ → Prop) [DecidablePred p] (c d : Code σ) : Code σ := fun n s =>
  if p s then c n s else d n s

/-- A program on a part of the state. -/
def zoom (get : σ → τ) (put : σ → τ → σ) (c : Code τ) : Code σ :=
  fun n s => (c n (get s)).map (put s)

/-- At most so many rounds of a loop. -/
def rounds (p : σ → Prop) [DecidablePred p] (body : σ → Option σ) : ℕ → σ → Option σ
  | 0, s => if p s then none else some s
  | k + 1, s => if p s then (body s).bind (rounds p body k) else some s

/-- `while (p) c`. -/
def loop (p : σ → Prop) [DecidablePred p] (c : Code σ) : Code σ := fun n => rounds p (c n) n

/-- A loop that is not entered. -/
theorem rounds_of_not {p : σ → Prop} [DecidablePred p] {s : σ} (body : σ → Option σ) (k : ℕ)
    (h : ¬ p s) :
    rounds p body k s = some s := by
  cases k <;> rw [rounds, if_neg h]

theorem loop_of_not {p : σ → Prop} [DecidablePred p] {s : σ} (c : Code σ) (n : ℕ) (h : ¬ p s) :
    loop p c n s = some s :=
  rounds_of_not (c n) n h

end Programs

/-! ## More rounds -/

section Stable

variable {σ τ : Type} {c d : Code σ} {p : σ → Prop} [DecidablePred p]

/-- A result stays when there are more rounds. -/
def Stable (c : Code σ) : Prop := ∀ n m s t, n ≤ m → c n s = some t → c m s = some t

theorem stable_assign (f : σ → σ) : Stable (assign f) := fun _ _ _ _ _ run => run

theorem Stable.seq (hc : Stable c) (hd : Stable d) : Stable (seq c d) := by
  intro n m s u le run
  obtain ⟨t, first, second⟩ := Option.bind_eq_some_iff.1 run
  exact Option.bind_eq_some_iff.2 ⟨t, hc n m s t le first, hd n m t u le second⟩

theorem Stable.cond (hc : Stable c) (hd : Stable d) : Stable (cond p c d) := by
  intro n m s t le run
  unfold While.cond at run ⊢
  split at run
  · rw [if_pos ‹_›]
    exact hc n m s t le run
  · rw [if_neg ‹_›]
    exact hd n m s t le run

theorem Stable.zoom {c : Code τ} (hc : Stable c) (get : σ → τ) (put : σ → τ → σ) :
    Stable (zoom get put c) := by
  intro n m s t le run
  obtain ⟨x, inner, rfl⟩ := Option.map_eq_some_iff.1 run
  exact Option.map_eq_some_iff.2 ⟨x, hc n m (get s) x le inner, rfl⟩

theorem rounds_stable {body body' : σ → Option σ} (more : ∀ s t, body s = some t → body' s = some t)
    {k l : ℕ} {s t : σ} (le : k ≤ l) (run : rounds p body k s = some t) :
    rounds p body' l s = some t := by
  induction k generalizing l s with
  | zero =>
      rw [rounds] at run
      split at run
      · cases run
      · cases l <;> rw [rounds, if_neg ‹_›, run]
  | succ k ih =>
      obtain ⟨l, rfl⟩ : ∃ l', l = l' + 1 := ⟨l - 1, by omega⟩
      rw [rounds] at run ⊢
      split at run
      · obtain ⟨u, first, rest⟩ := Option.bind_eq_some_iff.1 run
        rw [if_pos ‹_›]
        exact Option.bind_eq_some_iff.2 ⟨u, more s u first, ih (by omega) rest⟩
      · rw [if_neg ‹_›, run]

theorem Stable.loop (hc : Stable c) : Stable (loop p c) := by
  intro n m s t le run
  exact rounds_stable (fun s t => hc n m s t le) le run

end Stable

/-! ## Total correctness -/

/-- With enough rounds the program leads from `s` to `t`. -/
def Ends {σ : Type} (c : Code σ) (s t : σ) : Prop := ∃ N, ∀ n, N ≤ n → c n s = some t

/-- From every state with `P` the program ends, and it ends with `Q`. -/
def Total {σ : Type} (P : σ → Prop) (c : Code σ) (Q : σ → Prop) : Prop :=
  ∀ s, P s → ∃ t, Ends c s t ∧ Q t

section Total

variable {σ τ : Type} {P P' Q Q' R : σ → Prop} {c d : Code σ} {p : σ → Prop} [DecidablePred p]

/-- A result is the one that the program ends with. -/
theorem Ends.eq_of_some {s t u : σ} {n : ℕ} (ends : Ends c s t) (stable : Stable c)
    (run : c n s = some u) :
    u = t := by
  obtain ⟨N, enough⟩ := ends
  have later := stable n (max N n) s u (Nat.le_max_right _ _) run
  rw [enough _ (Nat.le_max_left _ _)] at later
  exact (Option.some.inj later).symm

theorem Total.weaken (h : Total P c Q) (hP : ∀ s, P' s → P s) (hQ : ∀ t, Q t → Q' t) :
    Total P' c Q' := by
  intro s hs
  obtain ⟨t, ends, ht⟩ := h s (hP s hs)
  exact ⟨t, ends, hQ t ht⟩

theorem total_assign {f : σ → σ} (h : ∀ s, P s → Q (f s)) : Total P (assign f) Q :=
  fun s hs => ⟨f s, ⟨0, fun _ _ => rfl⟩, h s hs⟩

theorem Total.seq (hc : Total P c Q) (hd : Total Q d R) : Total P (seq c d) R := by
  intro s hs
  obtain ⟨t, ⟨N, first⟩, ht⟩ := hc s hs
  obtain ⟨u, ⟨M, second⟩, hu⟩ := hd t ht
  refine ⟨u, ⟨max N M, ?_⟩, hu⟩
  intro n hn
  rw [While.seq, first n (by omega), Option.bind_some, second n (by omega)]

theorem Total.cond (hc : Total (fun s => P s ∧ p s) c Q) (hd : Total (fun s => P s ∧ ¬ p s) d Q) :
    Total P (cond p c d) Q := by
  intro s hs
  by_cases h : p s
  · obtain ⟨t, ⟨N, run⟩, ht⟩ := hc s ⟨hs, h⟩
    exact ⟨t, ⟨N, fun n hn => by rw [While.cond, if_pos h, run n hn]⟩, ht⟩
  · obtain ⟨t, ⟨N, run⟩, ht⟩ := hd s ⟨hs, h⟩
    exact ⟨t, ⟨N, fun n hn => by rw [While.cond, if_neg h, run n hn]⟩, ht⟩

theorem total_zoom {get : σ → τ} {put : σ → τ → σ} {c : Code τ}
    (h : ∀ s, P s → Total (· = get s) c fun x => Q (put s x)) : Total P (zoom get put c) Q := by
  intro s hs
  obtain ⟨x, ⟨N, run⟩, hx⟩ := h s hs (get s) rfl
  exact ⟨put s x, ⟨N, fun n hn => by rw [While.zoom, run n hn, Option.map_some]⟩, hx⟩

/-- Every round keeps the invariant and makes the measure smaller, so that there is a last one. -/
theorem Total.loop {I : σ → Prop} (measure : σ → ℕ)
    (body : ∀ k, Total (fun s => I s ∧ p s ∧ measure s = k) c fun t => I t ∧ measure t < k) :
    Total I (loop p c) fun t => I t ∧ ¬ p t := by
  have ends : ∀ s, I s →
      ∃ t, (∃ N, ∀ n, N ≤ n → ∀ k, N ≤ k → rounds p (c n) k s = some t) ∧ I t ∧ ¬ p t := by
    intro s
    induction hm : measure s using Nat.strong_induction_on generalizing s with
    | h m ih =>
      intro hs
      by_cases h : p s
      · obtain ⟨t, ⟨N, first⟩, ht, smaller⟩ := body m s ⟨hs, h, hm⟩
        obtain ⟨u, ⟨M, rest⟩, hu⟩ := ih (measure t) smaller t rfl ht
        refine ⟨u, ⟨max N M + 1, ?_⟩, hu⟩
        intro n hn k hk
        obtain ⟨k, rfl⟩ : ∃ l, k = l + 1 := ⟨k - 1, by omega⟩
        rw [rounds, if_pos h, first n (by omega), Option.bind_some, rest n (by omega) k (by omega)]
      · exact ⟨s, ⟨0, fun n _ k _ => rounds_of_not (c n) k h⟩, hs, h⟩
  intro s hs
  obtain ⟨t, ⟨N, run⟩, ht⟩ := ends s hs
  exact ⟨t, ⟨N, fun n hn => run n hn n hn⟩, ht⟩

end Total

end Mtproto.Lib.While
