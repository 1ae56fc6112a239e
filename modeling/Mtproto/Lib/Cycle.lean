import Mathlib.Logic.Function.Iterate
import Mathlib.Data.List.Nodup

/-!
# Going round a list

A system that is stepped again and again shows the entries of a list in their order, from some entry
on and round and round: no entry is skipped, and each comes once in a round.
-/

namespace Mtproto.Lib

variable {σ τ β : Type} {stops : List β} {shown : σ → Option β} {step : σ → σ}

/-- From `s` on the steps show the entries of `stops` in turn. -/
def Cycles (stops : List β) (shown : σ → Option β) (step : σ → σ) (s : σ) : Prop :=
  ∃ start < stops.length, ∀ k, shown (step^[k] s) = stops[(start + k) % stops.length]?

/-- It is enough to know the place in the list after every step. -/
theorem cycles_of_places {place : σ → ℕ → Prop} (here : ∀ s i, place s i → shown s = stops[i]?)
    (next : ∀ s i, place s i → place (step s) ((i + 1) % stops.length)) {s : σ} {start : ℕ}
    (lt : start < stops.length) (first : place s start) : Cycles stops shown step s := by
  have places : ∀ k, place (step^[k] s) ((start + k) % stops.length) := by
    intro k
    induction k with
    | zero => rwa [Nat.add_zero, Nat.mod_eq_of_lt lt]
    | succ k ih =>
      rw [Function.iterate_succ_apply', ← Nat.add_assoc, ← Nat.mod_add_mod]
      exact next _ _ ih
  exact ⟨start, lt, fun k => here _ _ (places k)⟩

/-- Where no entry comes twice, what is shown first says what is shown next. -/
theorem Cycles.next (nodup : stops.Nodup) {s : σ} (cycles : Cycles stops shown step s) {i : ℕ}
    (lt : i < stops.length) (first : shown s = stops[i]?) :
    shown (step s) = stops[(i + 1) % stops.length]? := by
  obtain ⟨start, start_lt, shows⟩ := cycles
  have same : start = i := by
    have shows_first := shows 0
    rw [Nat.add_zero, Nat.mod_eq_of_lt start_lt, Function.iterate_zero_apply, first] at shows_first
    rw [List.getElem?_eq_getElem lt, List.getElem?_eq_getElem start_lt, Option.some_inj]
      at shows_first
    exact ((nodup.getElem_inj_iff).1 shows_first).symm
  rw [← same]
  exact shows 1

/-- Going round is a matter of what is stepped and shown. -/
theorem cycles_congr {shown' : τ → Option β} {step' : τ → τ} {f : τ → σ}
    (steps : Function.Semiconj f step' step)
    (shows : ∀ t, shown (f t) = shown' t) (t : τ) :
    Cycles stops shown step (f t) ↔ Cycles stops shown' step' t := by
  have same : ∀ k, shown (step^[k] (f t)) = shown' (step'^[k] t) := by
    intro k
    rw [← (steps.iterate_right k).eq, shows]
  simp only [Cycles, same]

end Mtproto.Lib
