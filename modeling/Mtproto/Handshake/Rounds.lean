import Mathlib.Algebra.BigOperators.Intervals
import Mathlib.Algebra.Order.Ring.Int
import Mtproto.Handshake.Factorize

/-!
# When the search for a factor shifts too far

The limit of round `i` is `1 << (i + 18)`, so that the rounds cannot go on for ever: the fourteenth
makes no step, and the fifteenth shifts by the width of the type.  Whether it comes to that is said
here of the walk that a round makes from its two random numbers, without the loops: the round takes
the points of the walk in their order and compares each with the one at the last power of two.
-/

namespace Mtproto.Handshake

/-! ## The walk of a round -/

/-- The points that a round comes to. -/
def walk (what t x : ℕ) : ℕ → ℕ
  | 0 => x
  | n + 1 => square what t (walk what t x n)

/-- The point that is remembered after `n` steps: the one at the last power of two. -/
def mark (n : ℕ) : ℕ := if n = 0 then 0 else 2 ^ Nat.log2 n

/-- The divisor that the step after `n` steps finds. -/
def meet (what t x n : ℕ) : ℕ :=
  gcd (difference what (walk what t x (n + 1)) (walk what t x (mark n))) what

/-- A round ends after `n` steps and has found nothing. -/
structure Fruitless (what t x n : ℕ) : Prop where
  pos : 0 < n
  before : ∀ m < n - 1, meet what t x m = 1
  last : meet what t x (n - 1) ≠ 1
  trivial : ¬ (1 < meet what t x (n - 1) ∧ meet what t x (n - 1) < what)

/-- The numbers of a round after `n` steps. -/
structure Rho.After (what t x₀ n : ℕ) (s : Rho) : Prop where
  x : s.x = walk what t x₀ n
  y : s.y = walk what t x₀ (mark n)
  j : s.j = n + 1

section Walk

variable {what t x n m passes : ℕ} {s : Rho}

theorem mark_succ (n : ℕ) : mark (n + 1) = if (n + 1) &&& n = 0 then n + 1 else mark n := by
  have power : (n + 1) &&& n = 0 ↔ (n + 1).isPowerOfTwo :=
    Nat.and_sub_one_eq_zero_iff_isPowerOfTwo (Nat.succ_ne_zero n)
  rw [mark, if_neg (Nat.succ_ne_zero n)]
  split
  · rename_i zero
    obtain ⟨k, eq⟩ := power.1 zero
    rw [eq, Nat.log2_two_pow]
  · rename_i other
    have positive : n ≠ 0 := by
      rintro rfl
      exact other rfl
    have low : 2 ^ Nat.log2 (n + 1) ≤ n + 1 := Nat.log2_self_le (Nat.succ_ne_zero n)
    have high : n + 1 < 2 ^ (Nat.log2 (n + 1) + 1) := Nat.lt_log2_self
    have not_power : n + 1 ≠ 2 ^ Nat.log2 (n + 1) := fun eq => other (power.2 ⟨_, eq⟩)
    have same : Nat.log2 n = Nat.log2 (n + 1) := (Nat.log2_eq_iff positive).2 ⟨by omega, by omega⟩
    rw [mark, if_neg positive, same]

theorem Rho.After.step_g (after : s.After what t x n) : (s.step what t).g = meet what t x n := by
  have value : (s.step what t).g = gcd (difference what (square what t s.x) s.y) what := by
    rw [Rho.step]
    split <;> rfl
  rw [value, after.x, after.y]
  rfl

theorem Rho.After.step (after : s.After what t x n) (one : meet what t x n = 1) :
    (s.step what t).After what t x (n + 1) := by
  have g_one := after.step_g
  rw [one] at g_one
  refine ⟨?_, ?_, ?_⟩
  · rw [Rho.step_x, after.x]
    rfl
  · rw [mark_succ]
    rw [Rho.step] at g_one ⊢
    split
    · rename_i other
      rw [if_pos other] at g_one
      exact absurd g_one other
    · dsimp only
      rw [after.j, Nat.add_sub_cancel]
      split
      · rw [after.x]
        rfl
      · exact after.y
  · rw [Rho.step] at g_one ⊢
    split
    · rename_i other
      rw [if_pos other] at g_one
      exact absurd g_one other
    · dsimp only
      rw [after.j]

/-- The loop stops at the first divisor that is not 1. -/
theorem roundLoop_stops (after : s.After what t x n) (le : n ≤ m) (lt : m < n + passes)
    (before : ∀ k, n ≤ k → k < m → meet what t x k = 1) (stops : meet what t x m ≠ 1) :
    (roundLoop what t passes s).1.g = meet what t x m ∧
      (roundLoop what t passes s).2 = m + 1 - n := by
  induction passes generalizing s n with
  | zero => omega
  | succ passes ih =>
      rw [roundLoop, after.step_g]
      by_cases here : n = m
      · subst here
        rw [if_pos stops]
        refine ⟨after.step_g, ?_⟩
        omega
      · have one := before n (le_refl n) (by omega)
        obtain ⟨g, count⟩ := ih (after.step one) (by omega) (by omega) fun k low high =>
          before k (by omega) high
        rw [if_neg (not_not.2 one)]
        refine ⟨g, ?_⟩
        dsimp only
        omega

/-- Without one it makes all its passes. -/
theorem roundLoop_goes_on (after : s.After what t x n)
    (all : ∀ k, n ≤ k → k < n + passes → meet what t x k = 1) :
    (roundLoop what t passes s).2 = passes := by
  induction passes generalizing s n with
  | zero => rfl
  | succ passes ih =>
      have one := all n (le_refl n) (by omega)
      rw [roundLoop, after.step_g, if_neg (not_not.2 one)]
      dsimp only
      rw [ih (after.step one) fun k low high => all k (by omega) (by omega)]

end Walk

/-! ## Rounds -/

section Rounds

variable {draws : ℕ → ℕ} {what n i it g fuel : ℕ} {lim : ℤ}

theorem startOfRound_after (draws : ℕ → ℕ) (what t i g : ℕ) :
    (startOfRound draws what i g).After what t (drawX draws what i) 0 := ⟨rfl, rfl, rfl⟩

/-- A round with room for a fruitless walk takes it. -/
theorem round_of_fruitless (fruitless : Fruitless what (drawT draws what i) (drawX draws what i) n)
    (room : n ≤ (lim - 1).toNat) (g : ℕ) :
    (round draws what lim i g).2 = n ∧
      ¬ (1 < (round draws what lim i g).1.g ∧ (round draws what lim i g).1.g < what) := by
  have pos := fruitless.pos
  have start := startOfRound_after draws what (drawT draws what i) i g
  obtain ⟨value, count⟩ :=
    roundLoop_stops start (Nat.zero_le (n - 1)) (by omega : n - 1 < 0 + (lim - 1).toNat)
    (fun k _ lt => fruitless.before k lt) fruitless.last
  refine ⟨?_, ?_⟩
  · rw [round]
    exact count.trans (by omega)
  · have same : (round draws what lim i g).1.g = _ := value
    rw [same]
    exact fruitless.trivial

/-- A round that ends early without a factor has taken a fruitless walk. -/
theorem fruitless_of_round (early : (round draws what lim i g).2 < (lim - 1).toNat)
    (nothing : ¬ (1 < (round draws what lim i g).1.g ∧ (round draws what lim i g).1.g < what)) :
    Fruitless what (drawT draws what i) (drawX draws what i) (round draws what lim i g).2 := by
  have start := startOfRound_after draws what (drawT draws what i) i g
  by_cases all : ∀ k, 0 ≤ k → k < 0 + (lim - 1).toNat →
      meet what (drawT draws what i) (drawX draws what i) k = 1
  · have count : (round draws what lim i g).2 = (lim - 1).toNat := roundLoop_goes_on start all
    omega
  · have exists_stop : ∃ k, k < (lim - 1).toNat ∧
        meet what (drawT draws what i) (drawX draws what i) k ≠ 1 := by
      by_contra none
      apply all
      intro k _ lt
      by_contra other
      exact none ⟨k, by omega, other⟩
    classical
    have least := Nat.find_spec exists_stop
    have before : ∀ k, 0 ≤ k → k < Nat.find exists_stop →
        meet what (drawT draws what i) (drawX draws what i) k = 1 := by
      intro k _ lt
      by_contra other
      exact Nat.find_min exists_stop lt ⟨by omega, other⟩
    obtain ⟨value, count⟩ := roundLoop_stops start (Nat.zero_le _)
      (by omega : Nat.find exists_stop < 0 + (lim - 1).toNat) before least.2
    have value : (round draws what lim i g).1.g = _ := value
    have count : (round draws what lim i g).2 = Nat.find exists_stop + 1 - 0 := count
    rw [value] at nothing
    rw [count]
    exact ⟨by omega, fun m lt => before m (by omega) (by omega), least.2, nothing⟩

/-! ## The whole search -/

/-- What the search may come to. -/
def Factorization.IsAnswer (out : Factorization) : Prop := out = .failed ∨ ∃ p q, out = .found p q

theorem finish_isAnswer (what g : ℕ) : (finish what g).IsAnswer := by
  rw [finish]
  split
  · dsimp only
    split
    · exact .inr ⟨_, _, rfl⟩
    · exact .inr ⟨_, _, rfl⟩
  · exact .inl rfl

theorem finish_ne (what g : ℕ) {out : Factorization} (other : ¬ out.IsAnswer) :
    finish what g ≠ out := by
  rintro rfl
  exact other (finish_isAnswer what g)

theorem not_isAnswer_shift :
    ¬ Factorization.shiftByWidth.IsAnswer := by simp [Factorization.IsAnswer]

theorem not_isAnswer_remainder :
    ¬ Factorization.remainderByZero.IsAnswer := by simp [Factorization.IsAnswer]

theorem not_isAnswer_unfinished :
    ¬ Factorization.unfinished.IsAnswer := by simp [Factorization.IsAnswer]

/-- One pass of the loop over `i`, where there is a limit. -/
theorem rounds_succ (two : 2 ≤ what) (limit : shiftOne (i + 18) = some lim) :
    rounds shiftOne draws what (fuel + 1) i it g =
      if i < 3 ∨ it < 1000 then
        if 1 < (round draws what lim i g).1.g ∧ (round draws what lim i g).1.g < what then
          finish what (round draws what lim i g).1.g
        else rounds shiftOne draws what fuel (i + 1) (it + (round draws what lim i g).2)
          (round draws what lim i g).1.g
      else finish what g := by
  have none_zero : ¬ (what = 0 ∨ what - 1 = 0) := by omega
  rw [rounds, if_neg none_zero, limit]

theorem shiftOne_of_lt {k : ℕ} (lt : k < 31) : shiftOne k = some (2 ^ k) := if_pos lt

/-- The walks of the rounds from `i` to 12 are fruitless, and with `it` their steps are fewer than a
thousand. -/
def FruitlessFrom (draws : ℕ → ℕ) (what i it : ℕ) : Prop :=
  ∃ n : ℕ → ℕ,
    (∀ k, i ≤ k → k < 13 → Fruitless what (drawT draws what k) (drawX draws what k) (n k)) ∧
    it + ∑ k ∈ Finset.Ico i 13, n k < 1000

theorem fruitlessFrom_succ (lt : i < 13) : FruitlessFrom draws what i it ↔
    ∃ n, Fruitless what (drawT draws what i) (drawX draws what i) n ∧
      FruitlessFrom draws what (i + 1) (it + n) := by
  refine ⟨?_, ?_⟩
  · rintro ⟨n, fruitless, few⟩
    rw [Finset.sum_eq_sum_Ico_succ_bot lt] at few
    exact ⟨n i, fruitless i (le_refl i) lt, n, fun k le => fruitless k (by omega), by omega⟩
  · rintro ⟨m, first, n, later, few⟩
    refine ⟨Function.update n i m, ?_, ?_⟩
    · intro k le lt
      by_cases same : k = i
      · rw [same, Function.update_self]
        exact first
      · rw [Function.update_of_ne same]
        exact later k (by omega) lt
    · rw [Finset.sum_eq_sum_Ico_succ_bot lt, Function.update_self]
      have rest : ∑ k ∈ Finset.Ico (i + 1) 13, Function.update n i m k =
          ∑ k ∈ Finset.Ico (i + 1) 13, n k := by
        apply Finset.sum_congr rfl
        intro k mem
        rw [Function.update_of_ne]
        have := (Finset.mem_Ico.1 mem).1
        omega
      omega

theorem FruitlessFrom.few (h : FruitlessFrom draws what i it) : it < 1000 := by
  obtain ⟨n, -, few⟩ := h
  omega

/-- The round that has a negative limit makes no step, and the next one shifts too far. -/
theorem rounds_thirteen (two : 2 ≤ what) (nothing : ¬ (1 < g ∧ g < what)) :
    rounds shiftOne draws what (fuel + 2) 13 it g = .shiftByWidth ↔ it < 1000 := by
  have limit : shiftOne (13 + 18) = some (-2 ^ 31) := rfl
  have steps : round draws what (-2 ^ 31) 13 g = (startOfRound draws what 13 g, 0) := rfl
  have g_same : (startOfRound draws what 13 g).g = g := rfl
  have none_zero : ¬ (what = 0 ∨ what - 1 = 0) := by omega
  have past : shiftOne (13 + 1 + 18) = none := rfl
  rw [rounds_succ two limit, steps]
  dsimp only
  rw [g_same, if_neg nothing, Nat.add_zero]
  by_cases few : it < 1000
  · rw [if_pos (.inr few), rounds, if_pos (.inr few), if_neg none_zero, past]
    exact iff_of_true rfl few
  · have stop : ¬ (13 < 3 ∨ it < 1000) := by omega
    rw [if_neg stop]
    exact iff_of_false (finish_ne what g not_isAnswer_shift) few

/-- From round `i` on the search shifts too far when the walks up to round 12 are fruitless. -/
theorem rounds_shifts_iff (two : 2 ≤ what) (nothing : ¬ (1 < g ∧ g < what)) {left : ℕ}
    (at_i : i + left = 13) :
    rounds shiftOne draws what (left + 2) i it g = .shiftByWidth ↔
      FruitlessFrom draws what i it := by
  induction left generalizing i it g with
  | zero =>
      obtain rfl : i = 13 := at_i
      rw [rounds_thirteen two nothing]
      refine ⟨?_, FruitlessFrom.few⟩
      exact fun few => ⟨fun _ => 0, fun k low high => absurd high (by omega), by simpa using few⟩
  | succ left ih =>
      have limit : shiftOne (i + 18) = some (2 ^ (i + 18)) := shiftOne_of_lt (by omega)
      have room : 1000 ≤ ((2 : ℤ) ^ (i + 18) - 1).toNat := by
        have low : (2 : ℤ) ^ 18 ≤ 2 ^ (i + 18) := pow_le_pow_right₀ (by decide) (by omega)
        omega
      rw [fruitlessFrom_succ (by omega), rounds_succ two limit]
      refine ⟨?_, ?_⟩
      · intro result
        split at result
        · split at result
          · exact absurd result (finish_ne what _ not_isAnswer_shift)
          · rename_i none
            have later := (ih none (by omega)).1 result
            have few := later.few
            exact ⟨_, fruitless_of_round (by omega) none, later⟩
        · exact absurd result (finish_ne what g not_isAnswer_shift)
      · rintro ⟨n, fruitless, later⟩
        have few := later.few
        obtain ⟨count, none⟩ :=
          round_of_fruitless fruitless (by omega : n ≤ ((2 : ℤ) ^ (i + 18) - 1).toNat) g
        rw [if_pos (.inr (by omega)), if_neg none, count]
        exact (ih none (by omega)).2 later

theorem rounds_ne_remainder (two : 2 ≤ what) :
    rounds shiftOne draws what fuel i it g ≠ .remainderByZero := by
  have none_zero : ¬ (what = 0 ∨ what - 1 = 0) := by omega
  have finished : ∀ g, finish what g ≠ .remainderByZero :=
    fun g => finish_ne what g not_isAnswer_remainder
  induction fuel generalizing i it g with
  | zero =>
      intro result
      cases result
  | succ fuel ih =>
      rw [rounds, if_neg none_zero]
      split
      · split
        · decide
        · dsimp only
          split
          · exact finished _
          · exact ih
      · exact finished g

/-- Fifteen rounds are all that there can be. -/
theorem rounds_finished {left : ℕ} (at_i : i + left = 14) :
    rounds shiftOne draws what (left + 1) i it g ≠ .unfinished := by
  have finished : ∀ g, finish what g ≠ .unfinished :=
    fun g => finish_ne what g not_isAnswer_unfinished
  induction left generalizing i it g with
  | zero =>
      obtain rfl : i = 14 := at_i
      have past : shiftOne (14 + 18) = none := rfl
      rw [rounds, past]
      split
      · split
        · decide
        · intro result
          cases result
      · exact finished g
  | succ left ih =>
      rw [rounds]
      split
      · split
        · decide
        · split
          · decide
          · dsimp only
            split
            · exact finished _
            · exact ih (by omega)
      · exact finished g

/-- The search comes to an answer unless `what` is 0 or 1, or its walks are fruitless. -/
theorem factorizeValue_isAnswer_iff (draws : ℕ → ℕ) (what : ℕ) :
    (factorizeValue shiftOne draws what 15).IsAnswer ↔
      2 ≤ what ∧ ¬ FruitlessFrom draws what 0 0 := by
  by_cases two : 2 ≤ what
  · have nothing : ¬ (1 < 0 ∧ 0 < what) := by omega
    have shifts : factorizeValue shiftOne draws what 15 = .shiftByWidth ↔
        FruitlessFrom draws what 0 0 :=
      rounds_shifts_iff two nothing (rfl : 0 + 13 = 13)
    have remainder : factorizeValue shiftOne draws what 15 ≠ .remainderByZero :=
      rounds_ne_remainder two
    have finished : factorizeValue shiftOne draws what 15 ≠ .unfinished :=
      rounds_finished (rfl : 0 + 14 = 14)
    rw [← shifts]
    cases out : factorizeValue shiftOne draws what 15 with
    | found p q => exact iff_of_true (.inr ⟨p, q, rfl⟩) ⟨two, nofun⟩
    | failed => exact iff_of_true (.inl rfl) ⟨two, nofun⟩
    | remainderByZero => exact absurd out remainder
    | shiftByWidth => exact iff_of_false not_isAnswer_shift fun h => h.2 rfl
    | unfinished => exact absurd out finished
  · have zero : what = 0 ∨ what - 1 = 0 := by omega
    have remainder : factorizeValue shiftOne draws what 15 = .remainderByZero := by
      rw [factorizeValue, rounds, if_pos (.inl (by decide)), if_pos zero]
    rw [remainder]
    exact iff_of_false not_isAnswer_remainder fun h => two h.1

end Rounds

end Mtproto.Handshake
