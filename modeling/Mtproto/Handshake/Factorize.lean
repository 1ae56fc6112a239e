import Mathlib.Data.Nat.ModEq
import Mathlib.Data.Nat.GCD.Basic
import Mathlib.Tactic.Ring

/-!
# Factoring `pq`

`factorizeValue` looks for a factor of the 64-bit number that a server sends: rounds of Pollard's
method with a square modulo the number by shifts and additions, and a binary gcd.  The random
numbers are a parameter (`draws`), and so is the value of `1 << k` as an `int32_t` (`shl`), which
has none for a shift by the width of the type.

Numbers are natural numbers, and the sums that the code makes in 64 bits are cut to 64 bits.  The
two inner functions are shown to be what they are meant for, the square modulo the number
(`squareLoop_eq`) and the greatest common divisor (`gcd_eq`), and one step of a round keeps its
numbers below the factored one.
-/

namespace Mtproto.Handshake

/-! ## The greatest common divisor -/

/-- `while ((b & 1) == 0) b >>= 1`; a number of 64 bits has no more than 64 steps. -/
def dropTwos : ℕ → ℕ → ℕ
  | 0, b => b
  | n + 1, b => if b % 2 = 0 then dropTwos n (b / 2) else b

/-- The loop of `gcd`, with a bound on the number of its passes. -/
def gcdLoop : ℕ → ℕ → ℕ → ℕ
  | 0, a, b => if b = 0 then a else b
  | n + 1, a, b =>
      if a ≠ 0 ∧ b ≠ 0 then
        let b := dropTwos 64 b
        let a := dropTwos 64 a
        if a > b then gcdLoop n (a - b) b else gcdLoop n a (b - a)
      else if b = 0 then a else b

/-- `gcd`: every pass makes the sum of the two numbers smaller. -/
def gcd (a b : ℕ) : ℕ := gcdLoop (a + b) a b

section Gcd

variable {n a b m : ℕ}

theorem dropTwos_le (n b : ℕ) : dropTwos n b ≤ b := by
  induction n generalizing b with
  | zero => exact le_refl b
  | succ n ih =>
      rw [dropTwos]
      split
      · exact (ih (b / 2)).trans (Nat.div_le_self b 2)
      · exact le_refl b

theorem dropTwos_odd (pos : 0 < b) (lt : b < 2 ^ n) : dropTwos n b % 2 = 1 := by
  induction n generalizing b with
  | zero => simp at lt; omega
  | succ n ih =>
      rw [dropTwos]
      split
      · apply ih
        · omega
        · rw [Nat.pow_succ] at lt
          omega
      · omega

/-- Factors of two do not matter beside an odd number. -/
theorem gcd_dropTwos (odd : m % 2 = 1) (n b : ℕ) : Nat.gcd (dropTwos n b) m = Nat.gcd b m := by
  induction n generalizing b with
  | zero => rfl
  | succ n ih =>
      rw [dropTwos]
      split
      · rename_i even
        have two : b = 2 * (b / 2) := by omega
        have coprime : Nat.Coprime 2 m := by
          apply Nat.coprime_iff_gcd_eq_one.2
          rw [Nat.gcd_rec, odd, Nat.gcd_one_left]
        rw [ih]
        conv_rhs => rw [two, coprime.gcd_mul_left_cancel]
      · rfl

theorem dropTwos_of_odd (odd : b % 2 = 1) (n : ℕ) : dropTwos n b = b := by
  cases n with
  | zero => rfl
  | succ n => rw [dropTwos, if_neg (by omega)]

theorem gcdLoop_eq (bound : a + b ≤ n) (odd : a % 2 = 1 ∨ b % 2 = 1) (ha : a < 2 ^ 64)
    (hb : b < 2 ^ 64) :
    gcdLoop n a b = Nat.gcd a b := by
  induction n generalizing a b with
  | zero => omega
  | succ n ih =>
      rw [gcdLoop]
      split
      · rename_i both
        have odd_a := dropTwos_odd (Nat.pos_of_ne_zero both.1) ha
        have odd_b := dropTwos_odd (Nat.pos_of_ne_zero both.2) hb
        have le_a := dropTwos_le 64 a
        have le_b := dropTwos_le 64 b
        have same : Nat.gcd (dropTwos 64 a) (dropTwos 64 b) = Nat.gcd a b := by
          rcases odd with odd | odd
          · rw [dropTwos_of_odd odd, Nat.gcd_comm, gcd_dropTwos odd, Nat.gcd_comm]
          · rw [dropTwos_of_odd odd, gcd_dropTwos odd]
        rw [← same]
        generalize dropTwos 64 a = a' at *
        generalize dropTwos 64 b = b' at *
        dsimp only
        split
        · rw [ih (by omega) (by omega) (by omega) (by omega), Nat.gcd_sub_self_left (by omega)]
        · rw [ih (by omega) (by omega) (by omega) (by omega), Nat.gcd_sub_self_right (by omega)]
      · split
        · rename_i zero
          rw [zero, Nat.gcd_zero_right]
        · have zero : a = 0 := by omega
          rw [zero, Nat.gcd_zero_left]

/-- For an odd second number `gcd` is the greatest common divisor. -/
theorem gcd_eq (odd : b % 2 = 1) (ha : a < 2 ^ 64) (hb : b < 2 ^ 64) : gcd a b = Nat.gcd a b :=
  gcdLoop_eq (le_refl _) (.inr odd) ha hb

end Gcd

/-! ## The square -/

/-- A sum in 64 bits, less `what` once if it reaches it. -/
def addReduced (what c a : ℕ) : ℕ :=
  let sum := (c + a) % 2 ^ 64
  if sum ≥ what then sum - what else sum

/-- The loop over the bits of `b`; 64 of them are enough. -/
def squareLoop (what : ℕ) : ℕ → ℕ → ℕ → ℕ → ℕ
  | 0, _, _, c => c
  | n + 1, a, b, c =>
      if b = 0 then c
      else
        squareLoop what n (addReduced what a a) (b / 2)
          (if b % 2 = 1 then addReduced what c a else c)

/-- The new `x` of a step. -/
def square (what t x : ℕ) : ℕ := squareLoop what 64 x x t

/-- The sums that the loop makes before they are cut to 64 bits. -/
def squareSums (what : ℕ) : ℕ → ℕ → ℕ → ℕ → List ℕ
  | 0, _, _, _ => []
  | n + 1, a, b, c =>
      if b = 0 then []
      else
        (if b % 2 = 1 then [c + a] else []) ++ [a + a] ++
          squareSums what n (addReduced what a a) (b / 2)
            (if b % 2 = 1 then addReduced what c a else c)

section Square

variable {what a b c : ℕ}

theorem addReduced_eq (bound : what < 2 ^ 63) (ha : a < what) (hc : c < what) :
    addReduced what c a = (c + a) % what := by
  have exact_sum : (c + a) % 2 ^ 64 = c + a := Nat.mod_eq_of_lt (by omega)
  rw [addReduced, exact_sum]
  split
  · rename_i reached
    rw [Nat.mod_eq_sub_mod reached, Nat.mod_eq_of_lt (by omega)]
  · rw [Nat.mod_eq_of_lt (by omega)]

theorem addReduced_lt (bound : what < 2 ^ 63) (ha : a < what) (hc : c < what) :
    addReduced what c a < what := by
  rw [addReduced_eq bound ha hc]
  exact Nat.mod_lt _ (by omega)

/-- The summand of one bit. -/
theorem bit_lt (bound : what < 2 ^ 63) (ha : a < what) (hc : c < what) (b : ℕ) :
    (if b % 2 = 1 then addReduced what c a else c) < what := by
  split
  · exact addReduced_lt bound ha hc
  · exact hc

theorem bit_modEq (bound : what < 2 ^ 63) (ha : a < what) (hc : c < what) (b : ℕ) :
    (if b % 2 = 1 then addReduced what c a else c) ≡ c + a * (b % 2) [MOD what] := by
  split
  · rename_i odd
    rw [addReduced_eq bound ha hc, odd, Nat.mul_one]
    exact Nat.mod_modEq _ _
  · have even : b % 2 = 0 := by omega
    rw [even, Nat.mul_zero, Nat.add_zero]

/-- What is left of `b` times the doubled `a`, on top of `c`, stays the same modulo `what`. -/
theorem squareLoop_eq (bound : what < 2 ^ 63) (ha : a < what) (hc : c < what) {n : ℕ}
    (hb : b < 2 ^ n) :
    squareLoop what n a b c = (c + a * b) % what := by
  induction n generalizing a b c with
  | zero =>
      have zero : b = 0 := by simpa using hb
      rw [squareLoop, zero, Nat.mul_zero, Nat.add_zero, Nat.mod_eq_of_lt hc]
  | succ n ih =>
      rw [squareLoop]
      by_cases zero : b = 0
      · rw [if_pos zero, zero, Nat.mul_zero, Nat.add_zero, Nat.mod_eq_of_lt hc]
      · have half : b / 2 < 2 ^ n := by
          rw [Nat.pow_succ] at hb
          omega
        rw [if_neg zero, ih (addReduced_lt bound ha ha) (bit_lt bound ha hc b) half]
        have double : addReduced what a a ≡ a + a [MOD what] := by
          rw [addReduced_eq bound ha ha]
          exact Nat.mod_modEq _ _
        have sum := (bit_modEq bound ha hc b).add (double.mul_right (b / 2))
        have bits : c + a * (b % 2) + (a + a) * (b / 2) = c + a * b := by
          have split : b = b % 2 + 2 * (b / 2) := by omega
          conv_rhs => rw [split]
          ring
        rw [bits] at sum
        exact sum

/-- No sum of the loop needs more than 64 bits. -/
theorem squareSums_lt (bound : what < 2 ^ 63) (ha : a < what) (hc : c < what) (n : ℕ) :
    ∀ sum ∈ squareSums what n a b c, sum < 2 ^ 64 := by
  induction n generalizing a b c with
  | zero => simp [squareSums]
  | succ n ih =>
      intro sum mem
      rw [squareSums] at mem
      split at mem
      · simp at mem
      · rcases List.mem_append.1 mem with mem | mem
        · rcases List.mem_append.1 mem with mem | mem
          · split at mem
            · rw [List.mem_singleton] at mem
              omega
            · simp at mem
          · rw [List.mem_singleton] at mem
            omega
        · exact ih (addReduced_lt bound ha ha) (bit_lt bound ha hc b) sum mem

end Square

/-! ## Rounds -/

/-- The numbers of a round. -/
structure Rho where
  x : ℕ
  y : ℕ
  g : ℕ
  j : ℕ
deriving DecidableEq, Repr

/-- `x - y` modulo `what`, in 64 bits. -/
def difference (what x y : ℕ) : ℕ := if x < y then (what + x + (2 ^ 64 - y)) % 2 ^ 64 else x - y

/-- One pass of the loop over `j`; it ends the round where `g` is not 1. -/
def Rho.step (what t : ℕ) (s : Rho) : Rho :=
  let x := square what t s.x
  let g := gcd (difference what x s.y) what
  if g ≠ 1 then { s with x, g }
  else { x, g, y := if s.j &&& (s.j - 1) = 0 then x else s.y, j := s.j + 1 }

/-- The loop over `j` with so many passes left, and how many it makes. -/
def roundLoop (what t : ℕ) : ℕ → Rho → Rho × ℕ
  | 0, s => (s, 0)
  | n + 1, s =>
      let next := s.step what t
      if next.g ≠ 1 then (next, 1)
      else ((roundLoop what t n next).1, (roundLoop what t n next).2 + 1)

/-- What comes of the search; `unfinished` only says that the model was not given enough rounds. -/
inductive Factorization
  | found (p q : ℕ)
  | failed
  | remainderByZero
  | shiftByWidth
  | unfinished
deriving DecidableEq, Repr

/-- What `factorizeValue` makes of the last `g`; the factors are cast to 32 bits. -/
def finish (what g : ℕ) : Factorization :=
  if 1 < g ∧ g < what then
    let p := g % 2 ^ 32
    let q := what / g % 2 ^ 32
    if p > q then .found q p else .found p q
  else .failed

/-- `1 << k` as an `int32_t`: the bit of the sign makes it negative, and beyond it there is no
value. -/
def shiftOne (k : ℕ) : Option ℤ :=
  if k < 31 then some (2 ^ k) else if k = 31 then some (-2 ^ 31) else none

section Rounds

variable (shl : ℕ → Option ℤ) (draws : ℕ → ℕ) (what : ℕ)

/-- `t` of round `i`, from the first of its two random numbers. -/
def drawT (i : ℕ) : ℕ := ((draws (2 * i) &&& 15) + 17) % what

/-- `x` of round `i`, from the second. -/
def drawX (i : ℕ) : ℕ := draws (2 * i + 1) % (what - 1) + 1

/-- Round `i` with the limit of its loop, and the `g` of the round before. -/
def round (lim : ℤ) (i g : ℕ) : Rho × ℕ :=
  roundLoop what (drawT draws what i) (lim - 1).toNat ⟨drawX draws what i, drawX draws what i, g, 1⟩

/-- The loop over `i`, with a bound on the rounds. -/
def rounds : ℕ → ℕ → ℕ → ℕ → Factorization
  | 0, _, _, _ => .unfinished
  | n + 1, i, it, g =>
      if i < 3 ∨ it < 1000 then
        if what = 0 ∨ what - 1 = 0 then .remainderByZero
        else match shl (i + 18) with
          | none => .shiftByWidth
          | some lim =>
              let last := round draws what lim i g
              if 1 < last.1.g ∧ last.1.g < what then finish what last.1.g
              else rounds n (i + 1) (it + last.2) last.1.g
      else finish what g

/-- `factorizeValue`. -/
def factorizeValue (fuel : ℕ) : Factorization := rounds shl draws what fuel 0 0 0

end Rounds

/-! ## Steps stay below `what` -/

section Steps

variable {what t : ℕ} {s : Rho}

/-- The numbers of a round are residues. -/
def Rho.Reduced (what : ℕ) (s : Rho) : Prop := s.x < what ∧ s.y < what

theorem square_eq (bound : what < 2 ^ 63) (ht : t < what) {x : ℕ} (hx : x < what) :
    square what t x = (x * x + t) % what := by
  rw [square, squareLoop_eq bound hx ht (by omega), Nat.add_comm]

theorem difference_lt (bound : what < 2 ^ 63) {x y : ℕ} (hx : x < what) (hy : y < what) :
    difference what x y < what := by
  rw [difference]
  split
  · have wrapped : what + x + (2 ^ 64 - y) = what + x - y + 2 ^ 64 := by omega
    rw [wrapped, Nat.add_mod_right, Nat.mod_eq_of_lt (by omega)]
    omega
  · omega

theorem Rho.step_x (what t : ℕ) (s : Rho) : (s.step what t).x = square what t s.x := by
  rw [Rho.step]
  split <;> rfl

theorem Rho.step_y (what t : ℕ) (s : Rho) :
    (s.step what t).y = s.y ∨ (s.step what t).y = square what t s.x := by
  rw [Rho.step]
  split
  · exact .inl rfl
  · split
    · exact .inr rfl
    · exact .inl rfl

theorem Rho.Reduced.step (bound : what < 2 ^ 63) (ht : t < what) (reduced : s.Reduced what) :
    (s.step what t).Reduced what := by
  have next : square what t s.x < what := by
    rw [square_eq bound ht reduced.1]
    exact Nat.mod_lt _ (by omega)
  refine ⟨?_, ?_⟩
  · rw [Rho.step_x]
    exact next
  · rcases Rho.step_y what t s with same | new
    · rw [same]
      exact reduced.2
    · rw [new]
      exact next

/-- The `g` of a step divides `what`. -/
theorem Rho.step_g_dvd (odd : what % 2 = 1) (bound : what < 2 ^ 63) (ht : t < what)
    (reduced : s.Reduced what) : (s.step what t).g ∣ what := by
  have next := (reduced.step bound ht).1
  rw [Rho.step_x] at next
  have small := difference_lt bound next reduced.2
  have value : (s.step what t).g = gcd (difference what (square what t s.x) s.y) what := by
    rw [Rho.step]
    split <;> rfl
  rw [value, gcd_eq odd (by omega) (by omega)]
  exact Nat.gcd_dvd_right _ _

/-- All the steps of a round are steps from residues. -/
theorem Rho.Reduced.iterate (bound : what < 2 ^ 63) (ht : t < what) (reduced : s.Reduced what)
    (n : ℕ) :
    ((Rho.step what t)^[n] s).Reduced what := by
  induction n with
  | zero => exact reduced
  | succ n ih =>
      rw [Function.iterate_succ_apply']
      exact ih.step bound ht

/-- The loop makes the steps that it counts. -/
theorem roundLoop_iterate (what t n : ℕ) (s : Rho) :
    (roundLoop what t n s).1 = (Rho.step what t)^[(roundLoop what t n s).2] s := by
  induction n generalizing s with
  | zero => rfl
  | succ n ih =>
      rw [roundLoop]
      split
      · rfl
      · rw [Function.iterate_succ_apply]
        exact ih _

/-- A round ends with a `g` that divides `what`, or with the one it started with. -/
theorem roundLoop_g (odd : what % 2 = 1) (bound : what < 2 ^ 63) (ht : t < what) (n : ℕ)
    (reduced : s.Reduced what) :
    (roundLoop what t n s).1.g ∣ what ∨ (roundLoop what t n s).1.g = s.g := by
  induction n generalizing s with
  | zero => exact .inr rfl
  | succ n ih =>
      have divides := Rho.step_g_dvd odd bound ht reduced
      rw [roundLoop]
      split
      · exact .inl divides
      · rcases ih (reduced.step bound ht) with later | same
        · exact .inl later
        · rw [same]
          exact .inl divides

end Steps

/-! ## The factors -/

section Factors

variable {shl : ℕ → Option ℤ} {draws : ℕ → ℕ} {what : ℕ}

/-- The start of round `i`. -/
def startOfRound (draws : ℕ → ℕ) (what i g : ℕ) : Rho :=
  ⟨drawX draws what i, drawX draws what i, g, 1⟩

theorem drawT_lt (draws : ℕ → ℕ) (pos : 0 < what) (i : ℕ) : drawT draws what i < what :=
  Nat.mod_lt _ pos

theorem startOfRound_reduced (draws : ℕ → ℕ) (two : 2 ≤ what) (i g : ℕ) :
    (startOfRound draws what i g).Reduced what := by
  have lt : draws (2 * i + 1) % (what - 1) < what - 1 := Nat.mod_lt _ (by omega)
  have below : drawX draws what i < what := by
    rw [drawX]
    omega
  exact ⟨below, below⟩

/-- Two factors of a divisor that is not trivial, in order and small enough for 32 bits. -/
theorem finish_found {g p q : ℕ} (small : ∀ d, d ∣ what → 1 < d → d < what → d < 2 ^ 32)
    (divides : g ∣ what ∨ g = 0) (result : finish what g = .found p q) :
    p * q = what ∧ 1 < p ∧ p ≤ q := by
  rw [finish] at result
  split at result
  · rename_i proper
    have dvd : g ∣ what := divides.resolve_right (by omega)
    obtain ⟨k, rfl⟩ := dvd
    have quotient : g * k / g = k := Nat.mul_div_cancel_left k (by omega)
    have one_lt : 1 < k := by
      by_contra le
      have : k = 0 ∨ k = 1 := by omega
      rcases this with zero | one
      · rw [zero] at proper
        omega
      · rw [one, Nat.mul_one] at proper
        omega
    have k_lt : k < g * k := by
      have := Nat.mul_lt_mul_of_pos_right proper.1 (by omega : 0 < k)
      omega
    have g_small := small g (Dvd.intro k rfl) proper.1 proper.2
    have k_small := small k (Dvd.intro_left g rfl) one_lt k_lt
    rw [quotient, Nat.mod_eq_of_lt g_small, Nat.mod_eq_of_lt k_small] at result
    dsimp only at result
    split at result
    · rename_i greater
      injection result with hp hq
      rw [← hp, ← hq]
      exact ⟨Nat.mul_comm k g, one_lt, greater.le⟩
    · rename_i le
      injection result with hp hq
      rw [← hp, ← hq]
      exact ⟨rfl, proper.1, Nat.le_of_not_lt le⟩
  · cases result

theorem round_g (draws : ℕ → ℕ) (odd : what % 2 = 1) (three : 3 ≤ what) (bound : what < 2 ^ 63)
    (lim : ℤ)
    (i : ℕ) {g : ℕ} (divides : g ∣ what ∨ g = 0) :
    (round draws what lim i g).1.g ∣ what ∨ (round draws what lim i g).1.g = 0 := by
  have start := startOfRound_reduced draws (by omega : 2 ≤ what) i g
  rcases roundLoop_g odd bound (drawT_lt draws (by omega) i) (lim - 1).toNat start with dvd | same
  · exact .inl dvd
  · rcases divides with dvd | zero
    · exact .inl (same ▸ dvd)
    · exact .inr (same.trans zero)

theorem rounds_found (odd : what % 2 = 1) (three : 3 ≤ what) (bound : what < 2 ^ 63)
    (small : ∀ d, d ∣ what → 1 < d → d < what → d < 2 ^ 32) {n i it g p q : ℕ}
    (divides : g ∣ what ∨ g = 0)
    (result : rounds shl draws what n i it g = .found p q) : p * q = what ∧ 1 < p ∧ p ≤ q := by
  induction n generalizing i it g with
  | zero => cases result
  | succ n ih =>
      rw [rounds] at result
      split at result
      · split at result
        · cases result
        · split at result
          · cases result
          · rename_i lim _
            have next := round_g draws odd three bound lim i divides
            dsimp only at result
            split at result
            · exact finish_found small next result
            · exact ih next result
      · exact finish_found small divides result

/-- A factorization that is found is one.  A round makes so many steps from its start; in every step
the square is exact, its sums fit into 64 bits and the numbers are residues. -/
theorem factorizeValue_sound (shl : ℕ → Option ℤ) (draws : ℕ → ℕ) {what : ℕ} (odd : what % 2 = 1)
    (three : 3 ≤ what) (bound : what < 2 ^ 63)
    (small : ∀ d, d ∣ what → 1 < d → d < what → d < 2 ^ 32) :
    (∀ fuel p q, factorizeValue shl draws what fuel = .found p q → p * q = what ∧ 1 < p ∧ p ≤ q) ∧
      (∀ lim i g, (round draws what lim i g).1 =
        (Rho.step what (drawT draws what i))^[(round draws what lim i g).2]
          (startOfRound draws what i g)) ∧
      ∀ i g n, ∀ s : Rho,
        s = (Rho.step what (drawT draws what i))^[n] (startOfRound draws what i g) →
        s.x < what ∧ s.y < what ∧
          (s.step what (drawT draws what i)).x = (s.x * s.x + drawT draws what i) % what ∧
            ∀ sum ∈ squareSums what 64 s.x s.x (drawT draws what i), sum < 2 ^ 64 := by
  refine ⟨fun fuel p q result => rounds_found odd three bound small (.inr rfl) result,
    fun lim i g => roundLoop_iterate _ _ _ _, ?_⟩
  intro i g n s at_n
  have t_lt := drawT_lt draws (by omega : 0 < what) i
  have reduced : s.Reduced what := by
    rw [at_n]
    exact (startOfRound_reduced draws (by omega) i g).iterate bound t_lt n
  refine ⟨reduced.1, reduced.2, ?_, squareSums_lt bound reduced.1 t_lt 64⟩
  rw [Rho.step_x]
  exact square_eq bound t_lt reduced.1

theorem factors_of_fifteen :
    factorizeValue shiftOne (fun _ => 1) 15 1 = .found 3 5 ∧ 3 * 5 = 15 ∧ 1 < 3 ∧ 3 ≤ 5 := by
  have found : factorizeValue shiftOne (fun _ => 1) 15 1 = .found 3 5 := by decide +kernel
  refine ⟨found, ?_⟩
  apply (factorizeValue_sound shiftOne (fun _ => 1) (by decide : 15 % 2 = 1) (by decide)
    (by decide) _).1 1 3 5 found
  intro d _ _ below
  omega

end Factors

end Mtproto.Handshake
