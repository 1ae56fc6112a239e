import Mtproto.Lib.While
import Mtproto.Handshake.Factorize

/-!
# The loops of `gcd`

`gcd` with its words of 64 bits and its three loops, none of which has a bound in the source.  Every
round of the outer loop first divides both words by the powers of two in them, which ends because
neither is zero, and then takes the smaller one from the other.  From the first round on one of the
words is odd, so that no factor of two is lost that they have in common, and the sum of the words
becomes smaller in every round.
-/

namespace Mtproto.Handshake.Gcd

open Lib.While

/-! ## The function -/

/-- The two variables. -/
structure Words where
  a : BitVec 64
  b : BitVec 64
deriving DecidableEq, Repr

/-- `while ((x & 1) == 0) x >>= 1`. -/
def halve : Code (BitVec 64) := loop (fun x => x &&& 1 = 0) (assign fun x => x >>> 1)

/-- `if (a > b) a -= b; else b -= a`. -/
def subtract : Code Words :=
  cond (fun s => s.a > s.b) (assign fun s => { s with a := s.a - s.b })
    (assign fun s => { s with b := s.b - s.a })

/-- The body of the outer loop. -/
def round : Code Words :=
  seq (zoom Words.b (fun s b => { s with b }) halve)
    (seq (zoom Words.a (fun s a => { s with a }) halve) subtract)

/-- The outer loop. -/
def reduce : Code Words := loop (fun s => s.a ≠ 0 ∧ s.b ≠ 0) round

/-- The word that is left. -/
def Words.rest (s : Words) : BitVec 64 := if s.b = 0 then s.a else s.b

/-- `gcd`, with a bound on the rounds of each loop. -/
def gcd (n : ℕ) (a b : BitVec 64) : Option (BitVec 64) := (reduce n ⟨a, b⟩).map Words.rest

/-! ## The inner loops -/

section Halve

variable {x y : BitVec 64}

theorem and_one_eq_zero (x : BitVec 64) : x &&& 1 = 0 ↔ x.toNat % 2 = 0 := by
  rw [← BitVec.toNat_inj, BitVec.toNat_and]
  show x.toNat &&& 1 = 0 ↔ _
  rw [Nat.and_one_is_mod]

theorem toNat_half (x : BitVec 64) : (x >>> 1).toNat = x.toNat / 2 := by
  rw [BitVec.toNat_ushiftRight, Nat.shiftRight_one]

theorem pos_of_ne_zero (h : x ≠ 0) : 0 < x.toNat := by
  apply Nat.pos_of_ne_zero
  intro zero
  exact h (BitVec.eq_of_toNat_eq zero)

/-- `y` is what is left of `x` without its powers of two. -/
structure OddPart (x y : BitVec 64) : Prop where
  odd : y.toNat % 2 = 1
  power : ∃ k, x.toNat = 2 ^ k * y.toNat

theorem OddPart.le (h : OddPart x y) : y.toNat ≤ x.toNat := by
  obtain ⟨k, eq⟩ := h.power
  rw [eq]
  exact Nat.le_mul_of_pos_left _ (Nat.two_pow_pos k)

theorem OddPart.eq_of_odd (h : OddPart x y) (odd : x.toNat % 2 = 1) : y.toNat = x.toNat := by
  obtain ⟨k, eq⟩ := h.power
  cases k with
  | zero => rw [eq, Nat.pow_zero, Nat.one_mul]
  | succ k =>
      rw [Nat.pow_succ, Nat.mul_right_comm] at eq
      omega

/-- Beside an odd number the powers of two do not matter. -/
theorem OddPart.gcd_eq (h : OddPart x y) {m : ℕ} (odd : m % 2 = 1) :
    Nat.gcd y.toNat m = Nat.gcd x.toNat m := by
  obtain ⟨k, eq⟩ := h.power
  have two : Nat.Coprime 2 m := by
    apply Nat.coprime_iff_gcd_eq_one.2
    rw [Nat.gcd_rec, odd, Nat.gcd_one_left]
  have coprime : Nat.Coprime (2 ^ k) m := two.pow_left k
  rw [eq, coprime.gcd_mul_left_cancel]

/-- The word becomes smaller as long as it is even, and it does not become zero. -/
theorem total_halve (pos : x ≠ 0) : Total (· = x) halve (OddPart x) := by
  have loop : Total (fun y => y ≠ 0 ∧ ∃ k, x.toNat = 2 ^ k * y.toNat) halve
      (fun y => (y ≠ 0 ∧ ∃ k, x.toNat = 2 ^ k * y.toNat) ∧ ¬ y &&& 1 = 0) := by
    apply Total.loop BitVec.toNat
    intro m
    apply total_assign
    rintro y ⟨⟨ne, k, eq⟩, even, rfl⟩
    have half : y.toNat = 2 * (y >>> 1).toNat := by
      have := (and_one_eq_zero y).1 even
      rw [toNat_half]
      omega
    have := pos_of_ne_zero ne
    refine ⟨⟨?_, k + 1, ?_⟩, by omega⟩
    · intro zero
      rw [zero] at half
      simp at half
      omega
    · rw [eq, half, Nat.pow_succ, Nat.mul_assoc]
  refine loop.weaken ?_ ?_
  · rintro y rfl
    exact ⟨pos, 0, by rw [Nat.pow_zero, Nat.one_mul]⟩
  · rintro y ⟨⟨-, power⟩, odd⟩
    rw [and_one_eq_zero] at odd
    exact ⟨by omega, power⟩

end Halve

/-! ## The outer loop -/

namespace Words

/-- One of the words is odd. -/
def Odd (s : Words) : Prop := s.a.toNat % 2 = 1 ∨ s.b.toNat % 2 = 1

def divisor (s : Words) : ℕ := Nat.gcd s.a.toNat s.b.toNat

def sum (s : Words) : ℕ := s.a.toNat + s.b.toNat

end Words

section Reduce

variable {s t : Words}

/-- The words without their powers of two. -/
theorem divisor_of_oddParts (ha : OddPart s.a t.a) (hb : OddPart s.b t.b) (odd : s.Odd) :
    t.divisor = s.divisor := by
  unfold Words.divisor
  rcases odd with odd | odd
  · rw [ha.eq_of_odd odd, Nat.gcd_comm, hb.gcd_eq odd, Nat.gcd_comm]
  · rw [hb.eq_of_odd odd, ha.gcd_eq odd]

/-- From two odd words the smaller one is taken from the other. -/
theorem total_subtract (t : Words) (ha : t.a.toNat % 2 = 1) (hb : t.b.toNat % 2 = 1) :
    Total (· = t) subtract fun u => u.Odd ∧ u.divisor = t.divisor ∧ u.sum < t.sum := by
  apply Total.cond
  · apply total_assign
    rintro u ⟨rfl, greater⟩
    have greater := BitVec.lt_def.1 greater
    have difference : (u.a - u.b).toNat = u.a.toNat - u.b.toNat := BitVec.toNat_sub_of_le greater.le
    refine ⟨.inr hb, ?_, ?_⟩
    · show Nat.gcd (u.a - u.b).toNat u.b.toNat = Nat.gcd u.a.toNat u.b.toNat
      rw [difference, Nat.gcd_sub_self_left greater.le]
    · show (u.a - u.b).toNat + u.b.toNat < u.a.toNat + u.b.toNat
      omega
  · apply total_assign
    rintro u ⟨rfl, le⟩
    have le : u.a.toNat ≤ u.b.toNat := Nat.not_lt.1 fun lt => le (BitVec.lt_def.2 lt)
    have difference : (u.b - u.a).toNat = u.b.toNat - u.a.toNat := BitVec.toNat_sub_of_le le
    refine ⟨.inl ha, ?_, ?_⟩
    · show Nat.gcd u.a.toNat (u.b - u.a).toNat = Nat.gcd u.a.toNat u.b.toNat
      rw [difference, Nat.gcd_sub_self_right le]
    · show u.a.toNat + (u.b - u.a).toNat < u.a.toNat + u.b.toNat
      omega

/-- One round: afterwards a word is odd, and the divisor is the same if one was odd before. -/
theorem total_round (s : Words) (ha : s.a ≠ 0) (hb : s.b ≠ 0) :
    Total (· = s) round fun u => u.Odd ∧ (s.Odd → u.divisor = s.divisor) ∧ u.sum < s.sum := by
  have first : Total (· = s) (zoom Words.b (fun s b => { s with b }) halve)
      fun t => t.a = s.a ∧ OddPart s.b t.b := by
    apply total_zoom
    rintro _ rfl
    exact (total_halve hb).weaken (fun _ => id) fun b part => ⟨rfl, part⟩
  have second :
      Total (fun t => t.a = s.a ∧ OddPart s.b t.b) (zoom Words.a (fun s a => { s with a }) halve)
      fun t => OddPart s.a t.a ∧ OddPart s.b t.b := by
    apply total_zoom
    rintro t ⟨same, part⟩
    exact (total_halve (same ▸ ha)).weaken (fun _ => id) fun a part' => ⟨same ▸ part', part⟩
  have third : Total (fun t => OddPart s.a t.a ∧ OddPart s.b t.b) subtract
      fun u => u.Odd ∧ (s.Odd → u.divisor = s.divisor) ∧ u.sum < s.sum := by
    rintro t ⟨parta, partb⟩
    obtain ⟨u, ends, odd, divisor, smaller⟩ := total_subtract t parta.odd partb.odd t rfl
    refine ⟨u, ends, odd, ?_, ?_⟩
    · intro before
      rw [divisor, divisor_of_oddParts parta partb before]
    · have := parta.le
      have := partb.le
      unfold Words.sum at smaller ⊢
      omega
  exact first.seq (second.seq third)

/-- The loop ends whatever the words are. -/
theorem total_reduce (s : Words) :
    Total (· = s) reduce fun t => (s.Odd → t.divisor = s.divisor) ∧ ¬ (t.a ≠ 0 ∧ t.b ≠ 0) := by
  have loop : Total (fun t => s.Odd → t.Odd ∧ t.divisor = s.divisor) reduce
      fun t => (s.Odd → t.Odd ∧ t.divisor = s.divisor) ∧ ¬ (t.a ≠ 0 ∧ t.b ≠ 0) := by
    apply Total.loop Words.sum
    rintro k t ⟨kept, ⟨ha, hb⟩, rfl⟩
    obtain ⟨u, ends, odd, divisor, smaller⟩ := total_round t ha hb t rfl
    refine ⟨u, ends, ?_, smaller⟩
    intro before
    obtain ⟨odd', same⟩ := kept before
    exact ⟨odd, (divisor odd').trans same⟩
  refine loop.weaken ?_ ?_
  · rintro _ rfl
    exact fun odd => ⟨odd, rfl⟩
  · rintro t ⟨kept, done⟩
    exact ⟨fun odd => (kept odd).2, done⟩

theorem rest_eq_divisor (done : ¬ (s.a ≠ 0 ∧ s.b ≠ 0)) : s.rest.toNat = s.divisor := by
  unfold Words.rest Words.divisor
  split
  · rename_i zero
    rw [zero]
    exact (Nat.gcd_zero_right _).symm
  · rename_i ne
    have zero : s.a = 0 := by
      by_contra h
      exact done ⟨h, ne⟩
    rw [zero]
    exact (Nat.gcd_zero_left _).symm

theorem stable_reduce : Stable reduce := by
  have halve : Stable halve := (stable_assign _).loop
  have subtract : Stable subtract := (stable_assign _).cond (stable_assign _)
  exact ((halve.zoom _ _).seq ((halve.zoom _ _).seq subtract)).loop

end Reduce

/-! ## The result -/

/-- With enough rounds the result is `r`. -/
def Returns (a b r : BitVec 64) : Prop := ∃ N, ∀ n, N ≤ n → gcd n a b = some r

section Result

variable {a b r : BitVec 64}

theorem returns_of_ends {t : Words} (ends : Ends reduce ⟨a, b⟩ t) : Returns a b t.rest := by
  obtain ⟨N, run⟩ := ends
  exact ⟨N, fun n hn => by rw [gcd, run n hn, Option.map_some]⟩

/-- There is no other result with fewer rounds. -/
theorem eq_of_ends {t : Words} {n : ℕ} (ends : Ends reduce ⟨a, b⟩ t) (run : gcd n a b = some r) :
    r = t.rest := by
  obtain ⟨u, reduced, rfl⟩ := Option.map_eq_some_iff.1 run
  rw [ends.eq_of_some stable_reduce reduced]

/-- `gcd` terminates.  The result is the greatest common divisor when one of the words is odd, and
the other word when one of them is zero.  The function of `factorizeValue`, whose loops have bounds,
returns the same for an odd word. -/
theorem gcd_exact (a b : BitVec 64) :
    ∃ r, Returns a b r ∧ (∀ n x, gcd n a b = some x → x = r) ∧
      (a.toNat % 2 = 1 ∨ b.toNat % 2 = 1 → r.toNat = Nat.gcd a.toNat b.toNat) ∧
      (a = 0 → r = b) ∧ (b = 0 → r = a) ∧
      (a.toNat % 2 = 1 ∨ b.toNat % 2 = 1 → Handshake.gcd a.toNat b.toNat = r.toNat) := by
  obtain ⟨t, ends, divisor, done⟩ := total_reduce ⟨a, b⟩ _ rfl
  have only : ∀ n x, gcd n a b = some x → x = t.rest := fun n x => eq_of_ends ends
  have greatest : a.toNat % 2 = 1 ∨ b.toNat % 2 = 1 → t.rest.toNat = Nat.gcd a.toNat b.toNat := by
    intro odd
    rw [rest_eq_divisor done]
    exact divisor odd
  refine ⟨t.rest, returns_of_ends ends, only, greatest, ?_, ?_, ?_⟩
  · rintro rfl
    apply (only 0 b _).symm
    rw [gcd, reduce, loop_of_not _ _ (fun h => h.1 rfl), Option.map_some, Words.rest]
    split
    · rename_i zero
      exact congrArg some zero.symm
    · rfl
  · rintro rfl
    apply (only 0 a _).symm
    rw [gcd, reduce, loop_of_not _ _ (fun h => h.2 rfl), Option.map_some, Words.rest, if_pos rfl]
  · intro odd
    rw [greatest odd]
    exact gcdLoop_eq (le_refl _) odd a.isLt b.isLt

theorem gcd_exact_fifteen :
    ∃ r, Returns 12 15 r ∧ r.toNat = 3 := by
  obtain ⟨r, returns, -, divisor, -⟩ := gcd_exact 12 15
  exact ⟨r, returns, divisor (by decide)⟩

end Result

end Mtproto.Handshake.Gcd
