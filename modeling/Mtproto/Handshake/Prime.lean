import Mathlib.NumberTheory.LegendreSymbol.QuadraticReciprocity
import Mathlib.NumberTheory.LegendreSymbol.JacobiSymbol
import Mtproto.Handshake.Keys

/-!
# The Diffie-Hellman group

`isGoodPrime` decides whether a client takes the prime `p` and the generator `g` that a server
sends.  It is written twice, in `Handshake.cpp` and in `Utilities.java`.  The tests for primes of
the two libraries are parameters, and so is the prime that is known to be good (`builtin`), which
the code has as a hexadecimal text; two texts of 512 digits are equal when their numbers are.

For a safe prime the tables of `isGoodPrime` say exactly when `g` is a square (`residueOk_iff`), by
quadratic reciprocity, and a square other than 1 then generates the subgroup of half the order.
-/

namespace Mtproto.Handshake

open Mtproto.Bytes

/-! ## The two checks -/

/-- The tables of `isGoodPrime` in `Handshake.cpp`; `x` is `p` modulo `4 * g`. -/
def residueOk (g x : ℕ) : Bool :=
  match g with
  | 2 => x = 7
  | 3 => x % 3 = 2
  | 5 => x % 5 = 1 ∨ x % 5 = 4
  | 6 => x = 19 ∨ x = 23
  | 7 => x % 7 = 3 ∨ x % 7 = 5 ∨ x % 7 = 6
  | _ => true

/-- The tables in `Utilities.java`, for `p` itself. -/
def Utilities.residueOk (g : ℤ) (p : ℕ) : Bool :=
  if g = 2 then p % 8 = 7
  else if g = 3 then p % 3 = 2
  else if g = 5 then p % 5 = 1 ∨ p % 5 = 4
  else if g = 6 then p % 24 = 19 ∨ p % 24 = 23
  else if g = 7 then p % 7 = 3 ∨ p % 7 = 5 ∨ p % 7 = 6
  else true

/-- `isGoodPrime` in `Handshake.cpp`. -/
def isGoodPrime (checkPrime : ℕ → Bool) (builtin p g : ℕ) : Bool :=
  if g < 2 ∨ g > 7 ∨ bnNumBits p ≠ 2048 then false
  else
    let x := p % (4 * g)
    if x ≥ 4 * g then false
    else
      let result := residueOk g x
      if p = builtin then true
      else if !result || !checkPrime p then false
      else if !checkPrime (p / 2) then false
      else result

/-- `isGoodPrime` in `Utilities.java`; a byte is not negative when it is below 128. -/
def Utilities.isGoodPrime (isProbablePrime : ℕ → Bool) (builtin : ℕ) (prime : List UInt8) (g : ℤ) :
    Bool :=
  if ¬ (g ≥ 2 ∧ g ≤ 7) then false
  else if prime.length ≠ 256 ∨ prime.headD 0 < 128 then false
  else
    let dhBI := beNat prime
    if !Utilities.residueOk g dhBI then false
    else if dhBI = builtin then true
    else isProbablePrime dhBI && isProbablePrime ((dhBI - 1) / 2)

/-- The prime that both programs know. -/
def goodPrime : ℕ :=
  0xc71caeb9c6b1c9048e6c522f70f13f73980d40238e3e21c14934d037563d930f48198a0aa7c14058229493d22530f4dbfa336f6e0ac925139543aed44cce7c3720fd51f69458705ac68cd4fe6b6b13abdc9746512969328454f18faf8c595f642477fe96bb2a941d5bcd1d4ac8cc49880708fa9b378e3c4f3a9060bee67cf9a4a4a695811051907e162753b56b0f6b410dba74d8a84b2a14b3144e0ef1284754fd17ed950d5965b4b9dd46582db1178d169c6bc465b0d6ff9ca3928fef5b9ae4e418fc15e83ebea0f87fa9ff5eed70050ded2849f47bf959d956850ce929851f0d8115f635b105ee2e4e15d04b2454bf6f4fadf034b10403119cd8e3b92fcc5b

/-! ## Squares modulo a safe prime -/

/-- A prime `p` for which `(p - 1) / 2` is a prime too. -/
structure SafePrime (p : ℕ) : Prop where
  prime : p.Prime
  half : ((p - 1) / 2).Prime

/-- What the check is for: `g` is a square modulo a safe prime of 2048 bits and generates the
subgroup of order `(p - 1) / 2`. -/
structure GoodGroup (p g : ℕ) : Prop where
  bits : bnNumBits p = 2048
  safe : SafePrime p
  square : IsSquare (g : ZMod p)
  generates : orderOf (g : ZMod p) = (p - 1) / 2

section Squares

variable {p g : ℕ}

theorem SafePrime.mod_twelve (safe : SafePrime p) (large : 7 < p) : p % 12 = 11 := by
  have odd : p % 2 = 1 := safe.prime.eq_two_or_odd.resolve_left (by omega)
  have odd_half : (p - 1) / 2 % 2 = 1 := safe.half.eq_two_or_odd.resolve_left (by omega)
  have not_three : ¬ 3 ∣ p := by
    intro three
    have := (Nat.prime_dvd_prime_iff_eq Nat.prime_three safe.prime).1 three
    omega
  have half_not_three : ¬ 3 ∣ (p - 1) / 2 := by
    intro three
    have := (Nat.prime_dvd_prime_iff_eq Nat.prime_three safe.half).1 three
    omega
  have three : (p - 1) / 2 % 3 = 1 ∨ (p - 1) / 2 % 3 = 2 := by omega
  rcases three with one | two
  · omega
  · omega

theorem SafePrime.not_dvd (safe : SafePrime p) {q : ℕ} (prime : q.Prime) (lt : q < p) :
    p % q ≠ 0 := by
  intro zero
  have same := (Nat.prime_dvd_prime_iff_eq prime safe.prime).1 (Nat.dvd_of_mod_eq_zero zero)
  omega

theorem isSquare_natCast_mod (n q : ℕ) :
    IsSquare (n : ZMod q) ↔ IsSquare ((n % q : ℕ) : ZMod q) := by
  rw [ZMod.natCast_mod]

theorem SafePrime.isSquare_two_iff (safe : SafePrime p) (large : 7 < p) :
    IsSquare ((2 : ℕ) : ZMod p) ↔ p % 8 = 7 := by
  have twelve := safe.mod_twelve large
  have : Fact p.Prime := ⟨safe.prime⟩
  rw [Nat.cast_ofNat, ZMod.exists_sq_eq_two_iff (by omega)]
  omega

theorem SafePrime.isSquare_three (safe : SafePrime p) (large : 7 < p) :
    IsSquare ((3 : ℕ) : ZMod p) := by
  have twelve := safe.mod_twelve large
  have : Fact p.Prime := ⟨safe.prime⟩
  have : Fact (Nat.Prime 3) := ⟨Nat.prime_three⟩
  have two : p % 3 = 2 := by omega
  rw [ZMod.exists_sq_eq_prime_iff_of_mod_four_eq_three (by omega) (by omega) (by omega),
    isSquare_natCast_mod, two]
  decide

theorem SafePrime.isSquare_five_iff (safe : SafePrime p) (large : 7 < p) :
    IsSquare ((5 : ℕ) : ZMod p) ↔ p % 5 = 1 ∨ p % 5 = 4 := by
  have : Fact p.Prime := ⟨safe.prime⟩
  have : Fact (Nat.Prime 5) := ⟨Nat.prime_five⟩
  have nonzero := safe.not_dvd Nat.prime_five (by omega)
  have lt : p % 5 < 5 := Nat.mod_lt _ (by omega)
  rw [← ZMod.exists_sq_eq_prime_iff_of_mod_four_eq_one (by omega) (by omega), isSquare_natCast_mod]
  generalize p % 5 = r at *
  interval_cases r
  · omega
  all_goals decide

theorem SafePrime.isSquare_seven_iff (safe : SafePrime p) (large : 7 < p) :
    IsSquare ((7 : ℕ) : ZMod p) ↔ p % 7 = 3 ∨ p % 7 = 5 ∨ p % 7 = 6 := by
  have twelve := safe.mod_twelve large
  have prime_seven : Nat.Prime 7 := by decide
  have : Fact p.Prime := ⟨safe.prime⟩
  have : Fact (Nat.Prime 7) := ⟨prime_seven⟩
  have nonzero := safe.not_dvd prime_seven large
  have lt : p % 7 < 7 := Nat.mod_lt _ (by omega)
  rw [ZMod.exists_sq_eq_prime_iff_of_mod_four_eq_three (by omega) (by omega) (by omega),
    isSquare_natCast_mod]
  generalize p % 7 = r at *
  interval_cases r
  · omega
  all_goals decide

/-- 3 is a square, so that 6 is one when 2 is. -/
theorem SafePrime.isSquare_six_iff (safe : SafePrime p) (large : 7 < p) :
    IsSquare ((6 : ℕ) : ZMod p) ↔ p % 8 = 7 := by
  have : Fact p.Prime := ⟨safe.prime⟩
  obtain ⟨r, three⟩ := safe.isSquare_three large
  have nonzero : ((3 : ℕ) : ZMod p) ≠ 0 := by
    rw [Ne, ZMod.natCast_eq_zero_iff]
    intro divides
    have := Nat.le_of_dvd (by omega) divides
    omega
  have root : r ≠ 0 := by
    rintro rfl
    rw [mul_zero] at three
    exact nonzero three
  have six : ((6 : ℕ) : ZMod p) = ((2 : ℕ) : ZMod p) * (r * r) := by
    rw [← three, ← Nat.cast_mul]
  rw [← safe.isSquare_two_iff large, six]
  refine ⟨?_, ?_⟩
  · rintro ⟨s, eq⟩
    refine ⟨s / r, ?_⟩
    rw [div_mul_div_comm, ← eq]
    field_simp
  · rintro ⟨s, eq⟩
    refine ⟨s * r, ?_⟩
    rw [eq]
    ring

/-- For a safe prime the tables say when `g` is a square. -/
theorem residueOk_iff (safe : SafePrime p) (large : 7 < p) (two : 2 ≤ g) (seven : g ≤ 7) :
    residueOk g (p % (4 * g)) = true ↔ IsSquare (g : ZMod p) := by
  have twelve := safe.mod_twelve large
  interval_cases g
  · rw [safe.isSquare_two_iff large]
    simp [residueOk]
  · refine iff_of_true ?_ (safe.isSquare_three large)
    simp only [residueOk, decide_eq_true_eq]
    omega
  · refine iff_of_true rfl ⟨2, ?_⟩
    norm_num
  · rw [safe.isSquare_five_iff large]
    simp only [residueOk, decide_eq_true_eq]
    omega
  · rw [safe.isSquare_six_iff large]
    simp only [residueOk, decide_eq_true_eq]
    omega
  · rw [safe.isSquare_seven_iff large]
    simp only [residueOk, decide_eq_true_eq]
    omega

/-- A square other than 0 and 1 has the order `(p - 1) / 2`, which is a prime. -/
theorem SafePrime.orderOf_eq (safe : SafePrime p) (two : 2 ≤ g) (lt : g < p)
    (square : IsSquare (g : ZMod p)) : orderOf (g : ZMod p) = (p - 1) / 2 := by
  have : Fact p.Prime := ⟨safe.prime⟩
  have : Fact ((p - 1) / 2).Prime := ⟨safe.half⟩
  have odd : p % 2 = 1 := safe.prime.eq_two_or_odd.resolve_left (by omega)
  have nonzero : (g : ZMod p) ≠ 0 := by
    rw [Ne, ZMod.natCast_eq_zero_iff]
    intro divides
    have := Nat.le_of_dvd (by omega) divides
    omega
  apply orderOf_eq_prime
  · have half : (p - 1) / 2 = p / 2 := by omega
    rw [half]
    exact (ZMod.euler_criterion p nonzero).1 square
  · intro one
    rw [← Nat.cast_one, ZMod.natCast_eq_natCast_iff, Nat.ModEq, Nat.mod_eq_of_lt lt,
      Nat.mod_eq_of_lt (by omega)] at one
    omega

end Squares

/-! ## The two checks against the purpose, and against each other -/

section Checks

variable {checkPrime isProbablePrime : ℕ → Bool} {builtin p g : ℕ}

/-- A test that is exact. -/
def Exact (test : ℕ → Bool) : Prop := ∀ n, test n = true ↔ n.Prime

/-- The known prime is taken with a `g` that the tables refuse. -/
def Unchecked (builtin p g : ℕ) : Prop :=
  p = builtin ∧ bnNumBits p = 2048 ∧ 2 ≤ g ∧ g ≤ 7 ∧ residueOk g (p % (4 * g)) = false

theorem seven_lt_of_bits (bits : bnNumBits p = 2048) : 7 < p := by
  have eight : 2 ^ 3 ≤ p := by
    apply Nat.lt_size.1
    rw [← bnNumBits, bits]
    decide
  omega

/-- What the check accepts. -/
theorem isGoodPrime_iff : isGoodPrime checkPrime builtin p g = true ↔
    2 ≤ g ∧ g ≤ 7 ∧ bnNumBits p = 2048 ∧
      (p = builtin ∨ residueOk g (p % (4 * g)) = true ∧ checkPrime p = true ∧
        checkPrime (p / 2) = true) := by
  rw [isGoodPrime]
  by_cases range : g < 2 ∨ g > 7 ∨ bnNumBits p ≠ 2048
  · rw [if_pos range]
    refine iff_of_false (by decide) ?_
    rintro ⟨two, seven, bits, -⟩
    rcases range with lt | gt | ne
    · omega
    · omega
    · exact ne bits
  · have below : ¬ p % (4 * g) ≥ 4 * g := Nat.not_le.2 (Nat.mod_lt _ (by omega))
    rw [if_neg range]
    dsimp only
    rw [if_neg below]
    simp only [not_or, not_lt, ne_eq, not_not, gt_iff_lt] at range
    obtain ⟨two, seven, bits⟩ := range
    by_cases known : p = builtin
    · rw [if_pos known]
      exact iff_of_true rfl ⟨two, seven, bits, .inl known⟩
    · rw [if_neg known]
      simp only [known, two, bits, seven, false_or, true_and]
      cases residueOk g (p % (4 * g)) <;> cases checkPrime p <;> cases checkPrime (p / 2) <;> simp

/-- Half of an odd number is half of the number before it. -/
theorem checks_iff_safe (exact_test : Exact checkPrime) (large : 7 < p) :
    (checkPrime p = true ∧ checkPrime (p / 2) = true) ↔ SafePrime p := by
  rw [exact_test, exact_test]
  refine ⟨?_, ?_⟩
  · rintro ⟨prime, half⟩
    have odd : p % 2 = 1 := prime.eq_two_or_odd.resolve_left (by omega)
    have same : (p - 1) / 2 = p / 2 := by omega
    exact ⟨prime, same ▸ half⟩
  · intro safe
    have odd : p % 2 = 1 := safe.prime.eq_two_or_odd.resolve_left (by omega)
    have same : (p - 1) / 2 = p / 2 := by omega
    exact ⟨safe.prime, same ▸ safe.half⟩

/-- What is accepted is a good group, unless the tables were not asked. -/
theorem isGoodPrime_sound_iff (exact_test : Exact checkPrime) (safe : SafePrime builtin) :
    (isGoodPrime checkPrime builtin p g = true → GoodGroup p g) ↔ ¬ Unchecked builtin p g := by
  refine ⟨?_, ?_⟩
  · rintro sound ⟨known, bits, two, seven, refused⟩
    have large := seven_lt_of_bits bits
    have group := sound (isGoodPrime_iff.2 ⟨two, seven, bits, .inl known⟩)
    have ok := (residueOk_iff group.safe large two seven).2 group.square
    rw [refused] at ok
    cases ok
  · intro asked accepted
    obtain ⟨two, seven, bits, reason⟩ := isGoodPrime_iff.1 accepted
    have large := seven_lt_of_bits bits
    have both : SafePrime p ∧ residueOk g (p % (4 * g)) = true := by
      rcases reason with known | ⟨ok, tests⟩
      · refine ⟨known ▸ safe, ?_⟩
        rw [← Bool.not_eq_false]
        exact fun refused => asked ⟨known, bits, two, seven, refused⟩
      · exact ⟨(checks_iff_safe exact_test large).1 tests, ok⟩
    have square := (residueOk_iff both.1 large two seven).1 both.2
    exact ⟨bits, both.1, square, both.1.orderOf_eq two (by omega) square⟩

/-- Of 256 bytes the first has the top bit of the number. -/
theorem bnNumBits_beNat_iff {prime : List UInt8} (len : prime.length = 256) :
    bnNumBits (beNat prime) = 2048 ↔ 128 ≤ prime.headD 0 := by
  rcases prime with _ | ⟨b, rest⟩
  · cases len
  · have rest_len : rest.length = 255 := by simpa using len
    have first : beNat [b] = b.toNat := by simp [beNat, leNat]
    have value : beNat (b :: rest) = beNat rest + 256 ^ 255 * b.toNat := by
      rw [← first, ← rest_len]
      exact beNat_append [b] rest
    have rest_lt : beNat rest < 256 ^ 255 := by
      have lt := leNat_lt rest.reverse
      rwa [List.length_reverse, rest_len] at lt
    have b_lt : b.toNat < 256 := b.toNat_lt
    have low : 2 ^ 2047 = 128 * 256 ^ 255 := by
      rw [show (256 : ℕ) = 2 ^ 8 from rfl, ← Nat.pow_mul,
        show (128 : ℕ) = 2 ^ 7 from rfl, ← Nat.pow_add]
    have high : 2 ^ 2048 = 256 * 256 ^ 255 := by
      rw [show (256 : ℕ) = 2 ^ 8 from rfl, ← Nat.pow_mul, ← Nat.pow_add]
    have size : bnNumBits (beNat (b :: rest)) = 2048 ↔
        2 ^ 2047 ≤ beNat (b :: rest) ∧ beNat (b :: rest) < 2 ^ 2048 := by
      rw [← Nat.lt_size, ← Nat.size_le, bnNumBits]
      omega
    rw [size, value, low, high, List.headD_cons, UInt8.le_iff_toNat_le]
    generalize 256 ^ 255 = w at *
    change _ ↔ 128 ≤ b.toNat
    refine ⟨?_, ?_⟩
    · rintro ⟨le, -⟩
      by_contra small
      have := Nat.mul_le_mul_left w (by omega : b.toNat ≤ 127)
      omega
    · intro le
      have := Nat.mul_le_mul_left w le
      have := Nat.mul_le_mul_left w (by omega : b.toNat ≤ 255)
      omega

/-- What the check of `Utilities` accepts of an array of the right form. -/
theorem Utilities.isGoodPrime_iff {prime : List UInt8} (len : prime.length = 256)
    (top : 128 ≤ prime.headD 0)
    (g : ℤ) : Utilities.isGoodPrime isProbablePrime builtin prime g = true ↔
      2 ≤ g ∧ g ≤ 7 ∧ Utilities.residueOk g (beNat prime) = true ∧
        (beNat prime = builtin ∨
          isProbablePrime (beNat prime) = true ∧ isProbablePrime ((beNat prime - 1) / 2) =
            true) := by
  have form : ¬ (prime.length ≠ 256 ∨ prime.headD 0 < 128) := by
    rintro (ne | lt)
    · exact ne len
    · exact absurd top (UInt8.not_le.2 lt)
  rw [Utilities.isGoodPrime]
  by_cases range : g ≥ 2 ∧ g ≤ 7
  · rw [if_neg (not_not.2 range), if_neg form]
    dsimp only
    by_cases known : beNat prime = builtin
    · rw [if_pos known]
      cases Utilities.residueOk g (beNat prime) <;> simp [range.1, range.2, known]
    · rw [if_neg known]
      cases Utilities.residueOk g (beNat prime) <;> simp [range.1, range.2, known]
  · rw [if_pos range]
    refine iff_of_false (by decide) ?_
    rintro ⟨two, seven, -⟩
    exact range ⟨two, seven⟩

/-- The tables of the two programs are the same. -/
theorem Utilities.residueOk_eq (p : ℕ) (two : 2 ≤ g) (seven : g ≤ 7) :
    Utilities.residueOk g p = Mtproto.Handshake.residueOk g (p % (4 * g)) := by
  interval_cases g <;> simp only [Utilities.residueOk, Mtproto.Handshake.residueOk] <;> norm_num

/-- An `int` and the same bits as a `uint32_t` are one number between 2 and 7. -/
theorem toInt_eq_of_range (g : Int32) :
    (2 ≤ g.toInt ∧ g.toInt ≤ 7 ↔ 2 ≤ g.toUInt32.toNat ∧ g.toUInt32.toNat ≤ 7) ∧
      (g.toUInt32.toNat ≤ 7 → g.toInt = g.toUInt32.toNat) := by
  have cond : g.toInt = if 2 * g.toUInt32.toNat < 2 ^ 32 then (g.toUInt32.toNat : ℤ)
      else (g.toUInt32.toNat : ℤ) - 2 ^ 32 := BitVec.toInt_eq_toNat_cond _
  have lt : g.toUInt32.toNat < 2 ^ 32 := g.toUInt32.toNat_lt
  omega

/-- The two programs agree on an array, unless the tables were not asked. -/
theorem agree_iff (exact_native : Exact checkPrime) (exact_java : Exact isProbablePrime)
    {prime : List UInt8} (len : prime.length = 256) (top : 128 ≤ prime.headD 0) (g : Int32) :
    Utilities.isGoodPrime isProbablePrime builtin prime g.toInt =
        isGoodPrime checkPrime builtin (beNat prime) g.toUInt32.toNat ↔
      ¬ Unchecked builtin (beNat prime) g.toUInt32.toNat := by
  have bits := (bnNumBits_beNat_iff len).2 top
  have large := seven_lt_of_bits bits
  have tests : (isProbablePrime (beNat prime) = true ∧ isProbablePrime ((beNat prime - 1) / 2) =
      true) ↔
      checkPrime (beNat prime) = true ∧ checkPrime (beNat prime / 2) = true := by
    rw [checks_iff_safe exact_native large, exact_java, exact_java]
    exact ⟨fun both => ⟨both.1, both.2⟩, fun safe => ⟨safe.prime, safe.half⟩⟩
  obtain ⟨range, same⟩ := toInt_eq_of_range g
  rw [Bool.eq_iff_iff, Utilities.isGoodPrime_iff len top, isGoodPrime_iff, tests, ← and_assoc,
    range, and_assoc]
  generalize g.toUInt32.toNat = n at *
  by_cases inside : 2 ≤ n ∧ n ≤ 7
  · rw [same inside.2, Utilities.residueOk_eq _ inside.1 inside.2]
    simp only [Unchecked, inside.1, inside.2, bits, true_and]
    cases residueOk n (beNat prime % (4 * n)) <;> simp
  · refine iff_of_true ?_ ?_
    · exact iff_of_false (fun h => inside ⟨h.1, h.2.1⟩) (fun h => inside ⟨h.1, h.2.1⟩)
    · rintro ⟨-, -, two, seven, -⟩
      exact inside ⟨two, seven⟩

/-- What the native check accepts is a good group, and the other check agrees on every array that
holds `p`, unless `p` is the known prime and the tables refuse `g`. -/
theorem isGoodPrime_sound_and_agrees_iff (exact_native : Exact checkPrime)
    (exact_java : Exact isProbablePrime)
    (safe : SafePrime builtin) (p : ℕ) (g : Int32) :
    ((isGoodPrime checkPrime builtin p g.toUInt32.toNat = true → GoodGroup p g.toUInt32.toNat) ∧
        ∀ prime : List UInt8, prime.length = 256 → 128 ≤ prime.headD 0 → beNat prime = p →
          Utilities.isGoodPrime isProbablePrime builtin prime g.toInt =
            isGoodPrime checkPrime builtin p g.toUInt32.toNat) ↔
      ¬ Unchecked builtin p g.toUInt32.toNat := by
  rw [isGoodPrime_sound_iff exact_native safe]
  refine ⟨fun both => both.1, fun asked => ⟨asked, ?_⟩⟩
  rintro prime len top rfl
  exact (agree_iff exact_native exact_java len top g).2 asked

theorem sound_beside_twentyThree : goodPrime ≠ 23 ∧
    (isGoodPrime (fun n => decide n.Prime) 23 goodPrime (3 : Int32).toUInt32.toNat = true →
      GoodGroup goodPrime (3 : Int32).toUInt32.toNat) := by
  have other : goodPrime ≠ 23 := by decide +kernel
  have exact_test : Exact fun n => decide n.Prime := fun n => decide_eq_true_iff
  have safe : SafePrime 23 := ⟨by decide, by decide⟩
  refine ⟨other, ?_⟩
  apply ((isGoodPrime_sound_and_agrees_iff exact_test exact_test safe goodPrime 3).2 _).1
  exact fun unchecked => other unchecked.1

/-- The known prime is 3 modulo 8, so that 2 is no square; the native check takes it. -/
theorem not_isSquare_two : isGoodPrime (fun n => decide n.Prime) goodPrime goodPrime 2 = true ∧
    ¬ IsSquare ((2 : ℕ) : ZMod goodPrime) ∧
      Utilities.isGoodPrime (fun n => decide n.Prime) goodPrime (toBE 256 goodPrime) 2 = false := by
  have bits : bnNumBits goodPrime = 2048 := by
    rw [bnNumBits]
    decide +kernel
  refine ⟨isGoodPrime_iff.2 ⟨by decide, by decide, bits, .inl rfl⟩, ?_, by decide +kernel⟩
  have odd : Odd goodPrime := Nat.odd_iff.2 (by decide +kernel)
  have eighth : goodPrime % 8 = 3 := by decide +kernel
  have symbol : jacobiSym 2 goodPrime = -1 := by
    rw [jacobiSym.at_two odd, ZMod.χ₈_nat_eq_if_mod_eight, eighth, Nat.odd_iff.1 odd]
    decide
  exact ZMod.nonsquare_of_jacobiSym_eq_neg_one symbol

end Checks

end Mtproto.Handshake
