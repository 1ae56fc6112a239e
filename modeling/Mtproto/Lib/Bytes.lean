import Mathlib.Data.List.Basic
import Mathlib.Data.Nat.Bitwise

/-!
# Bytes and fixed-width words

Little- and big-endian readings of a list of bytes as a natural number, the fixed-width encodings
that invert them, and the overwriting of a range of a byte list.  Nothing here knows about a
particular format.
-/

namespace Mtproto.Bytes

/-! ## Reading and writing words -/

/-- The number whose little-endian bytes are `bs`. -/
def leNat : List UInt8 → ℕ
  | [] => 0
  | b :: bs => b.toNat + 256 * leNat bs

/-- The number whose big-endian bytes are `bs`. -/
def beNat (bs : List UInt8) : ℕ := leNat bs.reverse

/-- The `width` low-order bytes of `n`, lowest first. -/
def toLE : ℕ → ℕ → List UInt8
  | 0, _ => []
  | width + 1, n => UInt8.ofNat n :: toLE width (n / 256)

/-- The `width` low-order bytes of `n`, highest first. -/
def toBE (width n : ℕ) : List UInt8 := (toLE width n).reverse

@[simp] theorem length_toLE (width n : ℕ) : (toLE width n).length = width := by
  induction width generalizing n with
  | zero => rfl
  | succ width ih => simp [toLE, ih]

@[simp] theorem length_toBE (width n : ℕ) : (toBE width n).length = width := by
  simp [toBE]

theorem leNat_lt (bs : List UInt8) : leNat bs < 256 ^ bs.length := by
  induction bs with
  | nil => simp [leNat]
  | cons b bs ih =>
    have hb : b.toNat < 256 := b.toNat_lt
    simp only [leNat, List.length_cons, Nat.pow_succ]
    omega

theorem leNat_toLE (width n : ℕ) : leNat (toLE width n) = n % 256 ^ width := by
  induction width generalizing n with
  | zero => simp [toLE, leNat, Nat.mod_one]
  | succ width ih =>
    have hb : (UInt8.ofNat n).toNat = n % 256 := by simp
    rw [toLE, leNat, ih, hb, Nat.pow_succ, Nat.mul_comm (256 ^ width) 256, Nat.mod_mul]

theorem leNat_toLE_of_lt {width n : ℕ} (h : n < 256 ^ width) : leNat (toLE width n) = n := by
  rw [leNat_toLE, Nat.mod_eq_of_lt h]

theorem beNat_toBE_of_lt {width n : ℕ} (h : n < 256 ^ width) : beNat (toBE width n) = n := by
  rw [beNat, toBE, List.reverse_reverse, leNat_toLE_of_lt h]

/-- Three bytes by shifts. -/
theorem toLE_three (n : ℕ) :
    toLE 3 n = [UInt8.ofNat n, UInt8.ofNat (n >>> 8), UInt8.ofNat (n >>> 16)] := by
  simp only [toLE, Nat.shiftRight_eq_div_pow, Nat.div_div_eq_div_mul]

theorem leNat_append (bs cs : List UInt8) :
    leNat (bs ++ cs) = leNat bs + 256 ^ bs.length * leNat cs := by
  induction bs with
  | nil => simp [leNat]
  | cons b bs ih =>
    rw [List.cons_append, leNat, ih, leNat, List.length_cons, Nat.pow_succ, Nat.mul_add,
      ← Nat.add_assoc, Nat.mul_comm (256 ^ bs.length) 256, Nat.mul_assoc]

/-! ## Overwriting -/

/-- `bs` with `src` copied over the bytes from index `pos` on. -/
def splice (bs : List UInt8) (pos : ℕ) (src : List UInt8) : List UInt8 :=
  bs.take pos ++ src ++ bs.drop (pos + src.length)

theorem length_splice {bs src : List UInt8} {pos : ℕ} (h : pos + src.length ≤ bs.length) :
    (splice bs pos src).length = bs.length := by
  simp only [splice, List.length_append, List.length_take, List.length_drop]
  omega

theorem take_splice {bs src : List UInt8} {pos : ℕ} (h : pos ≤ bs.length) :
    (splice bs pos src).take (pos + src.length) = bs.take pos ++ src := by
  have hlen : (bs.take pos ++ src).length = pos + src.length := by
    simp only [List.length_append, List.length_take]
    omega
  rw [splice, ← hlen, List.take_left]

theorem take_splice_of_le {bs src : List UInt8} {pos n : ℕ} (hn : n ≤ pos) (h : pos ≤ bs.length) :
    (splice bs pos src).take n = bs.take n := by
  have hlen : n ≤ (bs.take pos).length := by
    rw [List.length_take]
    omega
  rw [splice, List.append_assoc, List.take_append_of_le_length hlen, List.take_take,
    Nat.min_eq_left hn]

theorem drop_splice {bs src : List UInt8} {pos n : ℕ} (h : pos ≤ bs.length)
    (hn : pos + src.length ≤ n) :
    (splice bs pos src).drop n = bs.drop n := by
  have hlen : (bs.take pos ++ src).length = pos + src.length := by
    simp only [List.length_append, List.length_take]
    omega
  rw [splice, List.drop_append, hlen, List.drop_of_length_le (by omega), List.nil_append,
    List.drop_drop]
  congr 1
  omega

/-- Two ranges that follow each other are one range. -/
theorem splice_splice {bs src src' : List UInt8} {pos : ℕ} (h : pos ≤ bs.length) :
    splice (splice bs pos src) (pos + src.length) src' = splice bs pos (src ++ src') := by
  rw [splice, take_splice h, drop_splice h (by omega), splice, List.length_append,
    List.append_assoc (bs.take pos), Nat.add_assoc]

@[simp] theorem splice_nil (bs : List UInt8) (pos : ℕ) : splice bs pos [] = bs := by
  simp [splice]

end Mtproto.Bytes
