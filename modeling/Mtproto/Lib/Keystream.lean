import Mathlib.Data.List.Basic

/-!
# Keystreams

A stream cipher adds a keystream to the bytes that pass through it.  Nothing here knows where the
keystream comes from: it is a function of the position.
-/

namespace Mtproto.Keystream

/-- The bytes with the keystream from a position on. -/
def xorAt (keystream : ℕ → UInt8) : ℕ → List UInt8 → List UInt8
  | _, [] => []
  | position, b :: bs => (b ^^^ keystream position) :: xorAt keystream (position + 1) bs

variable {keystream : ℕ → UInt8}

@[simp] theorem length_xorAt (position : ℕ) (bs : List UInt8) :
    (xorAt keystream position bs).length = bs.length := by
  induction bs generalizing position with
  | nil => rfl
  | cons b bs ih => rw [xorAt, List.length_cons, ih, List.length_cons]

theorem xorAt_append (position : ℕ) (bs cs : List UInt8) :
    xorAt keystream position (bs ++ cs) =
      xorAt keystream position bs ++ xorAt keystream (position + bs.length) cs := by
  induction bs generalizing position with
  | nil => rfl
  | cons b bs ih =>
      have hnext : position + 1 + bs.length = position + (b :: bs).length := by
        rw [List.length_cons]
        omega
      rw [List.cons_append, xorAt, xorAt, ih, hnext, List.cons_append]

/-- The keystream takes itself off again. -/
@[simp] theorem xorAt_xorAt (position : ℕ) (bs : List UInt8) :
    xorAt keystream position (xorAt keystream position bs) = bs := by
  induction bs generalizing position with
  | nil => rfl
  | cons b bs ih => rw [xorAt, xorAt, ih, UInt8.xor_assoc, UInt8.xor_self, UInt8.xor_zero]

theorem drop_xorAt (position n : ℕ) (bs : List UInt8) :
    (xorAt keystream position bs).drop n = xorAt keystream (position + n) (bs.drop n) := by
  induction n generalizing position bs with
  | zero => rfl
  | succ n ih =>
      cases bs with
      | nil => rfl
      | cons b bs =>
          have hnext : position + 1 + n = position + (n + 1) := by omega
          rw [xorAt, List.drop_succ_cons, ih, hnext, List.drop_succ_cons]

end Mtproto.Keystream
