import Mathlib.Data.List.Basic

/-!
# Infinite garble extension

A mode of a block cipher that remembers the last block of the encrypted text and the last block of
the plain one: a block meets the first before the cipher and the second behind it.  Nothing here
knows the blocks or the cipher.
-/

namespace Mtproto.Lib

/-- A block cipher, with the addition of its blocks. -/
structure BlockCipher (β : Type) where
  add : β → β → β
  encrypt : β → β
  decrypt : β → β
  add_add : ∀ a b, add (add a b) b = a
  decrypt_encrypt : ∀ b, decrypt (encrypt b) = b

namespace Garble

variable {β : Type}

/-- The last block of either text. -/
structure Chain (β : Type) where
  hidden : β
  plain : β
deriving DecidableEq, Repr

variable (cipher : BlockCipher β)

/-- The encrypted text of a plain one, and the chain behind it. -/
def encrypt : Chain β → List β → List β × Chain β
  | chain, [] => ([], chain)
  | chain, b :: bs =>
      let hidden := cipher.add (cipher.encrypt (cipher.add b chain.hidden)) chain.plain
      let rest := encrypt ⟨hidden, b⟩ bs
      (hidden :: rest.1, rest.2)

/-- The plain text of an encrypted one, and the chain behind it. -/
def decrypt : Chain β → List β → List β × Chain β
  | chain, [] => ([], chain)
  | chain, b :: bs =>
      let plain := cipher.add (cipher.decrypt (cipher.add b chain.plain)) chain.hidden
      let rest := decrypt ⟨b, plain⟩ bs
      (plain :: rest.1, rest.2)

variable {cipher}

@[simp] theorem length_encrypt (chain : Chain β) (bs : List β) :
    (encrypt cipher chain bs).1.length = bs.length := by
  induction bs generalizing chain with
  | nil => rfl
  | cons b bs ih => rw [encrypt, List.length_cons, ih, List.length_cons]

@[simp] theorem length_decrypt (chain : Chain β) (bs : List β) :
    (decrypt cipher chain bs).1.length = bs.length := by
  induction bs generalizing chain with
  | nil => rfl
  | cons b bs ih => rw [decrypt, List.length_cons, ih, List.length_cons]

/-- A text in two pieces: the second goes on with the chain of the first. -/
theorem decrypt_append (chain : Chain β) (bs cs : List β) :
    decrypt cipher chain (bs ++ cs) =
      ((decrypt cipher chain bs).1 ++ (decrypt cipher (decrypt cipher chain bs).2 cs).1,
        (decrypt cipher (decrypt cipher chain bs).2 cs).2) := by
  induction bs generalizing chain with
  | nil => rfl
  | cons b bs ih => rw [List.cons_append, decrypt, ih, decrypt, List.cons_append]

/-- Decrypting gives the text back and ends with the same chain. -/
theorem decrypt_encrypt (chain : Chain β) (bs : List β) :
    decrypt cipher chain (encrypt cipher chain bs).1 = (bs, (encrypt cipher chain bs).2) := by
  induction bs generalizing chain with
  | nil => rfl
  | cons b bs ih =>
      have plain : cipher.add (cipher.decrypt (cipher.add (cipher.add (cipher.encrypt
          (cipher.add b chain.hidden)) chain.plain) chain.plain)) chain.hidden = b := by
        rw [cipher.add_add, cipher.decrypt_encrypt, cipher.add_add]
      rw [encrypt, decrypt, plain, ih]

end Garble

end Mtproto.Lib
