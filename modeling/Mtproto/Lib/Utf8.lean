import Mtproto.Lib.Utf16

/-!
# Well-formed UTF-8

A list of bytes is well formed if it is the concatenation of the shortest encodings of Unicode
scalar values, so there are no overlong forms, no surrogates and nothing above U+10FFFF in it.
`Sequence` is the table of the byte ranges of one character, and `wellFormed_cons` takes the first
character off by its first byte.
-/

namespace Mtproto.Utf8

/-- The bytes are the encodings of scalar values, one behind the other. -/
def WellFormed (data : List UInt8) : Prop :=
  ∃ characters : List Char, data = characters.flatMap String.utf8EncodeChar

/-- A continuation byte. -/
def IsTail (b : UInt8) : Prop := 0x80 ≤ b.toNat ∧ b.toNat ≤ 0xbf

theorem IsTail.ne_zero {b : UInt8} (tail : IsTail b) : b.toNat ≠ 0 := by
  have least := tail.1
  omega

/-- The bytes of one character. -/
inductive Sequence : List UInt8 → Prop
  | one {a : UInt8} (ascii : a.toNat ≤ 0x7f) : Sequence [a]
  | two {a b : UInt8} (lead : 0xc2 ≤ a.toNat ∧ a.toNat ≤ 0xdf) (second : IsTail b) : Sequence [a, b]
  | three {a b c : UInt8} (lead : 0xe0 ≤ a.toNat ∧ a.toNat ≤ 0xef) (second : IsTail b)
      (third : IsTail c)
      (shortest : a.toNat = 0xe0 → 0xa0 ≤ b.toNat) (scalar : a.toNat = 0xed → b.toNat ≤ 0x9f) :
        Sequence [a, b, c]
  | four {a b c d : UInt8} (lead : 0xf0 ≤ a.toNat ∧ a.toNat ≤ 0xf4) (second : IsTail b)
      (third : IsTail c)
      (fourth : IsTail d) (shortest : a.toNat = 0xf0 → 0x90 ≤ b.toNat)
        (scalar : a.toNat = 0xf4 → b.toNat ≤ 0x8f) :
      Sequence [a, b, c, d]

/-! ## Characters and their bytes -/

theorem isValidChar_toNat (c : Char) : c.val.toNat.isValidChar := c.valid

/-- The encoding of a character is in the table. -/
theorem sequence_utf8EncodeChar (c : Char) : Sequence (String.utf8EncodeChar c) := by
  have scalar := isValidChar_toNat c
  simp only [Nat.isValidChar] at scalar
  simp only [String.utf8EncodeChar]
  generalize c.val.toNat = v at scalar
  split_ifs with small medium large
  · refine .one ?_
    rw [UInt8.toNat_ofNat']
    omega
  · refine .two ?_ ?_
    · rw [UInt8.toNat_ofNat']
      omega
    · rw [IsTail, UInt8.toNat_ofNat']
      omega
  · refine .three ?_ ?_ ?_ ?_ ?_
    · rw [UInt8.toNat_ofNat']
      omega
    · rw [IsTail, UInt8.toNat_ofNat']
      omega
    · rw [IsTail, UInt8.toNat_ofNat']
      omega
    · rw [UInt8.toNat_ofNat', UInt8.toNat_ofNat']
      omega
    · rw [UInt8.toNat_ofNat', UInt8.toNat_ofNat']
      omega
  · refine .four ?_ ?_ ?_ ?_ ?_ ?_
    · rw [UInt8.toNat_ofNat']
      omega
    · rw [IsTail, UInt8.toNat_ofNat']
      omega
    · rw [IsTail, UInt8.toNat_ofNat']
      omega
    · rw [IsTail, UInt8.toNat_ofNat']
      omega
    · rw [UInt8.toNat_ofNat', UInt8.toNat_ofNat']
      omega
    · rw [UInt8.toNat_ofNat', UInt8.toNat_ofNat']
      omega

theorem ofNat_eq_of_toNat {n : ℕ} {b : UInt8} (same : n = b.toNat) : UInt8.ofNat n = b := by
  rw [same, UInt8.ofNat_toNat]

theorem exists_char_toNat {v : ℕ} (valid : v.isValidChar) : ∃ c : Char, c.val.toNat = v :=
  ⟨Char.ofNat v, Utf16.toNat_ofNat_of_valid valid⟩

/-- What is in the table is the encoding of a character. -/
theorem exists_char {data : List UInt8} (sequence : Sequence data) :
    ∃ c, String.utf8EncodeChar c = data := by
  cases sequence with
  | @one a ascii =>
      have valid : a.toNat.isValidChar := .inl (by omega)
      obtain ⟨character, value⟩ := exists_char_toNat valid
      refine ⟨character, ?_⟩
      simp only [String.utf8EncodeChar, value]
      rw [if_pos ascii, ofNat_eq_of_toNat rfl]
  | @two a b lead second =>
      obtain ⟨least, most⟩ := second
      have valid : ((a.toNat - 0xc0) * 64 + (b.toNat - 0x80)).isValidChar := .inl (by omega)
      obtain ⟨character, value⟩ := exists_char_toNat valid
      refine ⟨character, ?_⟩
      simp only [String.utf8EncodeChar, value]
      rw [if_neg (by omega), if_pos (by omega), ofNat_eq_of_toNat (b := a) (by omega),
        ofNat_eq_of_toNat (b := b) (by omega)]
  | @three a b c lead second third shortest scalar =>
      obtain ⟨least, most⟩ := second
      obtain ⟨least', most'⟩ := third
      have valid :
          ((a.toNat - 0xe0) * 4096 + (b.toNat - 0x80) * 64 + (c.toNat - 0x80)).isValidChar := by
        simp only [Nat.isValidChar]
        omega
      obtain ⟨character, value⟩ := exists_char_toNat valid
      refine ⟨character, ?_⟩
      simp only [String.utf8EncodeChar, value]
      rw [if_neg (by omega), if_neg (by omega), if_pos (by omega),
        ofNat_eq_of_toNat (b := a) (by omega), ofNat_eq_of_toNat (b := b) (by omega),
        ofNat_eq_of_toNat (b := c) (by omega)]
  | @four a b c d lead second third fourth shortest scalar =>
      obtain ⟨least, most⟩ := second
      obtain ⟨least', most'⟩ := third
      obtain ⟨least'', most''⟩ := fourth
      have valid : ((a.toNat - 0xf0) * 262144 + (b.toNat - 0x80) * 4096 + (c.toNat - 0x80) * 64 +
          (d.toNat - 0x80)).isValidChar := .inr (by omega)
      obtain ⟨character, value⟩ := exists_char_toNat valid
      refine ⟨character, ?_⟩
      simp only [String.utf8EncodeChar, value]
      rw [if_neg (by omega), if_neg (by omega), if_neg (by omega),
        ofNat_eq_of_toNat (b := a) (by omega), ofNat_eq_of_toNat (b := b) (by omega),
        ofNat_eq_of_toNat (b := c) (by omega), ofNat_eq_of_toNat (b := d) (by omega)]

/-! ## The first character -/

theorem wellFormed_nil : WellFormed [] := ⟨[], rfl⟩

theorem Sequence.append {first rest : List UInt8} (sequence : Sequence first)
    (formed : WellFormed rest) :
    WellFormed (first ++ rest) := by
  obtain ⟨c, rfl⟩ := exists_char sequence
  obtain ⟨characters, rfl⟩ := formed
  exact ⟨c :: characters, List.flatMap_cons.symm⟩

/-- What is not empty begins with a character. -/
theorem WellFormed.exists_sequence {a : UInt8} {data : List UInt8}
    (formed : WellFormed (a :: data)) :
    ∃ first rest, a :: data = first ++ rest ∧ Sequence first ∧ WellFormed rest := by
  obtain ⟨characters, same⟩ := formed
  cases characters with
  | nil => cases same
  | cons c characters =>
      rw [List.flatMap_cons] at same
      exact ⟨_, _, same, sequence_utf8EncodeChar c, characters, rfl⟩

section First

variable {a b c d : UInt8} {data : List UInt8}

theorem wellFormed_cons_one (ascii : a.toNat ≤ 0x7f) :
    WellFormed (a :: data) ↔ WellFormed data := by
  constructor
  · intro formed
    obtain ⟨first, rest, same, sequence, behind⟩ := formed.exists_sequence
    cases sequence with
    | one =>
        obtain ⟨-, rfl⟩ := List.cons_eq_cons.1 same
        exact behind
    | _ =>
        obtain ⟨rfl, -⟩ := List.cons_eq_cons.1 same
        omega
  · exact (Sequence.one ascii).append

theorem not_wellFormed_cons (alone : 0x80 ≤ a.toNat ∧ a.toNat ≤ 0xbf ∨ 0xf8 ≤ a.toNat) :
    ¬ WellFormed (a :: data) := by
  intro formed
  obtain ⟨first, rest, same, sequence, -⟩ := formed.exists_sequence
  cases sequence with
  | _ =>
      obtain ⟨rfl, -⟩ := List.cons_eq_cons.1 same
      omega

/-- Behind a first byte that is not ASCII there is a continuation byte. -/
theorem WellFormed.second (formed : WellFormed (a :: data)) (lead : 0xc0 ≤ a.toNat) :
    ∃ b rest, data = b :: rest ∧ IsTail b := by
  obtain ⟨first, rest, same, sequence, -⟩ := formed.exists_sequence
  cases sequence with
  | one =>
      obtain ⟨rfl, -⟩ := List.cons_eq_cons.1 same
      omega
  | two _ second | three _ second | four _ second =>
      obtain ⟨rfl, rfl⟩ := List.cons_eq_cons.1 same
      exact ⟨_, _, rfl, second⟩

theorem WellFormed.third (formed : WellFormed (a :: data)) (lead : 0xe0 ≤ a.toNat) :
    ∃ b c rest, data = b :: c :: rest ∧ IsTail c := by
  obtain ⟨first, rest, same, sequence, -⟩ := formed.exists_sequence
  cases sequence with
  | one | two =>
      obtain ⟨rfl, -⟩ := List.cons_eq_cons.1 same
      omega
  | three _ _ third | four _ _ third =>
      obtain ⟨rfl, rfl⟩ := List.cons_eq_cons.1 same
      exact ⟨_, _, _, rfl, third⟩

theorem WellFormed.fourth (formed : WellFormed (a :: data)) (lead : 0xf0 ≤ a.toNat) :
    ∃ b c d rest, data = b :: c :: d :: rest ∧ IsTail d := by
  obtain ⟨first, rest, same, sequence, -⟩ := formed.exists_sequence
  cases sequence with
  | one | two | three =>
      obtain ⟨rfl, -⟩ := List.cons_eq_cons.1 same
      omega
  | four _ _ _ fourth =>
      obtain ⟨rfl, rfl⟩ := List.cons_eq_cons.1 same
      exact ⟨_, _, _, _, rfl, fourth⟩

theorem wellFormed_cons_two (lead : 0xc0 ≤ a.toNat ∧ a.toNat ≤ 0xdf) (second : IsTail b) :
    WellFormed (a :: b :: data) ↔ 0xc2 ≤ a.toNat ∧ WellFormed data := by
  constructor
  · intro formed
    obtain ⟨first, rest, same, sequence, behind⟩ := formed.exists_sequence
    cases sequence with
    | two lead =>
        simp only [List.cons_append, List.nil_append, List.cons_eq_cons] at same
        obtain ⟨rfl, -, rfl⟩ := same
        exact ⟨lead.1, behind⟩
    | _ =>
        obtain ⟨rfl, -⟩ := List.cons_eq_cons.1 same
        omega
  · rintro ⟨least, formed⟩
    exact (Sequence.two ⟨least, lead.2⟩ second).append formed

theorem wellFormed_cons_three (lead : 0xe0 ≤ a.toNat ∧ a.toNat ≤ 0xef) (second : IsTail b)
    (third : IsTail c) :
    WellFormed (a :: b :: c :: data) ↔
      ((a.toNat = 0xe0 → 0xa0 ≤ b.toNat) ∧ (a.toNat = 0xed → b.toNat ≤ 0x9f)) ∧
        WellFormed data := by
  constructor
  · intro formed
    obtain ⟨first, rest, same, sequence, behind⟩ := formed.exists_sequence
    cases sequence with
    | three _ _ _ shortest scalar =>
        simp only [List.cons_append, List.nil_append, List.cons_eq_cons] at same
        obtain ⟨rfl, rfl, -, rfl⟩ := same
        exact ⟨⟨shortest, scalar⟩, behind⟩
    | _ =>
        obtain ⟨rfl, -⟩ := List.cons_eq_cons.1 same
        omega
  · rintro ⟨⟨shortest, scalar⟩, formed⟩
    exact (Sequence.three lead second third shortest scalar).append formed

theorem wellFormed_cons_four (lead : 0xf0 ≤ a.toNat ∧ a.toNat ≤ 0xf7) (second : IsTail b)
    (third : IsTail c)
    (fourth : IsTail d) :
    WellFormed (a :: b :: c :: d :: data) ↔
      (a.toNat ≤ 0xf4 ∧ (a.toNat = 0xf0 → 0x90 ≤ b.toNat) ∧ (a.toNat = 0xf4 → b.toNat ≤ 0x8f)) ∧
        WellFormed data := by
  constructor
  · intro formed
    obtain ⟨first, rest, same, sequence, behind⟩ := formed.exists_sequence
    cases sequence with
    | four lead _ _ _ shortest scalar =>
        simp only [List.cons_append, List.nil_append, List.cons_eq_cons] at same
        obtain ⟨rfl, rfl, -, -, rfl⟩ := same
        exact ⟨⟨lead.2, shortest, scalar⟩, behind⟩
    | _ =>
        obtain ⟨rfl, -⟩ := List.cons_eq_cons.1 same
        omega
  · rintro ⟨⟨most, shortest, scalar⟩, formed⟩
    exact (Sequence.four ⟨lead.1, most⟩ second third fourth shortest scalar).append formed

end First

end Mtproto.Utf8
