import Mtproto.Lib.Utf8

/-!
# `check_utf8`

The check of `TgNetWrapper.cpp` before a string is handed to the virtual machine.  The end is looked
for only behind an ASCII byte: it is the terminator, which is no continuation byte, that ends a
sequence which would run past the end.
-/

namespace Mtproto.Tgnet

open Utf8

/-- `check_utf8`, from the byte that `data` points at up to the terminator at `data_end`.  There is
no result where a byte behind the terminator is read. -/
def checkUtf8 : List UInt8 → Option Bool
  | [] => none
  | a :: data =>
      let a := a.toNat
      if a &&& 0x80 = 0 then
        -- `data == data_end + 1`
        if data = [] then some true else checkUtf8 data
      else if a &&& 0x40 = 0 then some false
      else match data with
        | [] => none
        | b :: data =>
            let b := b.toNat
            if b &&& 0xc0 ≠ 0x80 then some false
            else if a &&& 0x20 = 0 then if 0 < a &&& 0x1e then checkUtf8 data else some false
            else match data with
              | [] => none
              | c :: data =>
                  let c := c.toNat
                  if c &&& 0xc0 ≠ 0x80 then some false
                  else if a &&& 0x10 = 0 then
                    let x := (a &&& 0x0f) <<< 6 ||| b &&& 0x20
                    if x ≠ 0 ∧ x ≠ 0x360 then checkUtf8 data else some false
                  else match data with
                    | [] => none
                    | d :: data =>
                        let d := d.toNat
                        if d &&& 0xc0 ≠ 0x80 then some false
                        else if a &&& 0x08 = 0 then
                          let t := (a &&& 0x07) <<< 6 ||| b &&& 0x30
                          if 0 < t ∧ t < 0x110 then checkUtf8 data else some false
                        else some false

/-! ## The bits of the bytes -/

section Bits

variable {n m : ℕ}

theorem ascii_iff (byte : n < 256) : n &&& 0x80 = 0 ↔ n ≤ 0x7f := by
  have table : ∀ n < 256, n &&& 0x80 = 0 ↔ n ≤ 0x7f := by decide +kernel
  exact table n byte

theorem tail_iff (byte : n < 256) : n &&& 0xc0 = 0x80 ↔ 0x80 ≤ n ∧ n ≤ 0xbf := by
  have table : ∀ n < 256, n &&& 0xc0 = 0x80 ↔ 0x80 ≤ n ∧ n ≤ 0xbf := by decide +kernel
  exact table n byte

/-- The classes of the first bytes, each told from the next by one bit. -/
theorem lead_iff (byte : n < 256) :
    (0x80 ≤ n → (n &&& 0x40 = 0 ↔ n ≤ 0xbf)) ∧ (0xc0 ≤ n → (n &&& 0x20 = 0 ↔ n ≤ 0xdf)) ∧
      (0xe0 ≤ n → (n &&& 0x10 = 0 ↔ n ≤ 0xef)) ∧ (0xf0 ≤ n → (n &&& 0x08 = 0 ↔ n ≤ 0xf7)) := by
  have table : ∀ n < 256, (0x80 ≤ n → (n &&& 0x40 = 0 ↔ n ≤ 0xbf)) ∧
    (0xc0 ≤ n → (n &&& 0x20 = 0 ↔ n ≤ 0xdf)) ∧
      (0xe0 ≤ n → (n &&& 0x10 = 0 ↔ n ≤ 0xef)) ∧
        (0xf0 ≤ n → (n &&& 0x08 = 0 ↔ n ≤ 0xf7)) := by decide +kernel
  exact table n byte

theorem shortest_two_iff (lead : 0xc0 ≤ n ∧ n ≤ 0xdf) : 0 < n &&& 0x1e ↔ 0xc2 ≤ n := by
  have table : ∀ n < 0xe0, 0xc0 ≤ n → (0 < n &&& 0x1e ↔ 0xc2 ≤ n) := by decide +kernel
  exact table n (by omega) lead.1

/-- `x` is neither that of an overlong form nor that of a surrogate. -/
theorem three_iff (lead : 0xe0 ≤ n ∧ n ≤ 0xef) (second : 0x80 ≤ m ∧ m ≤ 0xbf) :
    ((n &&& 0x0f) <<< 6 ||| m &&& 0x20 ≠ 0 ∧ (n &&& 0x0f) <<< 6 ||| m &&& 0x20 ≠ 0x360) ↔
      (n = 0xe0 → 0xa0 ≤ m) ∧ (n = 0xed → m ≤ 0x9f) := by
  have table : ∀ i < 16, ∀ j < 64, (((0xe0 + i) &&& 0x0f) <<< 6 ||| (0x80 + j) &&& 0x20 ≠ 0 ∧
      ((0xe0 + i) &&& 0x0f) <<< 6 ||| (0x80 + j) &&& 0x20 ≠ 0x360) ↔
        (0xe0 + i = 0xe0 → 0xa0 ≤ 0x80 + j) ∧
          (0xe0 + i = 0xed → 0x80 + j ≤ 0x9f) := by decide +kernel
  have entry := table (n - 0xe0) (by omega) (m - 0x80) (by omega)
  rwa [Nat.add_sub_cancel' lead.1, Nat.add_sub_cancel' second.1] at entry

/-- `t` is neither that of an overlong form nor above U+10FFFF. -/
theorem four_iff (lead : 0xf0 ≤ n ∧ n ≤ 0xf7) (second : 0x80 ≤ m ∧ m ≤ 0xbf) :
    (0 < (n &&& 0x07) <<< 6 ||| m &&& 0x30 ∧ (n &&& 0x07) <<< 6 ||| m &&& 0x30 < 0x110) ↔
      n ≤ 0xf4 ∧ (n = 0xf0 → 0x90 ≤ m) ∧ (n = 0xf4 → m ≤ 0x8f) := by
  have table : ∀ i < 8, ∀ j < 64, (0 < ((0xf0 + i) &&& 0x07) <<< 6 ||| (0x80 + j) &&& 0x30 ∧
      ((0xf0 + i) &&& 0x07) <<< 6 ||| (0x80 + j) &&& 0x30 < 0x110) ↔
        0xf0 + i ≤ 0xf4 ∧ (0xf0 + i = 0xf0 → 0x90 ≤ 0x80 + j) ∧
          (0xf0 + i = 0xf4 → 0x80 + j ≤ 0x8f) := by
    decide +kernel
  have entry := table (n - 0xf0) (by omega) (m - 0x80) (by omega)
  rwa [Nat.add_sub_cancel' lead.1, Nat.add_sub_cancel' second.1] at entry

end Bits

/-! ## Text in memory -/

section Terminated

variable {a b c d : UInt8} {memory data : List UInt8}

/-- The terminator is behind a byte that is not zero. -/
theorem exists_tail (terminated : a :: memory = data ++ [0]) (nonzero : a.toNat ≠ 0) :
    ∃ rest, data = a :: rest ∧ memory = rest ++ [0] := by
  cases data with
  | nil =>
      obtain ⟨rfl, -⟩ := List.cons_eq_cons.1 terminated
      exact absurd rfl nonzero
  | cons b rest =>
      obtain ⟨rfl, rfl⟩ := List.cons_eq_cons.1 terminated
      exact ⟨rest, rfl, rfl⟩

theorem exists_tail_two (terminated : a :: b :: memory = data ++ [0]) (first : a.toNat ≠ 0)
    (second : IsTail b) :
    ∃ rest, data = a :: b :: rest ∧ memory = rest ++ [0] := by
  obtain ⟨rest, rfl, behind⟩ := exists_tail terminated first
  obtain ⟨rest', rfl, behind'⟩ := exists_tail behind second.ne_zero
  exact ⟨rest', rfl, behind'⟩

theorem exists_tail_three (terminated : a :: b :: c :: memory = data ++ [0]) (first : a.toNat ≠ 0)
    (second : IsTail b)
    (third : IsTail c) : ∃ rest, data = a :: b :: c :: rest ∧ memory = rest ++ [0] := by
  obtain ⟨rest, rfl, behind⟩ := exists_tail_two terminated first second
  obtain ⟨rest', rfl, behind'⟩ := exists_tail behind third.ne_zero
  exact ⟨rest', rfl, behind'⟩

theorem exists_tail_four (terminated : a :: b :: c :: d :: memory = data ++ [0])
    (first : a.toNat ≠ 0)
    (second : IsTail b) (third : IsTail c) (fourth : IsTail d) :
    ∃ rest, data = a :: b :: c :: d :: rest ∧ memory = rest ++ [0] := by
  obtain ⟨rest, rfl, behind⟩ := exists_tail_three terminated first second third
  obtain ⟨rest', rfl, behind'⟩ := exists_tail behind fourth.ne_zero
  exact ⟨rest', rfl, behind'⟩

/-- The next byte of the data is the next byte in memory. -/
theorem next_eq {rest : List UInt8} (terminated : a :: memory = data ++ [0])
    (next : data = b :: rest) : a = b := by
  subst next
  exact (List.cons_eq_cons.1 terminated).1

/-- The check has a result, and it is whether the data is well formed. -/
def Decides (result : Option Bool) (data : List UInt8) : Prop :=
  ∃ valid, result = some valid ∧ (valid = true ↔ WellFormed data)

theorem decides_false (malformed : ¬ WellFormed data) : Decides (some false) data :=
  ⟨false, rfl, by simp [malformed]⟩

theorem Decides.of_iff {result : Option Bool} {rest : List UInt8} (decides : Decides result rest)
    (same : WellFormed data ↔ WellFormed rest) : Decides result data := by
  obtain ⟨valid, rfl, iff⟩ := decides
  exact ⟨valid, rfl, iff.trans same.symm⟩

end Terminated

section Leads

variable {a b c d : UInt8} {rest : List UInt8}

theorem lead_of_bits (long : ¬ a.toNat &&& 0x80 = 0) (lead : ¬ a.toNat &&& 0x40 = 0) :
    0xc0 ≤ a.toNat := by
  have ascii := (ascii_iff a.toNat_lt).not.1 long
  have := ((lead_iff a.toNat_lt).1 (by omega)).not.1 lead
  omega

theorem lead_three_of_bits (lead : 0xc0 ≤ a.toNat) (long : ¬ a.toNat &&& 0x20 = 0) :
    0xe0 ≤ a.toNat := by
  have := ((lead_iff a.toNat_lt).2.1 lead).not.1 long
  omega

theorem lead_four_of_bits (lead : 0xe0 ≤ a.toNat) (long : ¬ a.toNat &&& 0x10 = 0) :
    0xf0 ≤ a.toNat := by
  have := ((lead_iff a.toNat_lt).2.2.1 lead).not.1 long
  omega

theorem isTail_of_bits (tail : ¬ b.toNat &&& 0xc0 ≠ 0x80) : IsTail b :=
  (tail_iff b.toNat_lt).1 (not_not.1 tail)

theorem not_isTail_of_bits (tail : b.toNat &&& 0xc0 ≠ 0x80) : ¬ IsTail b :=
  (tail_iff b.toNat_lt).not.1 tail

/-! The test of each class is whether its sequence is well formed, so that the rest decides. -/

theorem wellFormed_two_iff (lead : 0xc0 ≤ a.toNat) (two : a.toNat &&& 0x20 = 0)
    (second : IsTail b) :
    WellFormed (a :: b :: rest) ↔ 0 < a.toNat &&& 0x1e ∧ WellFormed rest := by
  have two := ((lead_iff a.toNat_lt).2.1 lead).1 two
  rw [wellFormed_cons_two ⟨lead, two⟩ second, shortest_two_iff ⟨lead, two⟩]

theorem wellFormed_three_iff (lead : 0xe0 ≤ a.toNat) (three : a.toNat &&& 0x10 = 0)
    (second : IsTail b)
    (third : IsTail c) :
    WellFormed (a :: b :: c :: rest) ↔ ((a.toNat &&& 0x0f) <<< 6 ||| b.toNat &&& 0x20 ≠ 0 ∧
      (a.toNat &&& 0x0f) <<< 6 ||| b.toNat &&& 0x20 ≠ 0x360) ∧ WellFormed rest := by
  have three := ((lead_iff a.toNat_lt).2.2.1 lead).1 three
  rw [wellFormed_cons_three ⟨lead, three⟩ second third, three_iff ⟨lead, three⟩ second]

theorem wellFormed_four_iff (lead : 0xf0 ≤ a.toNat) (four : a.toNat &&& 0x08 = 0)
    (second : IsTail b)
    (third : IsTail c) (fourth : IsTail d) :
    WellFormed (a :: b :: c :: d :: rest) ↔ (0 < (a.toNat &&& 0x07) <<< 6 ||| b.toNat &&& 0x30 ∧
      (a.toNat &&& 0x07) <<< 6 ||| b.toNat &&& 0x30 < 0x110) ∧ WellFormed rest := by
  have four := ((lead_iff a.toNat_lt).2.2.2 lead).1 four
  rw [wellFormed_cons_four ⟨lead, four⟩ second third fourth, four_iff ⟨lead, four⟩ second]

end Leads

/-- For data of any length with a terminator, nothing behind the terminator is read, and the result
is whether the data is well-formed UTF-8. -/
theorem checkUtf8_decides (data : List UInt8) : Decides (checkUtf8 (data ++ [0])) data := by
  generalize terminated : data ++ [0] = memory
  replace terminated := terminated.symm
  fun_induction checkUtf8 memory generalizing data with
  | case1 => simp at terminated
  | case2 a a' ascii =>
      -- the terminator itself
      cases data with
      | nil => exact ⟨true, rfl, by simp [wellFormed_nil]⟩
      | cons b rest => simp at terminated
  | case3 a memory a' ascii more ih =>
      cases data with
      | nil => exact absurd (List.cons_eq_cons.1 terminated).2 more
      | cons b rest =>
          obtain ⟨rfl, rfl⟩ := List.cons_eq_cons.1 terminated
          exact (ih rest rfl).of_iff (wellFormed_cons_one ((ascii_iff a.toNat_lt).1 ascii))
  | case4 a memory a' long alone =>
      have long := (ascii_iff a.toNat_lt).not.1 long
      obtain ⟨rest, rfl, -⟩ := exists_tail terminated (by omega)
      have alone := ((lead_iff a.toNat_lt).1 (by omega)).1 alone
      exact decides_false (not_wellFormed_cons (.inl ⟨by omega, alone⟩))
  | case5 a a' long lead =>
      have lead := lead_of_bits long lead
      obtain ⟨rest, -, nothing⟩ := exists_tail terminated (by omega)
      simp at nothing
  | case6 a a' long lead b memory b' tail =>
      have lead := lead_of_bits long lead
      obtain ⟨rest, rfl, behind⟩ := exists_tail terminated (by omega)
      refine decides_false fun formed => not_isTail_of_bits tail ?_
      obtain ⟨c, rest, next, second⟩ := formed.second lead
      rwa [next_eq behind next]
  | case7 a a' long lead b memory b' tail two shortest ih =>
      have lead := lead_of_bits long lead
      have second := isTail_of_bits tail
      obtain ⟨rest, rfl, behind⟩ := exists_tail_two terminated (by omega) second
      have sequence : WellFormed (a :: b :: rest) ↔ _ := wellFormed_two_iff lead two second
      exact (ih rest behind).of_iff (sequence.trans (and_iff_right shortest))
  | case8 a a' long lead b memory b' tail two overlong =>
      have lead := lead_of_bits long lead
      have second := isTail_of_bits tail
      obtain ⟨rest, rfl, behind⟩ := exists_tail_two terminated (by omega) second
      have sequence : WellFormed (a :: b :: rest) ↔ _ := wellFormed_two_iff lead two second
      exact decides_false fun formed => overlong (sequence.1 formed).1
  | case9 a a' long lead b b' tail long' =>
      have lead := lead_of_bits long lead
      obtain ⟨rest, -, nothing⟩ := exists_tail_two terminated (by omega) (isTail_of_bits tail)
      simp at nothing
  | case10 a a' long lead b b' tail long' c memory c' tail' =>
      have lead := lead_three_of_bits (lead_of_bits long lead) long'
      obtain ⟨rest, rfl, behind⟩ := exists_tail_two terminated (by omega) (isTail_of_bits tail)
      refine decides_false fun formed => not_isTail_of_bits tail' ?_
      obtain ⟨d, e, rest, next, third⟩ := formed.third lead
      rwa [next_eq behind (List.cons_eq_cons.1 next).2]
  | case11 a a' long lead b b' tail long' c memory c' tail' three x scalar ih =>
      have lead := lead_three_of_bits (lead_of_bits long lead) long'
      have second := isTail_of_bits tail
      have third := isTail_of_bits tail'
      obtain ⟨rest, rfl, behind⟩ := exists_tail_three terminated (by omega) second third
      have sequence : WellFormed (a :: b :: c :: rest) ↔
        _ := wellFormed_three_iff lead three second third
      exact (ih rest behind).of_iff (sequence.trans (and_iff_right scalar))
  | case12 a a' long lead b b' tail long' c memory c' tail' three x malformed =>
      have lead := lead_three_of_bits (lead_of_bits long lead) long'
      have second := isTail_of_bits tail
      have third := isTail_of_bits tail'
      obtain ⟨rest, rfl, behind⟩ := exists_tail_three terminated (by omega) second third
      have sequence : WellFormed (a :: b :: c :: rest) ↔
        _ := wellFormed_three_iff lead three second third
      exact decides_false fun formed => malformed (sequence.1 formed).1
  | case13 a a' long lead b b' tail long' c c' tail' long'' =>
      have lead := lead_of_bits long lead
      obtain ⟨rest, -, nothing⟩ :=
        exists_tail_three terminated (by omega) (isTail_of_bits tail) (isTail_of_bits tail')
      simp at nothing
  | case14 a a' long lead b b' tail long' c c' tail' long'' d memory d' tail'' =>
      have lead := lead_four_of_bits (lead_three_of_bits (lead_of_bits long lead) long') long''
      obtain ⟨rest, rfl, behind⟩ :=
        exists_tail_three terminated (by omega) (isTail_of_bits tail) (isTail_of_bits tail')
      refine decides_false fun formed => not_isTail_of_bits tail'' ?_
      obtain ⟨e, f, g, rest, next, fourth⟩ := formed.fourth lead
      simp only [List.cons_eq_cons] at next
      rwa [next_eq behind next.2.2]
  | case15 a a' long lead b b' tail long' c c' tail' long'' d memory d' tail'' four t scalar ih =>
      have lead := lead_four_of_bits (lead_three_of_bits (lead_of_bits long lead) long') long''
      have second := isTail_of_bits tail
      have third := isTail_of_bits tail'
      have fourth := isTail_of_bits tail''
      obtain ⟨rest, rfl, behind⟩ := exists_tail_four terminated (by omega) second third fourth
      have sequence : WellFormed (a :: b :: c :: d :: rest) ↔ _ :=
        wellFormed_four_iff lead four second third fourth
      exact (ih rest behind).of_iff (sequence.trans (and_iff_right scalar))
  | case16 a a' long lead b b' tail long' c c' tail' long'' d memory d' tail'' four t malformed =>
      have lead := lead_four_of_bits (lead_three_of_bits (lead_of_bits long lead) long') long''
      have second := isTail_of_bits tail
      have third := isTail_of_bits tail'
      have fourth := isTail_of_bits tail''
      obtain ⟨rest, rfl, behind⟩ := exists_tail_four terminated (by omega) second third fourth
      have sequence : WellFormed (a :: b :: c :: d :: rest) ↔ _ :=
        wellFormed_four_iff lead four second third fourth
      exact decides_false fun formed => malformed (sequence.1 formed).1
  | case17 a a' long lead b b' tail long' c c' tail' long'' d memory d' tail'' alone =>
      have lead := lead_four_of_bits (lead_three_of_bits (lead_of_bits long lead) long') long''
      have above := ((lead_iff a.toNat_lt).2.2.2 lead).not.1 alone
      obtain ⟨rest, rfl, -⟩ := exists_tail terminated (by omega)
      exact decides_false (not_wellFormed_cons (.inr (by omega)))

end Mtproto.Tgnet
