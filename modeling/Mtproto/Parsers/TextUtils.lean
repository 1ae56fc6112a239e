import Mtproto.Lib.Text
import Mathlib.Data.List.TakeWhile
import Mathlib.Algebra.Group.Int.Defs

/-!
# Text utilities of the generator

The Kotlin string functions that the scheme parsers use, over texts as lists of characters, and
`utils/TextUtils.kt`.  What `java.lang.Character` says about characters is a parameter (`Unicode`)
of which only the ASCII part is known.
-/

namespace Mtproto.Parsers

open Text

/-- A Kotlin string. -/
abbrev Text := List Char

section Deciding

variable {p : Char → Prop} [DecidablePred p]

-- the characters of a text are tried, not all characters there are
instance (priority := 2000) decidableForallMem (s : Text) : Decidable (∀ c ∈ s, p c) :=
  List.decidableBAll p s

instance (priority := 2000) decidableExistsMem (s : Text) : Decidable (∃ c ∈ s, p c) :=
  List.decidableBEx p s

end Deciding

/-! ## Characters -/

/-- The character tables: `isLetter`, `isDigit`, `toUpperCase` and `toLowerCase` are those of
`java.lang.Character`, `digit` is `Character.digit(c, 10)`, `isWhitespace` is Kotlin's, and
`uppercase` is `String.toUpperCase()`, which depends on the locale. -/
structure Unicode where
  isLetter : Char → Bool
  isDigit : Char → Bool
  isWhitespace : Char → Bool
  digit : Char → Option ℕ
  toUpperCase : Char → Char
  toLowerCase : Char → Char
  uppercase : Text → Text
  isLetter_ascii : ∀ c, c.toNat < 128 → isLetter c = c.isAlpha
  isDigit_ascii : ∀ c, c.toNat < 128 → isDigit c = c.isDigit
  isWhitespace_ascii : ∀ c, c.toNat < 128 →
    isWhitespace c = (9 ≤ c.toNat && c.toNat ≤ 13 || 28 ≤ c.toNat && c.toNat ≤ 32)
  digit_ascii : ∀ c, c.toNat < 128 → digit c = if c.isDigit then some (c.toNat - 48) else none
  toUpperCase_ascii : ∀ c, c.toNat < 128 → toUpperCase c = c.toUpper
  toLowerCase_ascii : ∀ c, c.toNat < 128 → toLowerCase c = c.toLower
  uppercase_ascii : ∀ s, (∀ c ∈ s, c.toNat < 128 ∧ c.isLower = false) → uppercase s = s

/-- The tables of a world with ASCII letters and digits only. -/
def Unicode.ascii : Unicode where
  isLetter := Char.isAlpha
  isDigit := Char.isDigit
  isWhitespace c := 9 ≤ c.toNat && c.toNat ≤ 13 || 28 ≤ c.toNat && c.toNat ≤ 32
  digit c := if c.isDigit then some (c.toNat - 48) else none
  toUpperCase := Char.toUpper
  toLowerCase := Char.toLower
  uppercase s := s.map Char.toUpper
  isLetter_ascii _ _ := rfl
  isDigit_ascii _ _ := rfl
  isWhitespace_ascii _ _ := rfl
  digit_ascii _ _ := rfl
  toUpperCase_ascii _ _ := rfl
  toLowerCase_ascii _ _ := rfl
  uppercase_ascii s h := by
    calc s.map Char.toUpper = s.map id := by
          apply List.map_congr_left
          intro c hc
          have hlower := (h c hc).2
          change (decide (97 ≤ c.val) && decide (c.val ≤ 122)) = false at hlower
          rw [Bool.and_eq_false_iff, decide_eq_false_iff_not, decide_eq_false_iff_not] at hlower
          exact dif_neg (by tauto)
      _ = s := List.map_id s

/-! ## Failures -/

/-- The exceptions that the parsers and the text utilities throw. -/
inductive Failure where
  /-- `NumberFormatException`, by `toInt`. -/
  | numberFormat (text : Text)
  /-- `IllegalArgumentException`, by `require`. -/
  | illegalArgument
  /-- `TLSchemeParseException` with one of the texts of the parsers. -/
  | scheme (rawScheme : Text) (reason : String)
  /-- `TLSchemeParseException` with another exception as the reason. -/
  | caught (rawScheme : Text) (reason : Failure)
  deriving DecidableEq, Repr

section

variable (u : Unicode)

/-! ## Kotlin strings -/

/-- `trimEnd()`. -/
def trimEnd (s : Text) : Text := (s.reverse.dropWhile u.isWhitespace).reverse

/-- `trim()`. -/
def trim (s : Text) : Text := trimEnd u (s.dropWhile u.isWhitespace)

/-- `isBlank()`. -/
def isBlank (s : Text) : Bool := s.all u.isWhitespace

/-- `equals(other, ignoreCase = true)`. -/
def equalsIgnoreCase (s t : Text) : Bool :=
  s.length == t.length && (s.zip t).all fun (c, d) =>
    u.toUpperCase c == u.toUpperCase d ||
      u.toLowerCase (u.toUpperCase c) == u.toLowerCase (u.toUpperCase d)

/-- The value of decimal digits, most significant first. -/
def digitsValue : ℕ → Text → Option ℕ
  | value, [] => some value
  | value, c :: s => (u.digit c).bind fun d => digitsValue (value * 10 + d) s

/-- `toInt()`. -/
def toInt (s : Text) : Except Failure ℤ :=
  let (sign, digits) : ℤ × Text :=
    match s with
    | '-' :: digits => (-1, digits)
    | '+' :: digits => (1, digits)
    | digits => (1, digits)
  match digits, digitsValue u 0 digits with
  | _ :: _, some value =>
      if -(2 ^ 31) ≤ sign * value ∧ sign * value < 2 ^ 31 then .ok (sign * value)
      else .error (.numberFormat s)
  | _, _ => .error (.numberFormat s)

/-! ## TextUtils.kt -/

/-- The loop of `snakeToCamelCase`: `hadWhiteSpace` is set while characters are dropped. -/
def camelCaseLoop (hadWhiteSpace : Bool) : Text → Text
  | [] => []
  | c :: s =>
      if hadWhiteSpace then
        if u.isLetter c || u.isDigit c then u.toUpperCase c :: camelCaseLoop false s
        else camelCaseLoop true s
      else if !u.isLetter c && !u.isDigit c then camelCaseLoop true s
      else c :: camelCaseLoop false s

def snakeToCamelCase (string : Text) : Text := camelCaseLoop u false string

def camelToTitleCase (string : Text) : Except Failure Text :=
  if isBlank u string then .error .illegalArgument
  else match string with
    | [] => .ok []
    | c :: s => .ok (u.toUpperCase c :: s)

def snakeToTitleCase (string : Text) : Except Failure Text :=
  camelToTitleCase u (snakeToCamelCase u string)

/-! ## Blanks -/

/-- The number of characters that are not blank. -/
def solid (s : Text) : ℕ := s.countP fun c => !u.isWhitespace c

variable {u}

theorem solid_append (s t : Text) : solid u (s ++ t) = solid u s + solid u t := List.countP_append

theorem isBlank_iff {s : Text} : isBlank u s = true ↔ solid u s = 0 := by
  simp [isBlank, solid, List.countP_eq_zero]

theorem dropWhile_of_blank {s : Text} (h : solid u s = 0) : s.dropWhile u.isWhitespace = [] := by
  rw [List.dropWhile_eq_nil_iff]
  exact List.all_eq_true.1 (isBlank_iff.2 h)

theorem solid_takeWhile (s : Text) : solid u (s.takeWhile u.isWhitespace) = 0 := by
  rw [solid, List.countP_eq_zero]
  intro c hc
  simp [List.mem_takeWhile_imp hc]

theorem isWhitespace_of_dropWhile {s t : Text} {c : Char}
    (h : s.dropWhile u.isWhitespace = c :: t) :
    u.isWhitespace c = false := by
  have hhead := List.head?_dropWhile_not u.isWhitespace s
  rw [h] at hhead
  simpa using hhead

theorem isWhitespace_space : u.isWhitespace ' ' = true := by
  rw [u.isWhitespace_ascii _ (by decide)]
  decide

theorem trim_blank_append {b : Text} (h : solid u b = 0) (s : Text) :
    trim u (b ++ s) = trim u s := by
  rw [trim, trim, List.dropWhile_append, dropWhile_of_blank h]
  rfl

theorem trim_of_blank {s : Text} (h : solid u s = 0) : trim u s = [] := by
  rw [trim, dropWhile_of_blank h]
  rfl

/-- Only blanks are trimmed. -/
theorem eq_trimEnd_append (s : Text) : ∃ e, solid u e = 0 ∧ s = trimEnd u s ++ e := by
  refine ⟨(s.reverse.takeWhile u.isWhitespace).reverse, ?_, ?_⟩
  · rw [solid, List.countP_reverse]
    exact solid_takeWhile s.reverse
  · rw [trimEnd, ← List.reverse_append, List.takeWhile_append_dropWhile, List.reverse_reverse]

theorem solid_trimEnd (s : Text) : solid u (trimEnd u s) = solid u s := by
  obtain ⟨e, he, hs⟩ := eq_trimEnd_append (u := u) s
  have hsum := congrArg (solid u) hs
  rw [solid_append, he] at hsum
  exact hsum.symm

theorem solid_trim (s : Text) : solid u (trim u s) = solid u s := by
  have hsum := congrArg (solid u) (List.takeWhile_append_dropWhile (p := u.isWhitespace) (l := s))
  rw [solid_append, solid_takeWhile, Nat.zero_add] at hsum
  rw [trim, solid_trimEnd, hsum]

/-- A text that ends in a letter keeps its end. -/
theorem trimEnd_append {s : Text} {c : Char} (hc : u.isWhitespace c = false) (t : Text) :
    trimEnd u (s ++ c :: t) = s ++ c :: trimEnd u t := by
  rw [trimEnd, trimEnd, List.reverse_append, List.reverse_cons, List.append_assoc,
    List.dropWhile_append]
  split
  · next hempty =>
      rw [List.isEmpty_iff] at hempty
      simp [hempty, hc]
  · simp

/-- Trimming the end leaves the blanks at the front. -/
theorem trimEnd_eq_append_trim (s : Text) : ∃ b, solid u b = 0 ∧ trimEnd u s = b ++ trim u s := by
  rcases hdrop : s.dropWhile u.isWhitespace with - | ⟨c, r⟩
  · have hblank : solid u s = 0 := by
      rw [← solid_trim, trim, hdrop]
      rfl
    refine ⟨[], rfl, ?_⟩
    rw [trim_of_blank hblank, trimEnd,
      dropWhile_of_blank (by rw [solid, List.countP_reverse]; exact hblank)]
    rfl
  · have hc := isWhitespace_of_dropWhile hdrop
    refine ⟨s.takeWhile u.isWhitespace, solid_takeWhile s, ?_⟩
    have hs : s = s.takeWhile u.isWhitespace ++ c :: r := by
      rw [← hdrop, List.takeWhile_append_dropWhile]
    have htrim : trim u s = c :: trimEnd u r := by
      rw [trim, hdrop]
      exact trimEnd_append (s := []) hc r
    rw [htrim, ← trimEnd_append hc, ← hs]

theorem trim_isInfix (s : Text) : trim u s <:+: s := by
  obtain ⟨e, -, hs⟩ := eq_trimEnd_append (u := u) (s.dropWhile u.isWhitespace)
  have hfront : trim u s <+: s.dropWhile u.isWhitespace := ⟨e, hs.symm⟩
  exact hfront.isInfix.trans (List.dropWhile_suffix u.isWhitespace).isInfix

/-- A trimmed text does not start with a blank. -/
theorem isWhitespace_of_trim {s t : Text} {c : Char} (h : trim u s = c :: t) :
    u.isWhitespace c = false := by
  rcases hdrop : s.dropWhile u.isWhitespace with - | ⟨d, r⟩
  · rw [trim, hdrop] at h
    cases h
  · have hd := isWhitespace_of_dropWhile hdrop
    rw [trim, hdrop, ← List.nil_append (d :: r), trimEnd_append hd] at h
    cases h
    exact hd

/-- A text that is not empty and has no blank at its ends. -/
structure Trimmed (u : Unicode) (s : Text) : Prop where
  ne_nil : s ≠ []
  head : ∀ c ∈ s.head?, u.isWhitespace c = false
  last : ∀ c ∈ s.getLast?, u.isWhitespace c = false

theorem Trimmed.isBlank_eq_false {s : Text} (hs : Trimmed u s) : isBlank u s = false := by
  obtain ⟨c, t, rfl⟩ := List.exists_cons_of_ne_nil hs.ne_nil
  simp [isBlank, hs.head c rfl]

theorem Trimmed.append {s m t : Text} (hs : Trimmed u s) (ht : Trimmed u t) :
    Trimmed u (s ++ (m ++ t)) where
  ne_nil := by simp [hs.ne_nil]
  head c hc := by
    rw [List.head?_append_of_ne_nil _ hs.ne_nil] at hc
    exact hs.head c hc
  last c hc := by
    rw [← List.append_assoc, List.getLast?_append_of_ne_nil _ ht.ne_nil] at hc
    exact ht.last c hc

/-- Blanks around a trimmed text are removed. -/
theorem Trimmed.trim_eq {b s e : Text} (hs : Trimmed u s) (hb : solid u b = 0)
    (he : solid u e = 0) :
    trim u (b ++ (s ++ e)) = s := by
  obtain ⟨c, t, rfl⟩ := List.exists_cons_of_ne_nil hs.ne_nil
  have hc : u.isWhitespace c = false := hs.head c rfl
  obtain ⟨init, d, hcs⟩ : ∃ init d, c :: t = init ++ [d] :=
    ⟨_, _, (List.dropLast_append_getLast hs.ne_nil).symm⟩
  have hd : u.isWhitespace d = false := by
    apply hs.last
    rw [hcs]
    simp
  have hend : trimEnd u e = [] := by
    rw [trimEnd, dropWhile_of_blank (by rw [solid, List.countP_reverse]; exact he)]
    rfl
  rw [trim_blank_append hb, trim, List.cons_append, List.dropWhile_cons_of_neg (by simp [hc]),
    ← List.cons_append, hcs, List.append_assoc, List.singleton_append, trimEnd_append hd, hend]

end

end Mtproto.Parsers
