import Mtproto.Parsers.Composition

/-!
# The fields of an accepted line

The parsers look for the field list behind a marker: behind `flags:#` if it occurs, else behind `}`,
else behind the first space.  The fields that a line declares are the words between its constructor,
with the variables in braces, and `=`.  Every accepted line has one property for each of them if and
only if the marker stands where the fields begin.
-/

namespace Mtproto.Parsers

open Text

/-! ## Declared fields -/

/-- The text behind the first word. -/
def behindFirstWord (head : Text) : Text := afterOr [] [' '] (head.dropWhile (· = ' '))

/-- The text behind the constructor and its variables. -/
def behindConstructor (u : Unicode) (head : Text) : Text :=
  match cut ['{'] head with
  | none => behindFirstWord head
  | some (constructor, rest) =>
      match cut ['}'] rest with
      | none => behindFirstWord head
      | some (_, fields) => if ' ' ∈ trim u constructor then behindFirstWord head else fields

/-- A word that is a field. -/
def isField (word : Text) : Bool := word ≠ [] ∧ word ≠ flagsKeyWord

/-- The fields among the words of a text. -/
def fieldsOf (u : Unicode) (s : Text) : List Text := ((trim u s).splitOn ' ').filter isField

/-- The fields that a line declares. -/
def fieldTokens (u : Unicode) (line : Text) : List Text :=
  fieldsOf u (behindConstructor u (before ['='] line))

/-- The pieces that the parsers make of a text. -/
def piecesOf (u : Unicode) (s : Text) : List Text :=
  if isBlank u (trim u s) then [] else (trim u s).splitOn ' '

/-- The text that the parsers take for the field list. -/
def fieldList (line : Text) : Text := before ['='] (after (propertiesStringPrefix line) line)

/-- The text in front of the marker. -/
def frontOf (line : Text) : Text := ((cut (propertiesStringPrefix line) line).map Prod.fst).getD []

/-! ## Counting -/

section

variable {u : Unicode} {s t b : Text}

theorem solid_flagsKeyWord : solid u flagsKeyWord = 7 := by
  have ascii : ∀ c ∈ flagsKeyWord, c.toNat < 128 ∧
      (9 ≤ c.toNat && c.toNat ≤ 13 || 28 ≤ c.toNat && c.toNat ≤ 32) = false := by decide
  apply List.countP_eq_length.2
  intro c member
  rw [u.isWhitespace_ascii c (ascii c member).1, (ascii c member).2]
  rfl

theorem solid_le_length (s : Text) : solid u s ≤ s.length := List.countP_le_length

/-- The letters of the fields among some words. -/
theorem sum_filter_isField (f : Text → ℕ) (hf : f [] = 0) (words : List Text) :
    ((words.filter isField).map f).sum + f flagsKeyWord * words.count flagsKeyWord =
      (words.map f).sum := by
  induction words with
  | nil => simp
  | cons word words ih =>
      rw [List.map_cons, List.sum_cons, ← ih, List.count_cons]
      by_cases hflags : word = flagsKeyWord
      · have hnot : isField word = false := by simp [isField, hflags]
        rw [List.filter_cons_of_neg (by simp [hnot]), hflags]
        simp only [beq_self_eq_true, if_true, Nat.mul_add, Nat.mul_one]
        omega
      · by_cases hnil : word = []
        · have hnot : isField word = false := by simp [isField, hnil]
          rw [List.filter_cons_of_neg (by simp [hnot])]
          simp only [beq_iff_eq, hflags, if_false, Nat.add_zero]
          rw [hnil, hf, Nat.zero_add]
        · have hfield : isField word = true := by simp [isField, hnil, hflags]
          rw [List.filter_cons_of_pos hfield]
          simp only [List.map_cons, List.sum_cons, beq_iff_eq, hflags, if_false, Nat.add_zero]
          omega

theorem solid_fieldsOf (s : Text) :
    ((fieldsOf u s).map (solid u)).sum + 7 * ((trim u s).splitOn ' ').count flagsKeyWord =
      solid u s := by
  have hsum := sum_filter_isField (solid u) rfl ((trim u s).splitOn ' ')
  have hwords : (((trim u s).splitOn ' ').map (solid u)).sum = solid u (trim u s) :=
    sum_countP_splitOn (by simp [isWhitespace_space]) _
  rw [solid_flagsKeyWord, hwords, solid_trim] at hsum
  exact hsum

/-- The letters of the pieces, of any kind that the space is not of. -/
theorem sum_piecesOf {p : Char → Bool} (hp : p ' ' = false) (s : Text) :
    ((piecesOf u s).map (List.countP p)).sum = (trim u s).countP p := by
  unfold piecesOf
  split
  · next hblank =>
      have hnil : trim u s = [] := by
        rw [isBlank_iff, solid_trim] at hblank
        exact trim_of_blank hblank
      simp [hnil]
  · exact sum_countP_splitOn hp _

/-- A word that starts with a letter is no word of a blank text, and none that starts in it. -/
theorem count_splitOn_blank_append {c : Char} (hc : u.isWhitespace c = false) (hb : solid u b = 0) :
    ((b ++ s).splitOn ' ').count (c :: t) ≤ (s.splitOn ' ').count (c :: t) := by
  obtain ⟨init, last, first, rest, hinit, hs, happend⟩ := splitOn_append ' ' b s
  have hblank : ∀ word, word <:+: b → c :: t ≠ word := by
    rintro word hword rfl
    have hmem : c ∈ b := hword.subset List.mem_cons_self
    have := List.countP_eq_zero.1 hb c hmem
    simp [hc] at this
  have hnone : init.count (c :: t) = 0 := by
    rw [List.count_eq_zero]
    intro hmem
    exact hblank _ (infix_of_mem_splitOn (by rw [hinit]; simp [hmem])) rfl
  rw [happend, hs, List.count_append, hnone, Nat.zero_add, List.count_cons, List.count_cons]
  cases last with
  | nil => simp
  | cons d last =>
      have hd : d ≠ c := by
        rintro rfl
        have hmem : d ∈ b :=
          (infix_of_mem_splitOn (x := ' ') (w := d :: last) (by rw [hinit]; simp)).subset
          List.mem_cons_self
        have := List.countP_eq_zero.1 hb d hmem
        simp [hc] at this
      simp [hd]

/-- The first occurrence of a word is at most one of the words. -/
theorem count_splitOn_first {d : Text} (hspace : ' ' ∉ d) (ha : ¬ d <:+: s) :
    ((s ++ (d ++ t)).splitOn ' ').count d ≤ 1 + (t.splitOn ' ').count d := by
  obtain ⟨init, last, first, rest, hs, hdt, happend⟩ := splitOn_append ' ' s (d ++ t)
  obtain ⟨init', last', first', rest', hd, ht, hdt'⟩ := splitOn_append ' ' d t
  rw [List.splitOn_eq_singleton hspace] at hd
  have hinit : init' = [] := by
    cases init' with
    | nil => rfl
    | cons _ init' => simp at hd
  rw [hdt, hinit] at hdt'
  obtain ⟨-, rfl⟩ := List.cons.inj hdt'
  have hnone : init.count d = 0 := by
    rw [List.count_eq_zero]
    intro hmem
    exact ha (infix_of_mem_splitOn (by rw [hs]; simp [hmem]))
  rw [happend, ht, List.count_append, hnone, Nat.zero_add, List.count_cons, List.count_cons]
  split <;> split <;> omega

/-! ## The marker and the first field -/

/-- The text that the parsers take for the field list is the one behind the constructor: the same
but for `flags:#` in front of it, with single spaces between the fields. -/
def InPlace (u : Unicode) (hasFlags : Bool) (declared fields : Text) : Prop :=
  (trim u declared = trim u fields ∨
      hasFlags = true ∧
        ∃ n, trim u declared = flagsKeyWord ++ (List.replicate n ' ' ++ trim u fields) ∧
        (n = 0 → trim u fields = [])) ∧
    ∀ word ∈ piecesOf u fields, isField word = true

theorem filter_piecesOf (s : Text) : (piecesOf u s).filter isField = fieldsOf u s := by
  unfold piecesOf fieldsOf
  split
  · next hblank =>
      have hnil : trim u s = [] := by
        rw [isBlank_iff, solid_trim] at hblank
        exact trim_of_blank hblank
      simp [hnil, isField]
  · rfl

theorem filter_splitOn_spaces (n : ℕ) (s : Text) :
    ((List.replicate n ' ' ++ s).splitOn ' ').filter isField = (s.splitOn ' ').filter isField := by
  induction n with
  | zero => rfl
  | succ n ih =>
      rw [List.replicate_succ, List.cons_append, List.splitOn_cons_eq_if_modifyHead,
        if_pos (by simp)]
      exact ih

theorem splitOn_flagsKeyWord (s : Text) :
    (flagsKeyWord ++ ' ' :: s).splitOn ' ' = flagsKeyWord :: s.splitOn ' ' :=
  List.splitOn_append_cons_self_of_not_mem (by decide) s

theorem fieldsOf_of_inPlace {hasFlags : Bool} {declared fields : Text}
    (h : InPlace u hasFlags declared fields) :
    fieldsOf u declared = piecesOf u fields := by
  obtain ⟨hplace, hfields⟩ := h
  have hpieces : fieldsOf u fields = piecesOf u fields := by
    rw [← filter_piecesOf]
    exact List.filter_eq_self.2 hfields
  rcases hplace with hsame | ⟨-, n, hflags, hzero⟩
  · rw [← hpieces, fieldsOf, fieldsOf, hsame]
  · rw [← hpieces, fieldsOf, fieldsOf, hflags]
    cases n with
    | zero =>
        rw [hzero rfl]
        decide
    | succ n =>
        rw [List.replicate_succ, List.cons_append, splitOn_flagsKeyWord,
          List.filter_cons_of_neg (by decide)]
        exact filter_splitOn_spaces n _

theorem trim_flagsKeyWord (a m : Text) :
    trim u (a ++ (flagsKeyWord ++ m)) = a.dropWhile u.isWhitespace ++
      (flagsKeyWord ++ trimEnd u m) := by
  have hf : u.isWhitespace 'f' = false := by
    rw [u.isWhitespace_ascii _ (by decide)]
    decide
  have hhash : u.isWhitespace '#' = false := by
    rw [u.isWhitespace_ascii _ (by decide)]
    decide
  have hdrop : (a ++ (flagsKeyWord ++ m)).dropWhile u.isWhitespace =
      a.dropWhile u.isWhitespace ++ (flagsKeyWord ++ m) := by
    rw [List.dropWhile_append]
    split
    · next hempty =>
        rw [List.isEmpty_iff.1 hempty]
        change ('f' :: ("lags:#".toList ++ m)).dropWhile u.isWhitespace = _
        exact List.dropWhile_cons_of_neg (by rw [hf]; decide)
    · rfl
  have hend := trimEnd_append (s := a.dropWhile u.isWhitespace ++ "flags:".toList) hhash m
  rw [List.append_assoc, List.append_assoc] at hend
  rw [trim, hdrop]
  exact hend

/-- The first word starts with the first letter. -/
theorem head_splitOn {c : Char} {rest : List Text} (h : (c :: s).splitOn ' ' = [] :: rest) :
    c = ' ' ∧ rest = s.splitOn ' ' := by
  rw [List.splitOn_cons_eq_if_modifyHead] at h
  split at h
  · next hc => exact ⟨beq_iff_eq.1 hc, (List.cons.inj h).2.symm⟩
  · obtain ⟨first, others, hs⟩ := List.exists_cons_of_ne_nil (List.splitOn_ne_nil ' ' s)
    rw [hs] at h
    cases h

section Counting

variable {declared fields : Text} (h : fieldsOf u declared = piecesOf u fields)

include h

theorem isField_of_mem_piecesOf : ∀ word ∈ piecesOf u fields, isField word = true := by
  rw [← h]
  intro word hword
  exact (List.mem_filter.1 hword).2

theorem count_piecesOf : (piecesOf u fields).count flagsKeyWord = 0 := by
  rw [List.count_eq_zero]
  intro hmem
  exact absurd (isField_of_mem_piecesOf h _ hmem) (by decide)

theorem count_splitOn_trim : ((trim u fields).splitOn ' ').count flagsKeyWord = 0 := by
  have hcount := count_piecesOf h
  unfold piecesOf at hcount
  split at hcount
  · next hblank =>
      rw [isBlank_iff, solid_trim] at hblank
      rw [trim_of_blank hblank]
      decide
  · exact hcount

/-- The letters that are declared beyond those of the field list are those of the words
`flags:#`. -/
theorem solid_declared :
    solid u fields + 7 * ((trim u declared).splitOn ' ').count flagsKeyWord = solid u declared := by
  have hpieces : ((piecesOf u fields).map (solid u)).sum = solid u (trim u fields) :=
    sum_piecesOf (by simp [isWhitespace_space]) fields
  rw [← solid_fieldsOf declared, h, hpieces, solid_trim]

theorem trim_eq_of_suffix (hsuffix : declared <:+ fields) : trim u declared = trim u fields := by
  obtain ⟨y, rfl⟩ := hsuffix
  have hsolid := solid_declared h
  rw [solid_append] at hsolid
  exact (trim_blank_append (by omega) declared).symm

/-- Without `flags:#`: the two texts have the same letters. -/
theorem inPlace_of_not_infix {head : Text} (hdeclared : declared <:+ head)
    (hfields : fields <:+ head)
    (hflags : ¬ flagsKeyWord <:+: head) : InPlace u false declared fields := by
  refine ⟨.inl ?_, isField_of_mem_piecesOf h⟩
  rcases List.suffix_or_suffix_of_suffix hdeclared hfields with hsuffix | ⟨x, rfl⟩
  · exact trim_eq_of_suffix h hsuffix
  · have hnone : ((trim u (x ++ fields)).splitOn ' ').count flagsKeyWord = 0 := by
      rw [List.count_eq_zero]
      intro hmem
      apply hflags
      exact (infix_of_mem_splitOn hmem).trans ((trim_isInfix _).trans hdeclared.isInfix)
    have hsolid := solid_declared h
    rw [hnone, solid_append] at hsolid
    exact trim_blank_append (by omega) fields

/-- With `flags:#` as a word of its own in front of the field list, only spaces stand between the
two. -/
theorem inPlace_of_trim {b : Text} (hb : solid u b = 0)
    (htrim : trim u declared = flagsKeyWord ++ (b ++ trim u fields))
    (hone : ((trim u declared).splitOn ' ').count flagsKeyWord = 1) :
    InPlace u true declared fields := by
  obtain ⟨init, last, first, rest, hflags, hs, happend⟩ :=
    splitOn_append ' ' flagsKeyWord (b ++ trim u fields)
  have hword : init = [] ∧ last = flagsKeyWord := by
    rw [List.splitOn_eq_singleton (by decide)] at hflags
    cases init with
    | nil => exact ⟨rfl, (List.cons.inj hflags).1.symm⟩
    | cons _ init => simp at hflags
  rw [hword.1, hword.2, ← htrim, List.nil_append] at happend
  have hf : u.isWhitespace 'f' = false := by
    rw [u.isWhitespace_ascii _ (by decide)]
    decide
  have hle : ((b ++ trim u fields).splitOn ' ').count flagsKeyWord ≤
      ((trim u fields).splitOn ' ').count flagsKeyWord := count_splitOn_blank_append hf hb
  rw [count_splitOn_trim h, hs, List.count_cons] at hle
  have hrest : rest.count flagsKeyWord = 0 := by omega
  -- the word that starts with `flags:#` is no longer than it
  have hfirst : first = [] := by
    rw [happend, List.count_cons, hrest] at hone
    have heq : flagsKeyWord ++ first = flagsKeyWord := by
      by_contra hne
      simp [hne] at hone
    exact List.append_right_eq_self.1 heq
  rw [hfirst] at hs happend
  cases b with
  | nil =>
      have hnil : trim u fields = [] := by
        rcases hfields : trim u fields with - | ⟨c, t⟩
        · rfl
        · rw [List.nil_append, hfields] at hs
          have hc := isWhitespace_of_trim hfields
          rw [(head_splitOn hs).1, isWhitespace_space] at hc
          cases hc
      exact ⟨.inr ⟨rfl, 0, htrim, fun _ => hnil⟩, isField_of_mem_piecesOf h⟩
  | cons d b =>
      obtain ⟨rfl, hrest_eq⟩ := head_splitOn hs
      let letter : Char → Bool := fun c => c ≠ ' '
      have hletters : ((fieldsOf u declared).map (List.countP letter)).sum =
          (b ++ trim u fields).countP letter := by
        rw [fieldsOf, happend, List.append_nil, List.filter_cons_of_neg (by decide)]
        have hsum := sum_filter_isField (List.countP letter) rfl rest
        rw [hrest, Nat.mul_zero, Nat.add_zero] at hsum
        rw [hsum, hrest_eq]
        exact sum_countP_splitOn (by decide) _
      have hpieces : ((piecesOf u fields).map (List.countP letter)).sum =
          (trim u fields).countP letter :=
        sum_piecesOf (by decide) fields
      rw [h, hpieces, List.countP_append] at hletters
      have hspaces : b = List.replicate b.length ' ' := by
        rw [List.eq_replicate_iff]
        refine ⟨rfl, fun c hc => ?_⟩
        have hc' := List.countP_eq_zero.1 (show b.countP letter = 0 by omega) c hc
        simpa [letter] using hc'
      refine ⟨.inr ⟨rfl, b.length + 1, ?_, by omega⟩, isField_of_mem_piecesOf h⟩
      rw [htrim, List.replicate_succ, ← hspaces]

theorem inPlace_of_flags_word {a : Text} (hdeclared : declared = a ++ (flagsKeyWord ++ fields))
    (ha : ¬ flagsKeyWord <:+: a) : InPlace u true declared fields := by
  obtain ⟨b, hb, hend⟩ := trimEnd_eq_append_trim (u := u) fields
  have htrim := trim_flagsKeyWord (u := u) a fields
  rw [← hdeclared, hend] at htrim
  have hf : u.isWhitespace 'f' = false := by
    rw [u.isWhitespace_ascii _ (by decide)]
    decide
  have hfront : ¬ flagsKeyWord <:+: a.dropWhile u.isWhitespace :=
    fun hinside => ha (hinside.trans (List.dropWhile_suffix u.isWhitespace).isInfix)
  have hle := count_splitOn_first (t := b ++ trim u fields) (by decide) hfront
  have hle' : ((b ++ trim u fields).splitOn ' ').count flagsKeyWord ≤
      ((trim u fields).splitOn ' ').count flagsKeyWord := count_splitOn_blank_append hf hb
  rw [count_splitOn_trim h] at hle'
  have hsolid := solid_declared h
  rw [htrim] at hsolid
  rw [hdeclared, solid_append, solid_append, solid_flagsKeyWord] at hsolid
  have hblank : solid u a = 0 := by omega
  apply inPlace_of_trim h hb
  · rw [htrim, dropWhile_of_blank hblank, List.nil_append]
  · rw [htrim]
    omega

/-- With `flags:#`: it is a word of its own, and nothing but blanks stands in front of it. -/
theorem inPlace_of_flags {p : Text} (hdeclared : declared <:+ p ++ (flagsKeyWord ++ fields))
    (hp : ¬ flagsKeyWord <:+: p) : InPlace u true declared fields := by
  have hfields : fields <:+ p ++ (flagsKeyWord ++ fields) := ⟨p ++ flagsKeyWord, by simp⟩
  rcases List.suffix_or_suffix_of_suffix hdeclared hfields with hsuffix | ⟨x, hx⟩
  · exact ⟨.inl (trim_eq_of_suffix h hsuffix), isField_of_mem_piecesOf h⟩
  · obtain ⟨z, hz⟩ := hdeclared
    rw [← hx, ← List.append_assoc, ← List.append_assoc] at hz
    rcases List.append_eq_append_iff.1 (List.append_cancel_right hz) with ⟨a, ha, hxa⟩ | ⟨c, hc,
      hflags⟩
    · apply inPlace_of_flags_word h (a := a)
      · rw [← hx, hxa, List.append_assoc]
      · exact fun hinside => hp (hinside.trans (ha ▸ (List.suffix_append z a).isInfix))
    · cases c with
      | nil =>
          apply inPlace_of_flags_word h (a := [])
          · rw [← hx, hflags]
            rfl
          · decide
      | cons d c =>
          have hlength := congrArg List.length hflags
          have hseven : flagsKeyWord.length = 7 := by decide
          rw [hseven, List.length_append, List.length_cons] at hlength
          have hle := solid_le_length (u := u) x
          have hsolid := solid_declared h
          rw [← hx, solid_append] at hsolid
          refine ⟨.inl ?_, isField_of_mem_piecesOf h⟩
          rw [← hx]
          exact trim_blank_append (by omega) fields

end Counting

end

/-! ## The slices of a line -/

theorem behindFirstWord_suffix (head : Text) : behindFirstWord head <:+ head := by
  unfold behindFirstWord afterOr
  rcases hcut : cut [' '] (head.dropWhile (· = ' ')) with - | ⟨a, b⟩
  · exact List.nil_suffix
  · have hsuffix : b <:+ head.dropWhile (· = ' ') := ⟨a ++ [' '], (append_of_cut hcut).symm⟩
    exact hsuffix.trans (List.dropWhile_suffix _)

theorem behindConstructor_suffix (u : Unicode) (head : Text) :
    behindConstructor u head <:+ head := by
  unfold behindConstructor
  split
  · exact behindFirstWord_suffix head
  · next constructor rest hcut =>
      split
      · exact behindFirstWord_suffix head
      · next inside fields hcut' =>
          split
          · exact behindFirstWord_suffix head
          · have hrest : fields <:+ rest := ⟨inside ++ ['}'], (append_of_cut hcut').symm⟩
            exact hrest.trans ⟨constructor ++ ['{'], (append_of_cut hcut).symm⟩

theorem before_append {s t : Text} (h : '=' ∉ s) : before ['='] (s ++ t) = s ++ before ['='] t := by
  by_cases ht : '=' ∈ t
  · obtain ⟨a, b, rfl, ha⟩ := List.eq_append_cons_of_mem ht
    rw [before_single ha, ← List.append_assoc, before_single (by simp [h, ha])]
  · rw [before_of_not_mem ht, before_of_not_mem (by simp [h, ht])]

theorem before_isPrefix (d s : Text) : before d s <+: s := by
  unfold before
  rcases hcut : cut d s with - | ⟨a, b⟩
  · exact List.prefix_refl s
  · exact ⟨d ++ b, by rw [← List.append_assoc]; exact (append_of_cut hcut).symm⟩

theorem not_mem_propertiesStringPrefix (line : Text) : '=' ∉ propertiesStringPrefix line := by
  unfold propertiesStringPrefix
  split
  · decide
  · split <;> decide

/-- With no `=` in front of the marker, the field list is what stands in front of `=`, from the
marker on. -/
theorem before_eq_frontOf_append {line : Text} (hmarker : propertiesStringPrefix line <:+: line)
    (hfront : '=' ∉ frontOf line) :
    before ['='] line = frontOf line ++ (propertiesStringPrefix line ++ fieldList line) := by
  obtain ⟨⟨a, b⟩, hcut⟩ := Option.isSome_iff_exists.1 (isSome_cut_of_isInfix hmarker)
  have hfrontOf : frontOf line = a := by simp [frontOf, hcut]
  have hafter : after (propertiesStringPrefix line) line = b := after_of_cut hcut
  rw [hfrontOf] at hfront
  have hline : before ['='] line = before ['='] (a ++ (propertiesStringPrefix line ++ b)) :=
    congrArg (before ['=']) (by rw [← List.append_assoc]; exact append_of_cut hcut)
  rw [hline, before_append hfront, before_append (not_mem_propertiesStringPrefix line), hfrontOf,
    fieldList, hafter]

theorem fieldList_suffix {line : Text} (hfront : '=' ∉ frontOf line) :
    fieldList line <:+ before ['='] line := by
  by_cases hmarker : propertiesStringPrefix line <:+: line
  · rw [before_eq_frontOf_append hmarker hfront, ← List.append_assoc]
    exact List.suffix_append _ _
  · rw [fieldList, after_of_not_infix hmarker]

/-- `flags:#` does not stand in front of its first occurrence. -/
theorem not_infix_frontOf {line : Text} (hflags : hasFlags line = true) :
    ¬ flagsKeyWord <:+: frontOf line := by
  obtain ⟨⟨front, rest⟩, hcut⟩ := Option.isSome_iff_exists.1 hflags
  have hfront : frontOf line = front := by simp [frontOf, propertiesStringPrefix, hflags, hcut]
  rw [hfront]
  exact not_infix_of_cut (by decide) hcut

/-! ## Accepted lines -/

/-- The marker stands where the fields begin.  Where `=` comes first, the parsers read the text
behind it, which then has to repeat the fields. -/
def FieldsInPlace (u : Unicode) (line : Text) : Prop :=
  if '=' ∈ frontOf line then fieldTokens u line = piecesOf u (fieldList line)
  else InPlace u (hasFlags line) (behindConstructor u (before ['='] line)) (fieldList line)

theorem fieldTokens_eq_iff (u : Unicode) (line : Text) :
    fieldTokens u line = piecesOf u (fieldList line) ↔ FieldsInPlace u line := by
  unfold FieldsInPlace
  split
  · exact Iff.rfl
  · next hfront =>
      refine ⟨fun h => ?_, fieldsOf_of_inPlace⟩
      have hdeclared := behindConstructor_suffix u (before ['='] line)
      rcases hflags : hasFlags line with - | -
      · apply inPlace_of_not_infix h hdeclared (fieldList_suffix hfront)
        exact fun hinside => not_occurs_iff.1 hflags (hinside.trans (before_isPrefix _ _).isInfix)
      · have hmarker : propertiesStringPrefix line =
          flagsKeyWord := by simp [propertiesStringPrefix, hflags]
        have hhead := before_eq_frontOf_append (by rw [hmarker]; exact occurs_iff.1 hflags) hfront
        rw [hmarker] at hhead
        apply inPlace_of_flags h (p := frontOf line)
        · rwa [← hhead]
        · exact not_infix_frontOf hflags

/-- The three parsers. -/
inductive Kind where
  | object
  | method
  | container

/-- The properties of the spec that a parser returns. -/
def Kind.propertiesSpecs (u : Unicode) (containers : List TLContainerSpec) (line : Text) :
    Kind → Except Failure (List TLPropertySpec)
  | .object => Declaration.propertiesSpecs <$> parseObject u containers line
  | .method => Declaration.propertiesSpecs <$> parseMethod u containers line
  | .container => TLContainerSpec.propertiesSpecs <$> parseContainer u containers line

theorem rawScheme_of_parseProperty {u : Unicode} {genericVariables : Variables}
    {containers : List TLContainerSpec}
    {propertyScheme : Text} {property : TLPropertySpec}
    (h : parseProperty u genericVariables containers propertyScheme = .ok property) :
    property.rawScheme = propertyScheme := by
  obtain ⟨⟨flag, type⟩, -, hrest⟩ := bind_eq_ok h
  obtain ⟨typeSpec, -, hproperty⟩ := bind_eq_ok hrest
  cases hproperty
  rfl

theorem map_rawScheme_of_mapM {u : Unicode} {genericVariables : Variables}
    {containers : List TLContainerSpec}
    {propertySchemes : List Text} {properties : List TLPropertySpec}
    (h : propertySchemes.mapM (parseProperty u genericVariables containers) = .ok properties) :
    properties.map TLPropertySpec.rawScheme = propertySchemes := by
  induction propertySchemes generalizing properties with
  | nil =>
      cases h
      rfl
  | cons propertyScheme rest ih =>
      rw [List.mapM_cons] at h
      obtain ⟨property, hproperty, htail⟩ := bind_eq_ok h
      obtain ⟨others, hothers, hcons⟩ := bind_eq_ok htail
      cases hcons
      rw [List.map_cons, rawScheme_of_parseProperty hproperty, ih hothers]

/-- The properties come from the pieces; a blank list has none. -/
theorem map_rawScheme_of_parseDeclaration {u : Unicode} {containers : List TLContainerSpec}
    {σ : Type}
    {blank : Except Failure (List TLPropertySpec)}
    {parseSuperType : Variables → Text → Except Failure σ}
    {line : Text} {d : Declaration σ}
    (hblank : ∀ properties, blank = .ok properties → properties = [])
    (h : parseDeclaration u containers blank parseSuperType line = .ok d) :
    d.propertiesSpecs.map TLPropertySpec.rawScheme = piecesOf u (fieldList line) := by
  obtain ⟨genericVariables, -, h⟩ := bind_eq_ok h
  obtain ⟨properties, hproperties, h⟩ := bind_eq_ok h
  obtain ⟨superType, -, h⟩ := bind_eq_ok h
  obtain ⟨name, -, h⟩ := bind_eq_ok h
  cases h
  change properties.map TLPropertySpec.rawScheme =
    if isBlank u (propertiesString u line) then [] else (propertiesString u line).splitOn ' '
  unfold parseProperties at hproperties
  split at hproperties
  · next hisBlank =>
      rw [if_pos hisBlank, hblank properties hproperties]
      rfl
  · next hisBlank =>
      rw [if_neg hisBlank]
      exact map_rawScheme_of_mapM hproperties

theorem map_rawScheme_eq_piecesOf {u : Unicode} {containers : List TLContainerSpec} {line : Text}
    {kind : Kind}
    {properties : List TLPropertySpec}
    (h : kind.propertiesSpecs u containers line = .ok properties) :
    properties.map TLPropertySpec.rawScheme = piecesOf u (fieldList line) := by
  cases kind with
  | object =>
      obtain ⟨d, hd, rfl⟩ := map_eq_ok h
      unfold parseObject at hd
      split at hd
      · exact map_rawScheme_of_parseDeclaration (by simp) (eq_ok_of_rethrown hd)
      · cases hd
  | method =>
      obtain ⟨d, hd, rfl⟩ := map_eq_ok h
      unfold parseMethod at hd
      split at hd
      · exact map_rawScheme_of_parseDeclaration (by simp) (eq_ok_of_rethrown hd)
      · cases hd
  | container =>
      obtain ⟨c, hc, rfl⟩ := map_eq_ok h
      unfold parseContainer at hc
      split at hc
      · obtain ⟨d, hd, rfl⟩ := map_eq_ok (eq_ok_of_rethrown hc)
        exact map_rawScheme_of_parseDeclaration (by simp) hd
      · cases hc

/-- An accepted line has one property for each of its fields, in their order, if and only if the
marker stands where the fields begin. -/
theorem map_rawScheme_eq_fieldTokens_iff {u : Unicode} {containers : List TLContainerSpec}
    {line : Text} {kind : Kind}
    {properties : List TLPropertySpec}
    (h : kind.propertiesSpecs u containers line = .ok properties) :
    properties.map TLPropertySpec.rawScheme = fieldTokens u line ↔ FieldsInPlace u line := by
  rw [map_rawScheme_eq_piecesOf h, eq_comm]
  exact fieldTokens_eq_iff u line

/-- A method with a variable, `flags:#` and two fields. -/
theorem map_rawScheme_invoke :
    ∃ properties,
      Kind.method.propertiesSpecs .ascii
        [] "invoke#1 {X:Type} flags:# x:flags.0?int query:X = X;".toList =
        .ok properties ∧
      properties.map TLPropertySpec.rawScheme =
        fieldTokens .ascii "invoke#1 {X:Type} flags:# x:flags.0?int query:X = X;".toList := by
  have hparse :
    Kind.method.propertiesSpecs .ascii
      [] "invoke#1 {X:Type} flags:# x:flags.0?int query:X = X;".toList =
      .ok [⟨"x:flags.0?int".toList, "x".toList, some 0, .primitive .int⟩,
        ⟨"query:X".toList, "query".toList, none, .genericVariable "X".toList .type⟩] := by
    decide +kernel
  refine ⟨_, hparse, (map_rawScheme_eq_fieldTokens_iff hparse).2 ?_⟩
  rw [FieldsInPlace, if_neg (by decide +kernel)]
  exact ⟨.inr ⟨by decide +kernel, 1, by decide +kernel, by decide⟩, by decide +kernel⟩

/-- The field in front of `flags:#` is lost. -/
theorem not_map_rawScheme_flags_second :
    ¬ ∀ (u : Unicode) (containers : List TLContainerSpec) (line : Text) (kind : Kind)
      (properties : List TLPropertySpec), kind.propertiesSpecs u containers line = .ok properties →
      properties.map TLPropertySpec.rawScheme = fieldTokens u line := by
  intro h
  have hlost := h .ascii [] "a#1 x:int flags:# y:int = A;".toList .object
    [⟨"y:int".toList, "y".toList, none, .primitive .int⟩] (by decide +kernel)
  revert hlost
  decide +kernel

end Mtproto.Parsers
