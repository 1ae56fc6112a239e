import Mtproto.Parsers.Canonical

/-!
# The parsers invert the canonical printer

The parsers slice a line at delimiters that also occur in its other parts.  For a printed line the
first occurrence of each is where it belongs (`cut_flags`, `cut_open`, `cut_close`, `cut_space`), so
each slice is the part it is taken for, and `parseObject` and `parseMethod` return what was printed
(`parse_print`).
-/

namespace Mtproto.Parsers

open Text

section

variable {u : Unicode} {containers : List TLContainerSpec}

/-! ## The words of a line -/

namespace Canonical

theorem spaced_cons (word : Text) (words : List Text) :
    spaced (word :: words) = word ++ ' ' :: spaced words := by
  simp [spaced]

theorem spaced_append (words words' : List Text) :
    spaced (words ++ words') = spaced words ++ spaced words' := by
  simp [spaced]

theorem mem_spaced {words : List Text} {c : Char} (h : c ∈ spaced words) :
    c = ' ' ∨ ∃ word ∈ words, c ∈ word := by
  obtain ⟨word, hword, hc⟩ := List.mem_flatMap.1 h
  rcases List.mem_append.1 hc with hc | hc
  · exact .inr ⟨word, hword, hc⟩
  · exact .inl (List.mem_singleton.1 hc)

/-- What has no space in it stands in a word, or behind the words. -/
theorem infix_spaced {words : List Text} {s t : Text} (hs : ' ' ∉ s)
    (h : s <:+: spaced words ++ t) :
    (∃ word ∈ words, s <:+: word) ∨ s <:+: t := by
  induction words with
  | nil => exact .inr h
  | cons word words ih =>
      rw [spaced_cons, List.append_assoc, List.cons_append] at h
      rcases infix_append_cons hs h with hword | hrest
      · exact .inl ⟨word, List.mem_cons_self, hword⟩
      · rcases ih hrest with ⟨w, hw, hinside⟩ | htail
        · exact .inl ⟨w, List.mem_cons_of_mem word hw, hinside⟩
        · exact .inr htail

theorem spaced_eq_intercalate {words : List Text} (h : words ≠ []) :
    spaced words = [' '].intercalate words ++ [' '] := by
  induction words with
  | nil => exact absurd rfl h
  | cons word words ih =>
      cases words with
      | nil => simp [spaced]
      | cons next words =>
          rw [spaced_cons, ih (by simp), List.intercalate_cons_cons]
          simp

theorem trimmed_of_inked {s : Text} (hne : s ≠ []) (hs : ∀ c ∈ s, inked c = true) :
    Trimmed u s where
  ne_nil := hne
  head c hc := isWhitespace_of_inked (hs c (List.mem_of_mem_head? hc))
  last c hc := isWhitespace_of_inked (hs c (List.mem_of_getLast? hc))

theorem trimmed_intercalate {words : List Text} (hne : words ≠ [])
    (h : ∀ word ∈ words, word ≠ [] ∧ ∀ c ∈ word, inked c = true) :
    Trimmed u ([' '].intercalate words) := by
  induction words with
  | nil => exact absurd rfl hne
  | cons word words ih =>
      obtain ⟨hword, hinked⟩ := h word List.mem_cons_self
      have htrimmed := trimmed_of_inked (u := u) hword hinked
      cases words with
      | nil => simpa using htrimmed
      | cons next words =>
          rw [List.intercalate_cons_cons, List.append_assoc]
          exact htrimmed.append (ih (by simp) fun w hw => h w (List.mem_cons_of_mem word hw))

theorem trim_spaced {b : Text} {words : List Text} (hb : solid u b = 0)
    (h : ∀ word ∈ words, word ≠ [] ∧ ∀ c ∈ word, inked c = true) :
    trim u (b ++ spaced words) = [' '].intercalate words := by
  have hspace : solid u [' '] = 0 := by simp [solid, isWhitespace_space]
  by_cases hne : words = []
  · rw [hne]
    exact trim_of_blank (by simpa [spaced] using hb)
  · rw [spaced_eq_intercalate hne]
    exact (trimmed_intercalate hne h).trim_eq hb hspace

theorem trim_inked {b s e : Text} (hb : solid u b = 0) (he : solid u e = 0)
    (hs : ∀ c ∈ s, inked c = true) :
    trim u (b ++ (s ++ e)) = s := by
  by_cases hne : s = []
  · rw [hne, trim_of_blank]
    rw [solid_append, List.nil_append, hb, he]
  · exact (trimmed_of_inked hne hs).trim_eq hb he

variable (d : Canonical u containers) {t : Text}

/-- The words in front of `flags:#`. -/
def front : List Text := d.constructorWord :: if d.names = [] then [] else [d.variablesWord]

/-- The words from `flags:#` on. -/
def back : List Text := (if d.hasFlags then [flagsKeyWord] else []) ++ d.fields.map Field.text

theorem solid_spaces (n : ℕ) :
    solid u (List.replicate n ' ') = 0 := by simp [solid, isWhitespace_space]

/-- The text from `=` on. -/
def ending (superType : Text) : Text := '=' :: ' ' :: (superType ++ [';'])

theorem print_eq : d.print t = spaced d.front ++ (spaced d.back ++ ending t) := by
  rw [print, markers, front, back, ending, ← List.append_assoc, ← spaced_append, List.cons_append,
    List.append_assoc]

theorem alphanumericOr_constructorWord : AlphanumericOr ".#".toList d.constructorWord := by
  have hhash : AlphanumericOr ".#".toList d.hash := by
    intro c hc
    have hall : ∀ c ∈ "0123456789abcdefABCDEF".toList, c.isAlphanum = true := by decide
    exact .inl (hall c (d.hash_hexadecimal c hc))
  exact (d.reference.dotted_text.mono (by decide)).append (hhash.cons (by decide))

theorem alphanumericOr_variableTexts : ∀ s ∈ d.variableTexts, AlphanumericOr [':'] s := by
  intro s hs
  obtain ⟨v, hv, rfl⟩ := List.mem_map.1 hs
  have htype : AlphanumericOr [':'] anyTypeSignature :=
    show ∀ c ∈ anyTypeSignature, c.isAlphanum = true ∨ c ∈ [':'] by decide
  exact (alphanumericOr_of_isUpper _ (d.names_upper v hv)).append (htype.cons (by simp))

/-- The text between the braces. -/
theorem alphanumericOr_variables : AlphanumericOr [':', ','] ([','].intercalate d.variableTexts) :=
  .intercalate (by simp) fun s hs => (d.alphanumericOr_variableTexts s hs).mono (by simp)

theorem alphanumericOr_fields : ∀ s ∈ d.fields.map Field.text, AlphanumericOr "_:.?".toList s := by
  intro s hs
  obtain ⟨f, -, rfl⟩ := List.mem_map.1 hs
  exact f.alphanumericOr_text d.names_upper

theorem inked_fields :
    ∀ word ∈ d.fields.map Field.text, word ≠ [] ∧ ∀ c ∈ word, inked c = true := by
  intro word hword
  obtain ⟨f, -, rfl⟩ := List.mem_map.1 hword
  exact ⟨by simp [Field.text], (d.alphanumericOr_fields _ hword).inked (by decide)⟩

theorem not_mem_ending (ht : AlphanumericOr ".<>,".toList t) {c : Char} (hc : c.isAlphanum = false)
    (hextra : c ∉ "= ;.<>,".toList) : c ∉ ending t := by
  have hending : AlphanumericOr "= ;.<>,".toList (ending t) := by
    have hsemicolon : AlphanumericOr "= ;.<>,".toList [';'] := fun c hc => .inr (by simp_all)
    exact (((ht.mono (by decide)).append hsemicolon).cons (by decide)).cons (by decide)
  exact hending.not_mem hc hextra

theorem not_mem_spaced {extra : Text} {words : List Text} {c : Char}
    (h : ∀ word ∈ words, AlphanumericOr extra word) (hc : c.isAlphanum = false) (hextra : c ∉ extra)
    (hspace : c ≠ ' ') : c ∉ spaced words := by
  intro hmem
  rcases mem_spaced hmem with rfl | ⟨word, hword, hmem⟩
  · exact hspace rfl
  · exact (h word hword).not_mem hc hextra hmem

theorem alphanumericOr_words (extra : Text) (hextra : ".#:_?".toList ⊆ extra)
    (hvariables : d.names ≠ [] → "{:,}".toList ⊆ extra) :
    ∀ word ∈ d.front ++ d.back, AlphanumericOr extra word := by
  intro word hword
  rcases List.mem_append.1 hword with hfront | hback
  · rcases List.mem_cons.1 hfront with rfl | hnames
    · exact d.alphanumericOr_constructorWord.mono fun c hc => hextra (by revert hc; simp; tauto)
    · split at hnames
      · cases hnames
      · next hne =>
          have hall := hvariables hne
          have hinside : AlphanumericOr extra ([','].intercalate d.variableTexts) :=
            d.alphanumericOr_variables.mono fun c hc => hall (by revert hc; simp; tauto)
          have hclose : AlphanumericOr extra ['}'] := fun c hc => .inr (hall (by simp_all))
          rw [List.mem_singleton.1 hnames]
          exact (hinside.cons (hall (by decide))).append hclose
  · rcases List.mem_append.1 hback with hflags | hfields
    · split at hflags
      · rw [List.mem_singleton.1 hflags]
        have hflagsKeyWord : AlphanumericOr ".#:_?".toList flagsKeyWord :=
          show ∀ c ∈ flagsKeyWord, c.isAlphanum = true ∨ c ∈ ".#:_?".toList by decide
        exact hflagsKeyWord.mono hextra
      · cases hflags
    · exact (d.alphanumericOr_fields word hfields).mono fun c hc =>
        hextra (by revert hc; simp; tauto)

/-! ## The delimiters of a line -/

theorem not_infix_of_mem_front {word : Text} (hword : word ∈ d.front) :
    ¬ flagsKeyWord <:+: word := by
  rcases List.mem_cons.1 hword with rfl | hvariables
  · have hcolon : ':' ∉ d.constructorWord :=
      d.alphanumericOr_constructorWord.not_mem (by decide) (by decide)
    exact not_infix_of_not_mem (by decide) hcolon
  · split at hvariables
    · cases hvariables
    · rw [List.mem_singleton.1 hvariables]
      have hhash : '#' ∉ d.variablesWord := by
        have hinside := d.alphanumericOr_variables.not_mem (c := '#') (by decide) (by decide)
        simp [variablesWord, hinside]
      exact not_infix_of_not_mem (by decide) hhash

theorem not_infix_front : ¬ flagsKeyWord <:+: spaced d.front := by
  intro h
  rw [← List.append_nil (spaced d.front)] at h
  rcases infix_spaced (by decide) h with ⟨word, hword, hinside⟩ | hnil
  · exact d.not_infix_of_mem_front hword hinside
  · exact absurd hnil (by decide)

theorem cut_flags (hflags : d.hasFlags = true) :
    cut flagsKeyWord (d.print t) =
      some (spaced d.front, ' ' :: (spaced (d.fields.map Field.text) ++ ending t)) := by
  have hback : spaced d.back = flagsKeyWord ++ ' ' :: spaced (d.fields.map Field.text) := by
    rw [back, if_pos hflags, List.singleton_append, spaced_cons]
  have hcut := cut_append (c := 'f') (d := "lags:#".toList) (a := spaced d.front)
    (b := ' ' :: (spaced (d.fields.map Field.text) ++ ending t)) (by decide) d.not_infix_front
  rw [print_eq, hback, List.append_assoc, List.cons_append]
  rw [List.append_assoc] at hcut
  exact hcut

theorem not_infix_flags (ht : AlphanumericOr ".<>,".toList t) (hflags : d.hasFlags = false) :
    ¬ flagsKeyWord <:+: d.print t := by
  intro h
  rw [print_eq, ← List.append_assoc, ← spaced_append] at h
  rcases infix_spaced (by decide) h with ⟨word, hword, hinside⟩ | hending
  · rcases List.mem_append.1 hword with hfront | hback
    · exact d.not_infix_of_mem_front hfront hinside
    · simp only [back, hflags, Bool.false_eq_true, if_false, List.nil_append] at hback
      have hhash : '#' ∉ word :=
        (d.alphanumericOr_fields word hback).not_mem (by decide) (by decide)
      exact not_infix_of_not_mem (by decide) hhash hinside
  · have hhash : '#' ∉ ending t := not_mem_ending ht (by decide) (by decide)
    exact not_infix_of_not_mem (by decide) hhash hending

theorem hasFlags_print (ht : AlphanumericOr ".<>,".toList t) :
    Parsers.hasFlags (d.print t) = d.hasFlags := by
  rcases hflags : d.hasFlags with - | -
  · exact not_occurs_iff.2 (d.not_infix_flags ht hflags)
  · rw [Parsers.hasFlags, occurs, d.cut_flags hflags]
    rfl

/-- Without variables there are no braces. -/
theorem not_mem_print (ht : AlphanumericOr ".<>,".toList t) (hnames : d.names = []) {c : Char}
    (hc : c.isAlphanum = false) (hextra : c ∉ "= ;.<>,#:_?".toList) : c ∉ d.print t := by
  have hwords : c ∉ spaced (d.front ++ d.back) :=
    not_mem_spaced (d.alphanumericOr_words "= ;.<>,#:_?".toList (by decide) (absurd hnames)) hc
      hextra
      (by rintro rfl; exact hextra (by decide))
  have hending : c ∉ ending t := not_mem_ending ht hc fun hmem =>
    hextra (by revert hmem; simp; tauto)
  rw [print_eq, ← List.append_assoc, ← spaced_append, List.mem_append, not_or]
  exact ⟨hwords, hending⟩

theorem print_of_names (hnames : d.names ≠ []) :
    d.print t = d.constructorWord ++ ' ' :: '{' :: ([','].intercalate d.variableTexts ++
      '}' :: ' ' :: (spaced d.back ++ ending t)) := by
  rw [print_eq, front, if_neg hnames, spaced_cons, spaced_cons, variablesWord]
  simp [spaced]

theorem cut_open (hnames : d.names ≠ []) :
    cut ['{'] (d.print t) =
      some (d.constructorWord ++ [' '],
        [','].intercalate d.variableTexts ++ '}' :: ' ' :: (spaced d.back ++ ending t)) := by
  have hopen : '{' ∉ d.constructorWord :=
    d.alphanumericOr_constructorWord.not_mem (by decide) (by decide)
  have hcut := cut_single (x := '{') (a := d.constructorWord ++ [' '])
    (b := [','].intercalate d.variableTexts ++ '}' :: ' ' :: (spaced d.back ++ ending t))
      (by simp [hopen])
  rw [← hcut, d.print_of_names hnames]
  simp

theorem cut_close (hnames : d.names ≠ []) :
    cut ['}'] (d.print t) =
      some (d.constructorWord ++ ' ' :: '{' :: [','].intercalate d.variableTexts,
        ' ' :: (spaced d.back ++ ending t)) := by
  have hconstructor : '}' ∉ d.constructorWord :=
    d.alphanumericOr_constructorWord.not_mem (by decide) (by decide)
  have hvariables : '}' ∉ [','].intercalate d.variableTexts :=
    d.alphanumericOr_variables.not_mem (by decide) (by decide)
  have hcut :=
    cut_single (x := '}') (a := d.constructorWord ++ ' ' :: '{' ::
      [','].intercalate d.variableTexts)
    (b := ' ' :: (spaced d.back ++ ending t)) (by simp [hconstructor, hvariables])
  rw [← hcut, d.print_of_names hnames]
  simp

theorem hasGenerics_print (ht : AlphanumericOr ".<>,".toList t) :
    hasGenerics (d.print t) = decide (d.names ≠ []) := by
  by_cases hnames : d.names = []
  · have hopen : '{' ∉ d.print t := d.not_mem_print ht hnames (by decide) (by decide)
    simp [hasGenerics, not_occurs_single.2 hopen, hnames]
  · simp [hasGenerics, occurs, d.cut_open hnames, d.cut_close hnames, hnames]

theorem cut_space : cut [' '] (d.print t) = some (d.constructorWord,
    spaced (d.markers ++ d.fields.map Field.text) ++ ending t) := by
  have hspace : ' ' ∉ d.constructorWord :=
    d.alphanumericOr_constructorWord.not_mem (by decide) (by decide)
  rw [print, spaced_cons, List.append_assoc, List.cons_append]
  exact cut_single hspace

theorem declares_nil : Declares [] [] := fun _ => rfl

theorem declares_genericVariables : Declares d.genericVariables d.names :=
  declares_foldl d.names declares_nil

/-! ## The slices of a line -/

section

variable (ht : AlphanumericOr ".<>,".toList t)

include ht

theorem constructorText_print :
    ∃ n, constructorText (d.print t) = d.constructorWord ++ List.replicate n ' ' := by
  unfold constructorText typeStringPostfix
  rw [d.hasGenerics_print ht, d.hasFlags_print ht]
  by_cases hnames : d.names = []
  · rw [if_neg (by simp [hnames])]
    split
    · next hflags =>
        refine ⟨1, ?_⟩
        rw [before_of_cut (d.cut_flags hflags), front, if_pos hnames, spaced_cons]
        rfl
    · refine ⟨0, ?_⟩
      rw [before_of_cut d.cut_space, List.replicate_zero, List.append_nil]
  · rw [if_pos (by simp [hnames])]
    exact ⟨1, before_of_cut (d.cut_open hnames)⟩

theorem constructorName_print : constructorName (d.print t) = d.reference.text := by
  obtain ⟨n, hn⟩ := d.constructorText_print ht
  have hhash : '#' ∉ d.reference.text := d.reference.dotted_text.not_mem (by decide) (by decide)
  rw [constructorName, hn, constructorWord, List.append_assoc, List.cons_append,
    before_single hhash]

theorem constructorHash_print : constructorHash u (d.print t) = d.hash := by
  obtain ⟨n, hn⟩ := d.constructorText_print ht
  have hhash : '#' ∉ d.reference.text := d.reference.dotted_text.not_mem (by decide) (by decide)
  have hinked : ∀ c ∈ d.hash, inked c = true := by
    intro c hc
    have hall : ∀ c ∈ "0123456789abcdefABCDEF".toList, inked c = true := by decide
    exact hall c (d.hash_hexadecimal c hc)
  rw [constructorHash, hn, constructorWord, List.append_assoc, List.cons_append, afterOr,
    cut_single hhash]
  exact trim_inked (b := []) rfl (solid_spaces n) hinked

theorem variableSchemes_print : variableSchemes (d.print t) = d.variableTexts := by
  rw [variableSchemes, d.hasGenerics_print ht]
  by_cases hnames : d.names = []
  · simp [hnames, variableTexts]
  · have hclose : '}' ∉ [','].intercalate d.variableTexts :=
      d.alphanumericOr_variables.not_mem (by decide) (by decide)
    rw [if_pos (by simp [hnames]), after_of_cut (d.cut_open hnames), before_single hclose]
    apply List.splitOn_intercalate
    · exact fun s hs => (d.alphanumericOr_variableTexts s hs).not_mem (by decide) (by decide)
    · simp [variableTexts, hnames]

/-- Behind the marker are the fields. -/
theorem after_propertiesStringPrefix_print :
    ∃ n, after (propertiesStringPrefix (d.print t)) (d.print t) =
    List.replicate n ' ' ++ (spaced (d.fields.map Field.text) ++ ending t) := by
  unfold propertiesStringPrefix
  rw [d.hasGenerics_print ht, d.hasFlags_print ht]
  rcases hflags : d.hasFlags with - | -
  · by_cases hnames : d.names = []
    · rw [if_neg Bool.false_ne_true, if_neg (by simp [hnames])]
      refine ⟨0, ?_⟩
      rw [after_of_cut d.cut_space, markers, if_pos hnames, hflags]
      rfl
    · rw [if_neg Bool.false_ne_true, if_pos (by simp [hnames])]
      refine ⟨1, ?_⟩
      rw [after_of_cut (d.cut_close hnames), back, hflags]
      rfl
  · exact ⟨1, after_of_cut (d.cut_flags hflags)⟩

theorem propertiesString_print :
    propertiesString u (d.print t) = [' '].intercalate (d.fields.map Field.text) := by
  obtain ⟨n, hafter⟩ := d.after_propertiesStringPrefix_print ht
  have hfields : '=' ∉ spaced (d.fields.map Field.text) :=
    not_mem_spaced d.alphanumericOr_fields (by decide) (by decide) (by decide)
  have hbefore :
      before ['='] (List.replicate n ' ' ++ (spaced (d.fields.map Field.text) ++ ending t)) =
      List.replicate n ' ' ++ spaced (d.fields.map Field.text) := by
    rw [← List.append_assoc]
    apply before_single
    simp [hfields]
  rw [propertiesString, hafter, hbefore]
  exact trim_spaced (solid_spaces n) d.inked_fields

theorem superTypeString_print : superTypeString u (d.print t) = t := by
  have hwords : '=' ∉ spaced (d.front ++ d.back) :=
    not_mem_spaced (d.alphanumericOr_words ".#:_?{},".toList (by decide) fun _ => by decide)
      (by decide) (by decide) (by decide)
  have hsemicolon : ';' ∉ t := ht.not_mem (by decide) (by decide)
  have hafter : after ['='] (d.print t) = (' ' :: t) ++ [';'] := by
    rw [print_eq, ← List.append_assoc, ← spaced_append]
    exact after_single hwords
  rw [superTypeString, hafter, before_single (by simp [hsemicolon])]
  have htrim :=
    trim_inked (u := u) (b := [' ']) (e := []) (solid_spaces 1) rfl (ht.inked (by decide))
  rwa [List.append_nil] at htrim

theorem isValidObjectScheme_print : isValidObjectScheme (d.print t) = true := by
  have hconstructor : '#' ∈ spaced d.front := by
    rw [front, spaced_cons]
    simp [constructorWord]
  have hhash : '#' ∈ before flagsKeyWord (d.print t) := by
    rcases hflags : d.hasFlags with - | -
    · rw [before_of_not_isInfix (d.not_infix_flags ht hflags), print_eq]
      exact List.mem_append_left _ hconstructor
    · rw [before_of_cut (d.cut_flags hflags)]
      exact hconstructor
  have hequals : '=' ∈ d.print t := by simp [print]
  have hend : [';'].isSuffixOf (d.print t) = true := by
    rw [List.isSuffixOf_iff_suffix]
    exact ⟨spaced d.front ++ (spaced d.back ++ '=' :: ' ' :: t), by simp [print_eq, ending]⟩
  have hcomment : ['/'].isPrefixOf (d.print t) = false := by
    have hwords : '/' ∉ spaced (d.front ++ d.back) :=
      not_mem_spaced (d.alphanumericOr_words ".#:_?{},".toList (by decide) fun _ => by decide)
        (by decide) (by decide) (by decide)
    have hending : '/' ∉ ending t := not_mem_ending ht (by decide) (by decide)
    have hslash : '/' ∉ d.print t := by
      rw [print_eq, ← List.append_assoc, ← spaced_append, List.mem_append, not_or]
      exact ⟨hwords, hending⟩
    rw [← Bool.not_eq_true, List.isPrefixOf_iff_prefix]
    exact fun hfront => hslash (hfront.subset List.mem_cons_self)
  rw [isValidObjectScheme, isValidContainerScheme, occurs_single.2 hhash, occurs_single.2 hequals,
    hend, hcomment]
  rfl

/-- The common body of the parsers. -/
theorem parseDeclaration_print {σ : Type} {parseSuperType : Variables → Text → Except Failure σ}
    {superType : σ}
    (hsuper : parseSuperType d.genericVariables t = .ok superType) :
    parseDeclaration u containers (.ok []) parseSuperType (d.print t) =
      .ok (d.spec t superType) := by
  have hvariables : parseVariables u containers [] d.variableTexts = .ok d.genericVariables :=
    parseVariables_eq declares_nil (by simp) d.names_upper
  have hproperties : parseProperties u containers (.ok []) d.genericVariables (d.print t) =
      .ok (d.fields.map Field.propertySpec) := by
    rw [parseProperties, d.propertiesString_print ht]
    by_cases hfields : d.fields = []
    · simp [hfields, isBlank]
    · have hne : d.fields.map Field.text ≠ [] := by simpa using hfields
      rw [(trimmed_intercalate hne d.inked_fields).isBlank_eq_false, if_neg Bool.false_ne_true,
        List.splitOn_intercalate ' ' (fun word hword =>
          space_not_mem (d.inked_fields word hword).2) hne]
      apply mapM_of_forall₂
      rw [List.forall₂_map_left_iff, List.forall₂_map_right_iff, List.forall₂_same]
      exact fun f _ => f.parseProperty_text d.declares_genericVariables d.names_upper
  simp only [parseDeclaration, d.constructorName_print ht, d.reference.splitNamespace_text,
    d.variableSchemes_print ht, d.constructorHash_print ht, d.hasFlags_print ht,
      d.superTypeString_print ht,
    hvariables, d.reference.snakeToTitleCase_name]
  show (parseProperties u containers (.ok []) d.genericVariables (d.print t) >>= fun _ => _) = _
  rw [hproperties]
  show (parseSuperType d.genericVariables t >>= fun _ => _) = _
  rw [hsuper]
  rfl

end

/-- The parsers of objects and of methods return what was printed. -/
theorem parse_print (u : Unicode) (containers : List TLContainerSpec) (d : Canonical u containers) :
    (∀ superType : SuperType d.names,
      parseObject u containers (d.print superType.text) =
        .ok (d.spec superType.text superType.named)) ∧
    ∀ returnType : ReturnType u containers d.names,
      parseMethod u containers (d.print returnType.text) =
        .ok (d.spec returnType.text returnType.typeSpec) := by
  refine ⟨fun superType => ?_, fun returnType => ?_⟩
  · have ht := superType.alphanumericOr_text d.names_upper
    have hsuper : parseTLObject u d.genericVariables containers superType.text =
        .ok superType.named :=
      superType.parseTLObject_text d.declares_genericVariables d.names_upper
    rw [parseObject, if_pos (d.isValidObjectScheme_print ht), d.parseDeclaration_print ht hsuper]
    rfl
  · have ht := returnType.alphanumericOr_text d.names_upper
    have hsuper := returnType.parseType_text d.declares_genericVariables d.names_upper
    rw [parseMethod, isValidMethodScheme, if_pos (d.isValidObjectScheme_print ht),
      d.parseDeclaration_print ht hsuper]
    rfl

/-- A declaration of the scheme: one variable, flags, an optional number and a field of the variable
type. -/
example : ∃ (d : Canonical .ascii []) (superType : SuperType d.names),
    d.print superType.text =
      "a.b.getAll#1f {X:Type} flags:# max_id:flags.12?int query:X = Pair<X>;".toList :=
  ⟨{  reference := ⟨some "a.b".toList, "getAll".toList, by unfold AlphanumericOr; decide, by decide,
        by unfold AlphanumericOr; decide⟩
      hash := "1f".toList
      names := ["X".toList]
      hasFlags := true
      fields :=
        [⟨"max_id".toList, some 12,
            .primitive "int".toList .int (by decide), by unfold AlphanumericOr; decide,
            by decide⟩,
          ⟨"query".toList, none,
            .generic "X".toList (by decide), by unfold AlphanumericOr; decide, by decide⟩]
      hash_hexadecimal := by decide
      names_upper := by decide },
    ⟨⟨none, "Pair".toList, by simp, by decide, by unfold AlphanumericOr; decide⟩,
      ["X".toList], by decide⟩,
    by decide⟩

end Canonical

end

end Mtproto.Parsers
