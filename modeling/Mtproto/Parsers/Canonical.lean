import Mtproto.Parsers.Fields

/-!
# Canonical declarations

Declarations as they are printed, with single spaces, in the form `ns.name#hash {V:Type,...} flags:#
f:T ... = Super;`.  A `Canonical` declaration cannot be ill formed: its references are alphanumeric,
its field types are of the kinds that have a text of their own, and the types that are meant for
objects are neither reserved words nor variables nor containers.  The texts of its types and fields
are parsed back here, the whole line in `Printer`.
-/

namespace Mtproto.Parsers

open Text

/-! ## Alphabets -/

/-- A visible ASCII character. -/
def inked (c : Char) : Bool := 33 ≤ c.toNat && c.toNat < 127

/-- Letters, digits and some further characters. -/
def AlphanumericOr (extra s : Text) : Prop := ∀ c ∈ s, c.isAlphanum = true ∨ c ∈ extra

section

variable {extra s t : Text} {c : Char}

theorem AlphanumericOr.append (hs : AlphanumericOr extra s) (ht : AlphanumericOr extra t) :
    AlphanumericOr extra (s ++ t) := by
  intro c hc
  rcases List.mem_append.1 hc with hc | hc
  · exact hs c hc
  · exact ht c hc

theorem AlphanumericOr.cons (hc : c ∈ extra) (hs : AlphanumericOr extra s) :
    AlphanumericOr extra (c :: s) := by
  intro d hd
  rcases List.mem_cons.1 hd with rfl | hd
  · exact .inr hc
  · exact hs d hd

theorem AlphanumericOr.mono {extra' : Text} (hextra : extra ⊆ extra')
    (hs : AlphanumericOr extra s) :
    AlphanumericOr extra' s :=
  fun c hc => (hs c hc).imp_right fun h => hextra h

theorem AlphanumericOr.intercalate {x : Char} {words : List Text} (hx : x ∈ extra)
    (h : ∀ word ∈ words, AlphanumericOr extra word) :
    AlphanumericOr extra ([x].intercalate words) := by
  induction words with
  | nil => simp [AlphanumericOr]
  | cons word words ih =>
      have hword := h word List.mem_cons_self
      have hrest := ih fun v hv => h v (List.mem_cons_of_mem word hv)
      cases words with
      | nil => simpa using hword
      | cons next words =>
          rw [List.intercalate_cons_cons, List.append_assoc]
          exact hword.append (hrest.cons hx)

theorem AlphanumericOr.not_mem (hs : AlphanumericOr extra s) (hc : c.isAlphanum = false)
    (hextra : c ∉ extra) :
    c ∉ s := by
  intro hmem
  rcases hs c hmem with h | h
  · simp [hc] at h
  · exact hextra h

theorem isUpper_iff : c.isUpper = true ↔ 65 ≤ c.toNat ∧ c.toNat ≤ 90 := by
  change decide (65 ≤ c.val ∧ c.val ≤ 90) = true ↔ _
  rw [decide_eq_true_eq, UInt32.le_iff_toNat_le, UInt32.le_iff_toNat_le]
  rfl

theorem isLower_iff : c.isLower = true ↔ 97 ≤ c.toNat ∧ c.toNat ≤ 122 := by
  change (decide (97 ≤ c.val) && decide (c.val ≤ 122)) = true ↔ _
  rw [Bool.and_eq_true, decide_eq_true_eq, decide_eq_true_eq, UInt32.le_iff_toNat_le,
    UInt32.le_iff_toNat_le]
  rfl

theorem isDigit_iff : c.isDigit = true ↔ 48 ≤ c.toNat ∧ c.toNat ≤ 57 := by
  change (decide (48 ≤ c.val) && decide (c.val ≤ 57)) = true ↔ _
  rw [Bool.and_eq_true, decide_eq_true_eq, decide_eq_true_eq, UInt32.le_iff_toNat_le,
    UInt32.le_iff_toNat_le]
  rfl

theorem isAlphanum_iff :
    c.isAlphanum = true ↔ (c.isUpper = true ∨ c.isLower = true) ∨ c.isDigit = true := by
  change ((c.isUpper || c.isLower) || c.isDigit) = true ↔ _
  rw [Bool.or_eq_true, Bool.or_eq_true]

theorem toNat_of_isAlphanum (h : c.isAlphanum = true) : 48 ≤ c.toNat ∧ c.toNat ≤ 122 := by
  rw [isAlphanum_iff, isUpper_iff, isLower_iff, isDigit_iff] at h
  omega

theorem inked_of_isAlphanum (h : c.isAlphanum = true) : inked c = true := by
  have := toNat_of_isAlphanum h
  simp only [inked, Bool.and_eq_true, decide_eq_true_eq]
  omega

theorem AlphanumericOr.inked (hs : AlphanumericOr extra s) (hextra : ∀ c ∈ extra, inked c = true) :
    ∀ c ∈ s, Parsers.inked c = true := by
  intro c hc
  rcases hs c hc with h | h
  · exact inked_of_isAlphanum h
  · exact hextra c h

theorem isWhitespace_of_inked {u : Unicode} (h : inked c = true) : u.isWhitespace c = false := by
  simp only [Parsers.inked, Bool.and_eq_true, decide_eq_true_eq] at h
  rw [u.isWhitespace_ascii c (by omega)]
  simp only [Bool.or_eq_false_iff, Bool.and_eq_false_iff, decide_eq_false_iff_not]
  omega

theorem space_not_mem (h : ∀ c ∈ s, inked c = true) : ' ' ∉ s :=
  fun hmem => absurd (h _ hmem) (by decide)

/-! ## Title case and camel case -/

/-- The text with a capital first letter. -/
def titleCase : Text → Text
  | [] => []
  | c :: s => c.toUpper :: s

/-- The words between underscores, with capital first letters from the second word on. -/
def camelCase (s : Text) : Text :=
  match s.splitOn '_' with
  | [] => []
  | word :: words => word ++ words.flatMap titleCase

variable {u : Unicode}

theorem isLetter_or_isDigit (h : c.toNat < 128) : (u.isLetter c || u.isDigit c) = c.isAlphanum := by
  rw [u.isLetter_ascii c h, u.isDigit_ascii c h]
  rfl

theorem ascii_of_isAlphanum (h : c.isAlphanum = true) : c.toNat < 128 := by
  have := toNat_of_isAlphanum h
  omega

/-- The loop of `snakeToCamelCase`, in both of its states. -/
theorem camelCaseLoop_eq (hs : AlphanumericOr ['_'] s) :
    camelCaseLoop u false s = camelCase s ∧
      camelCaseLoop u true s = (s.splitOn '_').flatMap titleCase := by
  induction s with
  | nil => simp [camelCaseLoop, camelCase, titleCase]
  | cons c s ih =>
      obtain ⟨ihfalse, ihtrue⟩ := ih fun d hd => hs d (List.mem_cons_of_mem c hd)
      obtain ⟨word, words, hwords⟩ := List.exists_cons_of_ne_nil (List.splitOn_ne_nil '_' s)
      rw [camelCaseLoop, camelCaseLoop, camelCase, List.splitOn_cons_eq_if_modifyHead]
      rw [camelCase, hwords] at ihfalse
      rw [hwords] at ihtrue ⊢
      rcases hs c List.mem_cons_self with halphanum | hunderscore
      · have hascii := ascii_of_isAlphanum halphanum
        have hkept : (u.isLetter c || u.isDigit c) = true := by
          rw [isLetter_or_isDigit hascii, halphanum]
        have hnot : (!u.isLetter c && !u.isDigit c) = false := by
          rw [← Bool.not_or, hkept]
          rfl
        have hne : c ≠ '_' := by
          rintro rfl
          exact absurd halphanum (by decide)
        simp [hkept, hnot, hne, ihfalse, titleCase, u.toUpperCase_ascii c hascii]
      · rw [List.mem_singleton.1 hunderscore]
        have hdropped : (u.isLetter '_' || u.isDigit '_') = false := by
          rw [isLetter_or_isDigit (by decide)]
          decide
        have hnot : (!u.isLetter '_' && !u.isDigit '_') = true := by
          rw [← Bool.not_or, hdropped]
          rfl
        simp [hdropped, hnot, ihtrue, titleCase]

theorem snakeToCamelCase_eq (hs : AlphanumericOr ['_'] s) : snakeToCamelCase u s = camelCase s :=
  (camelCaseLoop_eq hs).1

theorem camelCase_of_alphanumeric (hs : AlphanumericOr [] s) : camelCase s = s := by
  rw [camelCase, List.splitOn_eq_singleton (hs.not_mem (by decide) (by simp))]
  simp

theorem snakeToTitleCase_eq (hne : s ≠ []) (hs : AlphanumericOr [] s) :
    snakeToTitleCase u s = .ok (titleCase s) := by
  rw [snakeToTitleCase, snakeToCamelCase_eq (hs.mono (by simp)), camelCase_of_alphanumeric hs]
  cases s with
  | nil => exact absurd rfl hne
  | cons c s =>
      have hc : c.isAlphanum = true := by simpa using hs c List.mem_cons_self
      have hblank : isBlank u (c :: s) = false := by
        simp [isBlank, isWhitespace_of_inked (inked_of_isAlphanum hc)]
      simp [camelToTitleCase, hblank, titleCase, u.toUpperCase_ascii c (ascii_of_isAlphanum hc)]

end

/-! ## Declarations -/

/-- A name with an optional dotted namespace. -/
structure Reference where
  nameSpace : Option Text
  name : Text
  nameSpace_dotted : ∀ s ∈ nameSpace, AlphanumericOr ['.'] s
  name_ne_nil : name ≠ []
  name_alphanumeric : AlphanumericOr [] name

def Reference.text (r : Reference) : Text :=
  match r.nameSpace with
  | some s => s ++ '.' :: r.name
  | none => r.name

/-- A text with a meaning of its own as a type. -/
def isReserved (s : Text) : Bool := (primitiveTypes.lookup s).isSome || (signatureType s).isSome

section

variable (u : Unicode) (containers : List TLContainerSpec) (names : List Text)

/-- The type of a field, where the variables `names` are declared. -/
inductive FieldType where
  | primitive (keyWord : Text) (clazz : Generator.PrimitiveClass) (h : (keyWord, clazz) ∈
      primitiveTypes)
  | bytes
  | flag
  | object (r : Reference) (not_reserved : isReserved r.text = false) (not_variable : r.text ∉
      names)
      (not_container : findContainer u containers r.text = none)
  | generic (name : Text) (h : name ∈ names)

variable {u containers names}

def FieldType.text : FieldType u containers names → Text
  | primitive keyWord _ _ => keyWord
  | bytes => bytesSignature
  | flag => booleanFlagSignature
  | object r _ _ _ => r.text
  | generic name _ => name

/-- The spec of a field type. -/
def FieldType.typeSpec : FieldType u containers names → TLTypeSpec
  | primitive _ clazz _ => .primitive clazz
  | bytes => .bytes none
  | flag => .flag
  | object r _ _ _ => .object r.nameSpace (titleCase r.name) []
  | generic name _ => .genericVariable name .type

variable (u containers names)

structure Field where
  name : Text
  flag : Option ℕ
  type : FieldType u containers names
  name_snake : AlphanumericOr ['_'] name
  flag_lt : ∀ n ∈ flag, n < 2 ^ 31

variable {u containers names}

/-- The text behind the colon. -/
def Field.description (f : Field u containers names) : Text :=
  match f.flag with
  | some n => propertyFlagPrefix ++ (Nat.toDigits 10 n ++ '?' :: f.type.text)
  | none => f.type.text

def Field.text (f : Field u containers names) : Text := f.name ++ ':' :: f.description

def Field.propertySpec (f : Field u containers names) : TLPropertySpec :=
  ⟨f.text, camelCase f.name, f.flag.map Int.ofNat, f.type.typeSpec⟩

variable (names)

/-- A super type: a reference with declared variables for arguments. -/
structure SuperType where
  reference : Reference
  arguments : List Text
  arguments_declared : ∀ v ∈ arguments, v ∈ names

variable {names}

def SuperType.text (t : SuperType names) : Text :=
  if t.arguments = [] then t.reference.text else appliedScheme t.reference.text t.arguments

def SuperType.named (t : SuperType names) : Named :=
  ⟨t.reference.nameSpace, titleCase t.reference.name, t.arguments.map fun v =>
    .genericVariable v .type⟩

variable (u containers names)

/-- The super type of a method, which may also be of the types of fields. -/
inductive ReturnType where
  | field (t : FieldType u containers names)
  | applied (t : SuperType names) (arguments_ne_nil : t.arguments ≠ [])
      (not_container : findContainer u containers t.text = none)

variable {u containers names}

def ReturnType.text : ReturnType u containers names → Text
  | field t => t.text
  | applied t _ _ => t.text

def ReturnType.typeSpec : ReturnType u containers names → TLTypeSpec
  | field t => t.typeSpec
  | applied t _ _ => t.named.object

variable (u containers)

/-- A declaration in front of its super type. -/
structure Canonical where
  reference : Reference
  hash : Text
  names : List Text
  hasFlags : Bool
  fields : List (Field u containers names)
  hash_hexadecimal : ∀ c ∈ hash, c ∈ "0123456789abcdefABCDEF".toList
  names_upper : ∀ v ∈ names, ∀ c ∈ v, c.isUpper = true

variable {u containers}

namespace Canonical

variable (d : Canonical u containers)

def constructorWord : Text := d.reference.text ++ '#' :: d.hash

def variableTexts : List Text := d.names.map fun v => v ++ ':' :: anyTypeSignature

def variablesWord : Text := '{' :: [','].intercalate d.variableTexts ++ ['}']

/-- The words in front of the fields and behind the constructor. -/
def markers : List Text :=
  (if d.names = [] then [] else [d.variablesWord]) ++ if d.hasFlags then [flagsKeyWord] else []

/-- Each word with a space behind it. -/
def spaced (words : List Text) : Text := words.flatMap fun word => word ++ [' ']

def print (superType : Text) : Text :=
  spaced (d.constructorWord :: (d.markers ++ d.fields.map Field.text)) ++ '=' :: ' ' ::
    (superType ++ [';'])

/-- The variables as the map of the parsers. -/
def genericVariables : Variables := d.names.foldl (fun vs v => vs.put ⟨v, .type⟩) []

/-- What the parsers have to return. -/
def spec {σ : Type} (superText : Text) (superType : σ) : Declaration σ where
  rawScheme := d.print superText
  name := titleCase d.reference.name
  nameSpace := d.reference.nameSpace
  superType := superType
  constructorHash := d.hash
  hasFlags := d.hasFlags
  propertiesSpecs := d.fields.map Field.propertySpec
  genericVariables := d.genericVariables

end Canonical

/-! ## The texts -/

theorem Reference.dotted_text (r : Reference) : AlphanumericOr ['.'] r.text := by
  have hname := r.name_alphanumeric.mono (List.nil_subset ['.'])
  unfold Reference.text
  split
  · next s hs => exact (r.nameSpace_dotted s hs).append (hname.cons (by simp))
  · exact hname

theorem Reference.splitNamespace_text (r : Reference) :
    splitNamespace r.text = (r.nameSpace, r.name) := by
  have hdot : '.' ∉ r.name := r.name_alphanumeric.not_mem (by decide) (by simp)
  unfold splitNamespace Reference.text
  split
  · next s hs =>
      have hoccurs : occurs ['.'] (s ++ '.' :: r.name) = true := occurs_single.2 (by simp)
      rw [if_pos hoccurs, beforeLast_single hdot, afterLast_single hdot, hs]
  · next hs => rw [if_neg (by rw [occurs_single]; exact hdot), hs]

theorem Reference.snakeToTitleCase_name (r : Reference) :
    snakeToTitleCase u r.name = .ok (titleCase r.name) :=
  snakeToTitleCase_eq r.name_ne_nil r.name_alphanumeric

theorem alphanumericOr_of_isUpper (extra : Text) {v : Text} (h : ∀ c ∈ v, c.isUpper = true) :
    AlphanumericOr extra v := by
  intro c hc
  left
  exact isAlphanum_iff.2 (.inl (.inl (h c hc)))

theorem FieldType.dotted_text (hnames : ∀ v ∈ names, ∀ c ∈ v, c.isUpper = true)
    (t : FieldType u containers names) : AlphanumericOr ['.'] t.text := by
  cases t with
  | primitive keyWord clazz h =>
      have hall : ∀ e ∈ primitiveTypes, ∀ c ∈ e.1, c.isAlphanum = true ∨ c ∈ ['.'] := by decide
      exact hall _ h
  | bytes => exact show ∀ c ∈ bytesSignature, c.isAlphanum = true ∨ c ∈ ['.'] by decide
  | flag => exact show ∀ c ∈ booleanFlagSignature, c.isAlphanum = true ∨ c ∈ ['.'] by decide
  | object r _ _ _ => exact r.dotted_text
  | generic name h => exact alphanumericOr_of_isUpper _ (hnames name h)

/-- The characters of a field. -/
theorem Field.alphanumericOr_text (hnames : ∀ v ∈ names, ∀ c ∈ v, c.isUpper = true)
    (f : Field u containers names) : AlphanumericOr "_:.?".toList f.text := by
  have htype : AlphanumericOr "_:.?".toList f.type.text :=
    (f.type.dotted_text hnames).mono (by decide)
  have hdescription : AlphanumericOr "_:.?".toList f.description := by
    unfold Field.description
    split
    · next n hn =>
        apply AlphanumericOr.append
        · exact show ∀ c ∈ propertyFlagPrefix, c.isAlphanum = true ∨ c ∈ "_:.?".toList by decide
        · apply AlphanumericOr.append
          · intro c hc
            left
            exact isAlphanum_iff.2 (.inr (Nat.isDigit_of_mem_toDigits (by decide) (by decide) hc))
          · exact htype.cons (by decide)
    · exact htype
  exact (f.name_snake.mono (by decide)).append (hdescription.cons (by decide))

theorem SuperType.alphanumericOr_text (hnames : ∀ v ∈ names, ∀ c ∈ v, c.isUpper = true)
    (t : SuperType names) :
    AlphanumericOr ".<>,".toList t.text := by
  have href : AlphanumericOr ".<>,".toList t.reference.text :=
    t.reference.dotted_text.mono (by decide)
  unfold SuperType.text
  split
  · exact href
  · have harguments : AlphanumericOr ".<>,".toList ([','].intercalate t.arguments) :=
      .intercalate (by decide) fun v hv =>
        alphanumericOr_of_isUpper _ (hnames v (t.arguments_declared v hv))
    have hend : AlphanumericOr ".<>,".toList ['>'] := fun c hc => .inr (by simp_all)
    exact (href.append (harguments.cons (by decide))).append hend

theorem ReturnType.alphanumericOr_text (hnames : ∀ v ∈ names, ∀ c ∈ v, c.isUpper = true)
    (t : ReturnType u containers names) : AlphanumericOr ".<>,".toList t.text := by
  cases t with
  | field t => exact (t.dotted_text hnames).mono (by decide)
  | applied t _ _ => exact t.alphanumericOr_text hnames

/-! ## The variables -/

theorem Variables.get_map_replace (vs : Variables) (v : Variable) (name : Text) :
    Variables.get (vs.map fun w => if w.name = v.name then v else w) name =
      if name = v.name then (vs.get name).map (fun _ => v) else vs.get name := by
  induction vs with
  | nil => simp [Variables.get]
  | cons w vs ih =>
      unfold Variables.get at ih ⊢
      rw [List.map_cons, List.find?_cons, List.find?_cons, ih]
      by_cases hw : w.name = v.name
      · by_cases hname : name = v.name
        · simp [hw, hname]
        · have hne : ¬ v.name = name := fun h => hname h.symm
          simp [hw, hname, hne]
      · by_cases hname : name = v.name
        · simp [hw, hname]
        · simp [hw, hname]

theorem Variables.get_put (vs : Variables) (v : Variable) (name : Text) :
    (vs.put v).get name = if name = v.name then some v else vs.get name := by
  unfold Variables.put
  split
  · next hsome =>
      rw [Variables.get_map_replace]
      by_cases hname : name = v.name
      · obtain ⟨w, hw⟩ := Option.isSome_iff_exists.1 hsome
        rw [if_pos hname, if_pos hname, hname, hw]
        rfl
      · rw [if_neg hname, if_neg hname]
  · next hnone =>
      rw [Option.not_isSome_iff_eq_none] at hnone
      unfold Variables.get at hnone ⊢
      rw [List.find?_append]
      by_cases hname : name = v.name
      · simp [hname, hnone]
      · have hne : ¬ v.name = name := fun h => hname h.symm
        simp [hname, hne]

/-- The map has the variables `names`, each of super type `Type`. -/
def Declares (vs : Variables) (names : List Text) : Prop :=
  ∀ name, vs.get name = if name ∈ names then some ⟨name, .type⟩ else none

theorem declares_foldl {vs : Variables} {before : List Text} (names : List Text)
    (h : Declares vs before) :
    Declares (names.foldl (fun vs v => vs.put ⟨v, .type⟩) vs) (before ++ names) := by
  induction names generalizing vs before with
  | nil => simpa using h
  | cons v names ih =>
      have hput : Declares (vs.put ⟨v, .type⟩) (before ++ [v]) := by
        intro name
        rw [Variables.get_put, h name]
        by_cases hname : name = v
        · simp [hname]
        · simp [hname]
      simpa using ih hput

/-- A text with a small letter is no variable. -/
theorem Declares.get_eq_none {vs : Variables} (h : Declares vs names)
    (hnames : ∀ v ∈ names, ∀ c ∈ v, c.isUpper = true) {name : Text} {c : Char} (hc : c ∈ name)
    (hlower : c.isUpper = false) : vs.get name = none := by
  rw [h name, if_neg]
  intro hmem
  rw [hnames name hmem c hc] at hlower
  cases hlower

theorem uppercase_of_isUpper {v : Text} (hv : ∀ c ∈ v, c.isUpper = true) : u.uppercase v = v := by
  apply u.uppercase_ascii
  intro c hc
  have hupper := hv c hc
  refine ⟨ascii_of_isAlphanum (isAlphanum_iff.2 (.inl (.inl hupper))), ?_⟩
  rw [isUpper_iff] at hupper
  rw [← Bool.not_eq_true, isLower_iff]
  omega

theorem parseGenericVariable_eq {vs : Variables} (h : Declares vs names)
    (hnames : ∀ v ∈ names, ∀ c ∈ v, c.isUpper = true) {v : Text} (hv : ∀ c ∈ v, c.isUpper = true) :
    parseGenericVariable u vs containers (v ++ ':' :: anyTypeSignature) = .ok ⟨v, .type⟩ := by
  have hcolon : ':' ∉ v := (alphanumericOr_of_isUpper [] hv).not_mem (by decide) (by simp)
  have hnone : vs.get anyTypeSignature = none :=
    h.get_eq_none hnames (c := 'y') (by decide) (by decide)
  have htype : parseType u vs containers anyTypeSignature = .ok .type := by
    rw [parseType_eq, parseTypeWith, show primitiveTypes.lookup anyTypeSignature = none by decide]
    simp only [hnone, show signatureType anyTypeSignature = some .type by decide]
  rw [parseGenericVariable, before_single hcolon, after_single hcolon, htype,
    uppercase_of_isUpper hv]
  rfl

/-- The loop over the variables. -/
theorem parseVariables_eq {vs : Variables} {done : List Text} (h : Declares vs done)
    (hdone : ∀ v ∈ done, ∀ c ∈ v, c.isUpper = true)
    (hnames : ∀ v ∈ names, ∀ c ∈ v, c.isUpper = true) :
    parseVariables u containers vs (names.map fun v => v ++ ':' :: anyTypeSignature) =
      .ok (names.foldl (fun vs v => vs.put ⟨v, .type⟩) vs) := by
  induction names generalizing vs done with
  | nil => rfl
  | cons v names ih =>
      have hv := hnames v List.mem_cons_self
      have hput : Declares (vs.put ⟨v, .type⟩) (done ++ [v]) := declares_foldl [v] h
      rw [List.map_cons, parseVariables, parseGenericVariable_eq h hdone hv]
      apply ih hput
      · intro w hw
        rcases List.mem_append.1 hw with hw | hw
        · exact hdone w hw
        · rw [List.mem_singleton.1 hw]
          exact hv
      · exact fun w hw => hnames w (List.mem_cons_of_mem v hw)

/-! ## Numbers -/

theorem digitsValue_eq {s : Text} (h : ∀ c ∈ s, c.isDigit = true) (value : ℕ) :
    digitsValue u value s = some (Nat.ofDigitChars 10 s value) := by
  induction s generalizing value with
  | nil => rfl
  | cons c s ih =>
      have hc := h c List.mem_cons_self
      have hascii : c.toNat < 128 := ascii_of_isAlphanum (isAlphanum_iff.2 (.inr hc))
      have hdigit : u.digit c = some (c.toNat - 48) := by rw [u.digit_ascii c hascii, if_pos hc]
      rw [digitsValue, hdigit, Nat.ofDigitChars_cons, Nat.mul_comm 10 value]
      exact ih (fun d hd => h d (List.mem_cons_of_mem c hd)) _

/-- A decimal number is read back. -/
theorem toInt_toDigits {n : ℕ} (hn : n < 2 ^ 31) : toInt u (Nat.toDigits 10 n) = .ok (n : ℤ) := by
  have hdigits : ∀ c ∈ Nat.toDigits 10 n, c.isDigit = true := fun c hc =>
    Nat.isDigit_of_mem_toDigits (by decide) (by decide) hc
  have hvalue := digitsValue_eq (u := u) hdigits 0
  rw [Nat.ofDigitChars_ten_toDigits] at hvalue
  obtain ⟨c, s, hcs⟩ := List.exists_cons_of_ne_nil (l := Nat.toDigits 10 n) Nat.toDigits_ne_nil
  rw [hcs] at hvalue hdigits ⊢
  have hc := hdigits c List.mem_cons_self
  unfold toInt
  split
  next sign digits heq =>
  have hsign : (1, c :: s) = (sign, digits) := by
    rw [← heq]
    split
    · next hminus =>
        cases hminus
        exact absurd hc (by decide)
    · next hplus =>
        cases hplus
        exact absurd hc (by decide)
    · rfl
  cases hsign
  simp only [hvalue]
  rw [if_pos (by constructor <;> omega), Int.one_mul]

/-! ## The types -/

/-- The text of an object type that is none of the other types. -/
theorem parseType_object {vs : Variables} {s : Text} {named : Named}
    (hreserved : isReserved s = false)
    (hvariable : vs.get s = none) (hbracket : '[' ∉ s)
    (hcontainer : findContainer u containers s = none)
    (hparse : parseTLObject u vs containers s = .ok named) :
    parseType u vs containers s = .ok named.object := by
  rw [isReserved, Bool.or_eq_false_iff, Option.isSome_eq_false_iff, Option.isSome_eq_false_iff,
    Option.isNone_iff_eq_none, Option.isNone_iff_eq_none] at hreserved
  have hcomposite : Composite vs s := {
    not_primitive := hreserved.1
    not_variable := hvariable
    not_signature := hreserved.2
    not_fixedBytes := by simp [isFixedBytes, not_occurs_single.2 hbracket] }
  have hlist : isList s = false := by
    rw [isList, Bool.and_eq_false_iff]
    left
    rw [← Bool.not_eq_true, List.isPrefixOf_iff_prefix]
    exact fun hfront => hbracket (hfront.subset List.mem_cons_self)
  rw [parseType_name hcomposite hlist, hcontainer]
  simp only [hparse]
  rfl

/-- A reserved word is written with letters. -/
theorem isReserved_of_not_alphanum {s : Text} {c : Char} (hc : c ∈ s)
    (hnot : c.isAlphanum = false) :
    isReserved s = false := by
  have hne : ∀ t : Text, (∀ d ∈ t, d.isAlphanum = true) → s ≠ t := by
    rintro t ht rfl
    rw [ht c hc] at hnot
    cases hnot
  have hlookup : primitiveTypes.lookup s = none := by
    rw [List.lookup_eq_none_iff]
    intro e he
    have hall : ∀ e ∈ primitiveTypes, ∀ d ∈ e.1, d.isAlphanum = true := by decide
    exact bne_iff_ne.2 (hne e.1 (hall e he))
  have hsignature : signatureType s = none := by
    rw [signatureType, if_neg (hne _ (by decide)), if_neg (hne _ (by decide)),
      if_neg (hne _ (by decide)), if_neg (hne _ (by decide)), if_neg (hne _ (by decide))]
  simp [isReserved, hlookup, hsignature]

theorem Reference.parseTLObject_text (vs : Variables) (r : Reference) :
    parseTLObject u vs containers r.text = .ok ⟨r.nameSpace, titleCase r.name, []⟩ := by
  have hno : hasArguments r.text = false := by
    rw [hasArguments, not_occurs_single.2 (r.dotted_text.not_mem (by decide) (by decide))]
    rfl
  rw [parseTLObject_eq_ok_iff, Denotes, argumentSchemes, plainName, hno]
  rw [if_neg Bool.false_ne_true, if_neg Bool.false_ne_true, r.splitNamespace_text]
  exact ⟨rfl, r.snakeToTitleCase_name, rfl⟩

theorem Field.parseFlagged_description (hnames : ∀ v ∈ names, ∀ c ∈ v, c.isUpper = true)
    (f : Field u containers names) :
    parseFlagged u f.description = .ok (f.flag.map Int.ofNat, f.type.text) := by
  have hquestion : '?' ∉ f.type.text := (f.type.dotted_text hnames).not_mem (by decide) (by decide)
  unfold Field.description parseFlagged
  rcases hflag : f.flag with - | n
  · simp only [not_occurs_single.2 hquestion]
    rfl
  · have hdigits : '?' ∉ Nat.toDigits 10 n := fun hmem =>
      absurd (Nat.isDigit_of_mem_toDigits (by decide) (by decide) hmem) (by decide)
    have hfront : '?' ∉ propertyFlagPrefix := by decide
    have hoccurs : occurs ['?'] (propertyFlagPrefix ++ (Nat.toDigits 10 n ++ '?' :: f.type.text)) =
        true :=
      occurs_single.2 (by simp)
    have hafter :
        after propertyFlagPrefix (propertyFlagPrefix ++ (Nat.toDigits 10 n ++ '?' :: f.type.text)) =
        Nat.toDigits 10 n ++ '?' :: f.type.text := by
      have hcut := cut_append (c := 'f') (d := "lags.".toList) (a := [])
        (b := Nat.toDigits 10 n ++ '?' :: f.type.text) (by decide) (by decide)
      exact after_of_cut hcut
    have htype : after ['?'] (propertyFlagPrefix ++ (Nat.toDigits 10 n ++ '?' :: f.type.text)) =
        f.type.text := by
      rw [← List.append_assoc, after_single]
      rw [List.mem_append, not_or]
      exact ⟨hfront, hdigits⟩
    simp only [hoccurs, if_true, parseTypeFlag, hafter, htype, before_single hdigits,
      toInt_toDigits (f.flag_lt n hflag)]
    rfl

section

variable {vs : Variables} (h : Declares vs names) (hnames : ∀ v ∈ names, ∀ c ∈ v, c.isUpper = true)

include h hnames

theorem parseGeneric_name {v : Text} (hv : v ∈ names) :
    parseGeneric u vs containers v = .ok (.genericVariable v .type) := by
  rw [parseGeneric, parseGenericWith, uppercase_of_isUpper (hnames v hv), h v, if_pos hv]
  rfl

theorem SuperType.parseTLObject_text (t : SuperType names) :
    parseTLObject u vs containers t.text = .ok t.named := by
  unfold SuperType.text SuperType.named
  split
  · next hnil => rw [hnil, t.reference.parseTLObject_text vs, List.map_nil]
  · next hne =>
      have hless : '<' ∉ t.reference.text := t.reference.dotted_text.not_mem (by decide) (by decide)
      rw [parseTLObject_eq_ok_iff, Denotes, argumentSchemes_appliedScheme hless,
        plainName_appliedScheme hless, t.reference.splitNamespace_text]
      refine ⟨rfl, t.reference.snakeToTitleCase_name, ?_⟩
      rw [List.splitOn_intercalate ',' ?_ hne]
      · apply mapM_of_forall₂
        rw [List.forall₂_map_right_iff, List.forall₂_same]
        exact fun v hv => parseGeneric_name h hnames (t.arguments_declared v hv)
      · intro v hv
        exact (alphanumericOr_of_isUpper [] (hnames v (t.arguments_declared v hv))).not_mem
          (by decide) (by simp)

theorem FieldType.parseType_text (t : FieldType u containers names) :
    parseType u vs containers t.text = .ok t.typeSpec := by
  cases t with
  | primitive keyWord clazz hmem =>
      have hall : ∀ e ∈ primitiveTypes, primitiveTypes.lookup e.1 = some e.2 := by decide
      rw [parseType_eq, parseTypeWith]
      simp only [FieldType.text, hall _ hmem]
      rfl
  | bytes =>
      have hnone : vs.get bytesSignature = none :=
        h.get_eq_none hnames (c := 'b') (by decide) (by decide)
      rw [parseType_eq, parseTypeWith, FieldType.text, show primitiveTypes.lookup bytesSignature =
        none by decide]
      simp only [hnone, show signatureType bytesSignature = some (.bytes none) by decide]
      rfl
  | flag =>
      have hnone : vs.get booleanFlagSignature = none :=
        h.get_eq_none hnames (c := 't') (by decide) (by decide)
      rw [parseType_eq, parseTypeWith, FieldType.text,
        show primitiveTypes.lookup booleanFlagSignature = none by decide]
      simp only [hnone, show signatureType booleanFlagSignature = some .flag by decide]
      rfl
  | object r not_reserved not_variable not_container =>
      have hbracket : '[' ∉ r.text := r.dotted_text.not_mem (by decide) (by decide)
      have hvariable : vs.get r.text = none := by rw [h, if_neg not_variable]
      exact parseType_object not_reserved hvariable hbracket not_container (r.parseTLObject_text vs)
  | generic name hmem =>
      have hlookup : primitiveTypes.lookup name = none := by
        rw [List.lookup_eq_none_iff]
        intro e he
        have hall : ∀ e ∈ primitiveTypes, ∃ c ∈ e.1, c.isUpper = false := by decide
        obtain ⟨c, hc, hlower⟩ := hall e he
        rw [bne_iff_ne]
        rintro rfl
        rw [hnames _ hmem c hc] at hlower
        cases hlower
      rw [parseType_eq, parseTypeWith, FieldType.text, hlookup]
      simp only [h name, if_pos hmem]
      rfl

theorem ReturnType.parseType_text (t : ReturnType u containers names) :
    parseType u vs containers t.text = .ok t.typeSpec := by
  cases t with
  | field t => exact t.parseType_text h hnames
  | applied t arguments_ne_nil not_container =>
      have hless : '<' ∈ t.text := by simp [SuperType.text, arguments_ne_nil, appliedScheme]
      have hbracket : '[' ∉ t.text := (t.alphanumericOr_text hnames).not_mem (by decide) (by decide)
      have hvariable : vs.get t.text = none := h.get_eq_none hnames hless (by decide)
      exact parseType_object (isReserved_of_not_alphanum hless (by decide)) hvariable hbracket
        not_container
        (t.parseTLObject_text h hnames)

/-! ## The fields -/

theorem Field.parseProperty_text (f : Field u containers names) :
    parseProperty u vs containers f.text = .ok f.propertySpec := by
  have hcolon : ':' ∉ f.name := f.name_snake.not_mem (by decide) (by decide)
  unfold Field.text
  rw [parseProperty, before_single hcolon, after_single hcolon, f.parseFlagged_description hnames]
  simp only [snakeToCamelCase_eq f.name_snake]
  show (parseType u vs containers f.type.text >>= fun propertyTypeSpec => _) = _
  rw [f.type.parseType_text h hnames]
  rfl

end

end

end Mtproto.Parsers
