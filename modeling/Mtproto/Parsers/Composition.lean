import Mtproto.Parsers.Declarations
import Mathlib.Data.List.Forall2

/-!
# Types that are made of types

When the type parser takes a list, an argument list or a reference to a container for what it is.
The test for byte arrays of a fixed size also holds of lists, argument lists are cut at every comma,
and containers are found by the name of their constructor; each main theorem says for which texts
this does not matter.
-/

namespace Mtproto.Parsers

open Text

theorem bind_eq_ok {α β : Type} {x : Except Failure α} {f : α → Except Failure β} {b : β}
    (h : (x >>= f) = .ok b) : ∃ a, x = .ok a ∧ f a = .ok b := by
  cases x with
  | error e => cases h
  | ok a => exact ⟨a, rfl, h⟩

theorem map_eq_ok {α β : Type} {f : α → β} {x : Except Failure α} {b : β} (h : f <$> x = .ok b) :
    ∃ a, x = .ok a ∧ f a = b := by
  cases x with
  | error e => cases h
  | ok a => exact ⟨a, rfl, Except.ok.inj h⟩

theorem eq_ok_of_rethrown {α : Type} {line : Text} {x : Except Failure α} {a : α}
    (h : rethrown line x = .ok a) : x = .ok a := by
  cases x with
  | ok b => exact h
  | error e => cases h

section

variable {u : Unicode} {genericVariables : Variables} {containers : List TLContainerSpec}

/-! ## The branches of `parseType` -/

/-- The text has none of the forms that are tested before lists and names. -/
structure Composite (genericVariables : Variables) (typeScheme : Text) : Prop where
  not_primitive : primitiveTypes.lookup typeScheme = none
  not_variable : genericVariables.get typeScheme = none
  not_signature : signatureType typeScheme = none
  not_fixedBytes : isFixedBytes typeScheme = false

theorem parseType_list {typeScheme : Text} (h : Composite genericVariables typeScheme)
    (hlist : isList typeScheme = true) :
    parseType u genericVariables containers typeScheme =
      (do let genericSpec ← parseGeneric u genericVariables containers (elementScheme u typeScheme)
          return .collection genericSpec) := by
  rw [parseType_eq, parseTypeWith, h.not_primitive]
  simp only [h.not_variable, h.not_signature, h.not_fixedBytes, hlist, Bool.false_eq_true, if_false,
    if_true, parseGeneric]

theorem parseType_name {typeScheme : Text} (h : Composite genericVariables typeScheme)
    (hlist : isList typeScheme = false) :
    parseType u genericVariables containers typeScheme =
      match findContainer u containers typeScheme with
      | some c => .ok c.superType.container
      | none => do
          let named ← parseTLObject u genericVariables containers typeScheme
          return named.object := by
  rw [parseType_eq, parseTypeWith, h.not_primitive]
  rcases findContainer u containers typeScheme with - | c
  · simp [h.not_variable, h.not_signature, h.not_fixedBytes, hlist, parseTLObject]
  · simp [h.not_variable, h.not_signature, h.not_fixedBytes, hlist]

/-- Primitive types, variables, signatures and fixed sizes. -/
inductive TLTypeSpec.IsBasic : TLTypeSpec → Prop
  | primitive (clazz : Generator.PrimitiveClass) : IsBasic (.primitive clazz)
  | variable (v : Variable) : IsBasic v.spec
  | type : IsBasic .type
  | superObject : IsBasic .superObject
  | superContainer : IsBasic .superContainer
  | flag : IsBasic .flag
  | bytes (fixedSize : Option ℤ) : IsBasic (.bytes fixedSize)

theorem isBasic_of_signatureType {typeScheme : Text} {t : TLTypeSpec}
    (h : signatureType typeScheme = some t) :
    t.IsBasic := by
  unfold signatureType at h
  split_ifs at h <;> cases h <;> constructor

/-- All other texts are lists or names. -/
theorem composite_or_isBasic (u : Unicode) (genericVariables : Variables)
    (containers : List TLContainerSpec)
    (typeScheme : Text) :
    Composite genericVariables typeScheme ∨
      ∀ t, parseType u genericVariables containers typeScheme = .ok t → t.IsBasic := by
  rw [parseType_eq, parseTypeWith]
  rcases hprimitive : primitiveTypes.lookup typeScheme with - | clazz
  · rcases hvariable : genericVariables.get typeScheme with - | v
    · rcases hsignature : signatureType typeScheme with - | t
      · by_cases hbytes : isFixedBytes typeScheme = true
        · right
          intro t ht
          simp only [hbytes, if_true] at ht
          obtain ⟨size, -, hsize⟩ := bind_eq_ok ht
          cases hsize
          exact .bytes (some size)
        · exact .inl ⟨hprimitive, hvariable, hsignature, Bool.not_eq_true _ ▸ hbytes⟩
      · right
        intro t' ht
        cases ht
        exact isBasic_of_signatureType hsignature
    · right
      intro t ht
      cases ht
      exact .variable v
  · right
    intro t ht
    cases ht
    exact .primitive clazz

/-! ## Lists -/

/-- The text of a list of the type that `element` describes. -/
def listScheme (element : Text) : Text := '[' :: element ++ [']']

theorem isList_listScheme (element : Text) : isList (listScheme element) = true := by
  rw [isList, Bool.and_eq_true]
  exact ⟨List.isPrefixOf_iff_prefix.2 ⟨element ++ [']'], rfl⟩,
    List.isSuffixOf_iff_suffix.2 ⟨'[' :: element, rfl⟩⟩

theorem elementScheme_listScheme (element : Text) :
    elementScheme u (listScheme element) = trim u element := by
  have hfront : removePrefix ['['] (listScheme element) = element ++ [']'] :=
    removePrefix_append ['['] (element ++ [']'])
  rw [elementScheme, hfront, removeSuffix_append]

theorem isFixedBytes_listScheme (element : Text) :
    isFixedBytes (listScheme element) = occurs bytesSignature element := by
  have hopen : occurs ['['] (listScheme element) = true := occurs_single.2 (by simp [listScheme])
  have hclose : occurs [']'] (listScheme element) = true := occurs_single.2 (by simp [listScheme])
  rw [isFixedBytes, hopen, hclose, Bool.and_true, Bool.and_true, Bool.eq_iff_iff, occurs_iff,
    occurs_iff]
  constructor
  · intro h
    -- no letter of the word is a bracket
    rcases infix_append_cons (a := '[' :: element) (b := []) (x := ']') (by decide) h with h | h
    · rcases infix_append_cons (a := []) (b := element) (x := '[') (by decide) h with h | h
      · exact absurd h (by decide)
      · exact h
    · exact absurd h (by decide)
  · intro h
    exact h.trans ⟨['['], [']'], rfl⟩

theorem ne_listScheme {s : Text} (h : '[' ∉ s) (element : Text) : listScheme element ≠ s := by
  rintro rfl
  simp [listScheme] at h

theorem lookup_listScheme (element : Text) : primitiveTypes.lookup (listScheme element) = none := by
  rw [List.lookup_eq_none_iff]
  intro entry hentry
  have hplain : ∀ entry ∈ primitiveTypes, '[' ∉ entry.1 := by decide
  rw [bne_iff_ne]
  exact ne_listScheme (hplain entry hentry) element

theorem signatureType_listScheme (element : Text) : signatureType (listScheme element) = none := by
  rw [signatureType, if_neg (ne_listScheme (by decide) element),
    if_neg (ne_listScheme (by decide) element), if_neg (ne_listScheme (by decide) element),
    if_neg (ne_listScheme (by decide) element), if_neg (ne_listScheme (by decide) element)]

/-- What a type is as a generic argument: the variable that its text names, or a parameter. -/
def genericOf (u : Unicode) (genericVariables : Variables) (typeScheme : Text)
    (typeSpec : TLTypeSpec) :
    TLTypeSpec :=
  match genericVariables.get (u.uppercase typeScheme) with
  | some genericVariable => genericVariable.spec
  | none => .genericParameter typeSpec

theorem parseGeneric_of_parseType {typeScheme : Text} {typeSpec : TLTypeSpec}
    (h : parseType u genericVariables containers typeScheme = .ok typeSpec) :
    parseGeneric u genericVariables containers typeScheme =
      .ok (genericOf u genericVariables typeScheme typeSpec) := by
  rw [parseGeneric, parseGenericWith, genericOf, h]
  rcases genericVariables.get (u.uppercase typeScheme) with - | v <;> rfl

/-- A list of an accepted type parses to the collection of this type if and only if the word `bytes`
does not occur in the type, the whole text is not the name of a variable, and blanks around the type
do not change its meaning. -/
theorem parseType_listScheme_iff (u : Unicode) (genericVariables : Variables)
    (containers : List TLContainerSpec) (element : Text) (t : TLTypeSpec)
    (ht : parseType u genericVariables containers element = .ok t) :
    parseType u genericVariables containers (listScheme element) =
        .ok (.collection (genericOf u genericVariables element t)) ↔
      occurs bytesSignature element = false ∧
        genericVariables.get (listScheme element) = none ∧
        parseGeneric u genericVariables containers (trim u element) =
          parseGeneric u genericVariables containers element := by
  have he := parseGeneric_of_parseType ht
  constructor
  · intro h
    rcases composite_or_isBasic u genericVariables containers (listScheme element) with
      hcomposite | hbasic
    · have hbytes := hcomposite.not_fixedBytes
      rw [isFixedBytes_listScheme] at hbytes
      rw [parseType_list hcomposite (isList_listScheme element), elementScheme_listScheme] at h
      obtain ⟨g, hg, hcollection⟩ := bind_eq_ok h
      cases hcollection
      exact ⟨hbytes, hcomposite.not_variable, hg.trans he.symm⟩
    · cases hbasic _ h
  · rintro ⟨hbytes, hvariable, htrim⟩
    have hcomposite : Composite genericVariables (listScheme element) :=
      ⟨lookup_listScheme element, hvariable, signatureType_listScheme element,
        (isFixedBytes_listScheme element).trans hbytes⟩
    rw [parseType_list hcomposite (isList_listScheme element), elementScheme_listScheme, htrim, he]
    rfl

/-- A list of lists of users. -/
theorem parseType_listScheme_users :
    parseType .ascii [] [] (listScheme "[User]".toList) =
      .ok (.collection
        (.genericParameter (.collection (.genericParameter (.object none "User".toList []))))) :=
  (parseType_listScheme_iff .ascii [] [] "[User]".toList
    (.collection (.genericParameter (.object none "User".toList []))) (by decide +kernel)).2
    ⟨by decide +kernel, by decide +kernel, by decide +kernel⟩

/-- A list of byte arrays is taken for a byte array whose size is not a number. -/
theorem parseType_listScheme_bytes :
    ¬ ∀ (u : Unicode) (genericVariables : Variables) (containers : List TLContainerSpec)
      (element : Text)
      (t : TLTypeSpec), parseType u genericVariables containers element = .ok t →
      parseType u genericVariables containers (listScheme element) =
        .ok (.collection (genericOf u genericVariables element t)) := by
  intro h
  have hlist := h .ascii [] [] bytesSignature (.bytes none) (by decide +kernel)
  have herror : parseType .ascii [] [] (listScheme bytesSignature) =
      .error (.numberFormat bytesSignature) := by
    decide +kernel
  rw [herror] at hlist
  cases hlist

/-! ## Generic arguments -/

/-- What a text says as a name: a namespace, a title-cased name and generic arguments. -/
def Denotes (u : Unicode) (genericVariables : Variables) (containers : List TLContainerSpec)
    (typeScheme : Text)
    (named : Named) : Prop :=
  named.nameSpace = (splitNamespace (plainName typeScheme)).1 ∧
    snakeToTitleCase u (splitNamespace (plainName typeScheme)).2 = .ok named.name ∧
    (argumentSchemes typeScheme).mapM (parseGeneric u genericVariables containers) =
      .ok named.generics

theorem parseTLObject_eq_ok_iff {typeScheme : Text} {named : Named} :
    parseTLObject u genericVariables containers typeScheme = .ok named ↔
      Denotes u genericVariables containers typeScheme named := by
  rw [parseTLObject, parseNamedWith]
  constructor
  · intro h
    obtain ⟨generics, hmap, hrest⟩ := bind_eq_ok h
    obtain ⟨title, htitle, hnamed⟩ := bind_eq_ok hrest
    cases hnamed
    exact ⟨rfl, htitle, hmap⟩
  · rintro ⟨hnameSpace, htitle, hmap⟩
    obtain ⟨nameSpace, name, generics⟩ := named
    rw [parseGeneric] at hmap
    rw [hmap]
    show (snakeToTitleCase u (splitNamespace (plainName typeScheme)).2 >>= fun formattedName =>
      .ok (Named.mk (splitNamespace (plainName typeScheme)).1 formattedName generics)) = _
    rw [htitle, ← hnameSpace]
    rfl

/-- The text of a name with generic arguments. -/
def appliedScheme (name : Text) (arguments : List Text) : Text :=
  name ++ '<' :: [','].intercalate arguments ++ ['>']

theorem hasArguments_appliedScheme (name : Text) (arguments : List Text) :
    hasArguments (appliedScheme name arguments) = true := by
  rw [hasArguments, Bool.and_eq_true]
  exact ⟨occurs_single.2 (by simp [appliedScheme]), List.isSuffixOf_iff_suffix.2 ⟨_, rfl⟩⟩

theorem plainName_appliedScheme {name : Text} (hname : '<' ∉ name) (arguments : List Text) :
    plainName (appliedScheme name arguments) = name := by
  rw [plainName, if_pos (hasArguments_appliedScheme name arguments), appliedScheme,
    List.append_assoc, List.cons_append, before_single hname]

theorem argumentSchemes_appliedScheme {name : Text} (hname : '<' ∉ name) (arguments : List Text) :
    argumentSchemes (appliedScheme name arguments) = ([','].intercalate arguments).splitOn ',' := by
  rw [argumentSchemes, if_pos (hasArguments_appliedScheme name arguments), appliedScheme,
    List.append_assoc, List.cons_append, after_single hname, removeSuffix_append]

theorem length_of_mapM {α β : Type} {f : α → Except Failure β} {as : List α} {bs : List β}
    (h : as.mapM f = .ok bs) : bs.length = as.length := by
  induction as generalizing bs with
  | nil =>
      cases h
      rfl
  | cons a as ih =>
      rw [List.mapM_cons] at h
      obtain ⟨b, -, hrest⟩ := bind_eq_ok h
      obtain ⟨bs', hbs', hcons⟩ := bind_eq_ok hrest
      cases hcons
      simp [ih hbs']

theorem mapM_of_forall₂ {α β : Type} {f : α → Except Failure β} {as : List α} {bs : List β}
    (h : List.Forall₂ (fun a b => f a = .ok b) as bs) : as.mapM f = .ok bs := by
  induction h with
  | nil => rfl
  | cons hab _ ih =>
      rw [List.mapM_cons, hab, ih]
      rfl

/-- A name with arguments parses to the object with these arguments if and only if there is no comma
inside an argument. -/
theorem parseTLObject_appliedScheme_iff (u : Unicode) (genericVariables : Variables)
    (containers : List TLContainerSpec) (name title : Text) (arguments : List Text)
    (types : List TLTypeSpec)
    (hname : '<' ∉ name) (htitle : snakeToTitleCase u (splitNamespace name).2 = .ok title)
    (hne : arguments ≠ [])
    (htypes : List.Forall₂ (fun argument t => parseType u genericVariables containers argument =
      .ok t)
      arguments types) :
    parseTLObject u genericVariables containers (appliedScheme name arguments) =
        .ok ⟨(splitNamespace name).1, title,
          List.zipWith (genericOf u genericVariables) arguments types⟩ ↔
      ∀ argument ∈ arguments, ',' ∉ argument := by
  have hgenerics :
      List.Forall₂ (fun argument g => parseGeneric u genericVariables containers argument = .ok g)
      arguments (List.zipWith (genericOf u genericVariables) arguments types) := by
    clear hne
    induction htypes with
    | nil => exact .nil
    | cons ht _ ih => exact .cons (parseGeneric_of_parseType ht) ih
  rw [parseTLObject_eq_ok_iff, Denotes, argumentSchemes_appliedScheme hname,
    plainName_appliedScheme hname]
  constructor
  · rintro ⟨-, -, hmap⟩
    apply not_mem_of_length_splitOn hne
    rw [← length_of_mapM hmap, hgenerics.length_eq]
  · intro h
    rw [List.splitOn_intercalate ',' h hne]
    exact ⟨rfl, htitle, mapM_of_forall₂ hgenerics⟩

/-- A pair of a list and a number. -/
theorem parseTLObject_appliedScheme_pair :
    parseTLObject .ascii [] [] (appliedScheme "a.pair".toList ["[User]".toList, "long".toList]) =
      .ok ⟨some "a".toList, "Pair".toList,
        [.genericParameter (.collection (.genericParameter (.object none "User".toList []))),
          .genericParameter (.primitive .long)]⟩ :=
  (parseTLObject_appliedScheme_iff .ascii [] [] "a.pair".toList "Pair".toList
    ["[User]".toList, "long".toList]
    [.collection (.genericParameter (.object none "User".toList [])), .primitive .long]
    (by decide) (by decide +kernel) (by simp)
      (.cons (by decide +kernel) (.cons (by decide +kernel) .nil))).2
    (by decide)

/-- A pair inside a pair gives three arguments. -/
theorem parseTLObject_appliedScheme_nested :
    ¬ ∀ (u : Unicode) (genericVariables : Variables) (containers : List TLContainerSpec)
      (name title : Text)
      (arguments : List Text) (types : List TLTypeSpec), '<' ∉ name →
      snakeToTitleCase u (splitNamespace name).2 = .ok title → arguments ≠ [] →
      List.Forall₂ (fun argument t => parseType u genericVariables containers argument = .ok t)
        arguments types →
      parseTLObject u genericVariables containers (appliedScheme name arguments) =
        .ok ⟨(splitNamespace name).1, title,
          List.zipWith (genericOf u genericVariables) arguments types⟩ := by
  intro h
  have hnested :=
    h .ascii [] [] "Pair".toList "Pair".toList ["Pair<int,long>".toList, "long".toList]
    [.object none "Pair".toList [.genericParameter (.primitive .int),
      .genericParameter (.primitive .long)], .primitive .long] (by decide) (by decide +kernel)
        (by simp)
    (.cons (by decide +kernel) (.cons (by decide +kernel) .nil))
  have hthree : (parseTLObject .ascii [] []
      (appliedScheme "Pair".toList ["Pair<int,long>".toList, "long".toList])).map
        (fun named => named.generics.length) = .ok 3 := by
    decide +kernel
  rw [hnested] at hthree
  cases hthree

/-! ## References to containers -/

/-- The name that stands behind `=` in the declaration of a container, without generic arguments. -/
def TLContainerSpec.resultName (u : Unicode) (c : TLContainerSpec) : Text :=
  plainName (superTypeString u c.rawScheme)

def TLTypeSpec.IsContainer (t : TLTypeSpec) : Prop :=
  ∃ nameSpace name generics, t = .container nameSpace name generics

/-- A text is read as a container exactly if one has this result type, and then as this container
with the arguments of the text. -/
def Resolves (u : Unicode) (genericVariables : Variables) (containers : List TLContainerSpec)
    (typeScheme : Text) :
    Prop :=
  ((∃ t, parseType u genericVariables containers typeScheme = .ok t ∧ t.IsContainer) ↔
      ∃ c ∈ containers, c.resultName u = plainName typeScheme) ∧
    ∀ t, parseType u genericVariables containers typeScheme = .ok t → t.IsContainer →
      ∃ named, Denotes u genericVariables containers typeScheme named ∧ t = named.container

/-- Whether the text is looked up as a name. -/
def isName (genericVariables : Variables) (typeScheme : Text) : Bool :=
  (primitiveTypes.lookup typeScheme).isNone && (genericVariables.get typeScheme).isNone &&
    (signatureType typeScheme).isNone && !isFixedBytes typeScheme && !isList typeScheme

theorem isName_iff {typeScheme : Text} :
    isName genericVariables typeScheme = true ↔
      Composite genericVariables typeScheme ∧ isList typeScheme = false := by
  simp only [isName, Bool.and_eq_true, Option.isNone_iff_eq_none, Bool.not_eq_true']
  constructor
  · rintro ⟨⟨⟨⟨hprimitive, hvariable⟩, hsignature⟩, hbytes⟩, hlist⟩
    exact ⟨⟨hprimitive, hvariable, hsignature, hbytes⟩, hlist⟩
  · rintro ⟨h, hlist⟩
    exact ⟨⟨⟨⟨h.not_primitive, h.not_variable⟩, h.not_signature⟩, h.not_fixedBytes⟩, hlist⟩

/-- The container that a text is taken for. -/
def lookedUp (u : Unicode) (genericVariables : Variables) (containers : List TLContainerSpec)
    (typeScheme : Text) :
    Option TLContainerSpec :=
  if isName genericVariables typeScheme then findContainer u containers typeScheme else none

theorem Named.container_injective {named named' : Named} (h : named.container = named'.container) :
    named = named' := by
  obtain ⟨nameSpace, name, generics⟩ := named
  obtain ⟨nameSpace', name', generics'⟩ := named'
  cases h
  rfl

theorem not_isContainer_of_isBasic {t : TLTypeSpec} (h : t.IsBasic) : ¬ t.IsContainer := by
  rintro ⟨nameSpace, name, generics, rfl⟩
  cases h

theorem parseType_isContainer_iff {typeScheme : Text} {t : TLTypeSpec} :
    (parseType u genericVariables containers typeScheme = .ok t ∧ t.IsContainer) ↔
      ∃ c, lookedUp u genericVariables containers typeScheme = some c ∧
        t = c.superType.container := by
  by_cases hname : isName genericVariables typeScheme = true
  · obtain ⟨hcomposite, hlist⟩ := isName_iff.1 hname
    rw [lookedUp, if_pos hname, parseType_name hcomposite hlist]
    rcases findContainer u containers typeScheme with - | c
    · simp only [reduceCtorEq, false_and, exists_false, iff_false]
      rintro ⟨ht, hcontainer⟩
      obtain ⟨named, -, hnamed⟩ := bind_eq_ok ht
      cases hnamed
      obtain ⟨nameSpace, name, generics, heq⟩ := hcontainer
      cases heq
    · constructor
      · rintro ⟨ht, -⟩
        exact ⟨c, rfl, (Except.ok.inj ht).symm⟩
      · rintro ⟨c', hc, rfl⟩
        cases hc
        exact ⟨rfl, _, _, _, rfl⟩
  · rw [lookedUp, if_neg hname]
    simp only [reduceCtorEq, false_and, exists_false, iff_false]
    rintro ⟨ht, hcontainer⟩
    rcases composite_or_isBasic u genericVariables containers typeScheme with hcomposite | hbasic
    · have hlist : isList typeScheme = true := by
        by_contra hlist
        exact hname (isName_iff.2 ⟨hcomposite, Bool.not_eq_true _ ▸ hlist⟩)
      rw [parseType_list hcomposite hlist] at ht
      obtain ⟨g, -, hcollection⟩ := bind_eq_ok ht
      cases hcollection
      obtain ⟨nameSpace, name, generics, heq⟩ := hcontainer
      cases heq
    · exact not_isContainer_of_isBasic (hbasic t ht) hcontainer

/-- A reference is resolved correctly if and only if the container that is found by the name of its
constructor has the name and the arguments of the reference as its result type, and where none is
found no container has this result type. -/
theorem resolves_iff (u : Unicode) (genericVariables : Variables)
    (containers : List TLContainerSpec)
    (typeScheme : Text) :
    Resolves u genericVariables containers typeScheme ↔
      match lookedUp u genericVariables containers typeScheme with
      | none => ∀ c ∈ containers, c.resultName u ≠ plainName typeScheme
      | some found =>
          Denotes u genericVariables containers typeScheme found.superType ∧
            ∃ c ∈ containers, c.resultName u = plainName typeScheme := by
  have hcontainer : ∀ t, (parseType u genericVariables containers typeScheme = .ok t ∧
      t.IsContainer) ↔
      ∃ c, lookedUp u genericVariables containers typeScheme = some c ∧ t = c.superType.container :=
    fun t => parseType_isContainer_iff
  unfold Resolves
  simp only [← and_imp, hcontainer]
  rcases lookedUp u genericVariables containers typeScheme with - | found
  · simp
  · constructor
    · rintro ⟨hiff, hdenotes⟩
      obtain ⟨named, hnamed, heq⟩ := hdenotes found.superType.container ⟨found, rfl, rfl⟩
      refine ⟨?_, hiff.1 ⟨_, found, rfl, rfl⟩⟩
      rw [Named.container_injective heq]
      exact hnamed
    · rintro ⟨hdenotes, hexists⟩
      refine ⟨iff_of_true ⟨_, found, rfl, rfl⟩ hexists, ?_⟩
      rintro t ⟨c, hc, rfl⟩
      cases hc
      exact ⟨found.superType, hdenotes, rfl⟩

/-- A container whose constructor has another name than its result type. -/
def pairContainer : TLContainerSpec where
  rawScheme := "pair x:int y:int = Point;".toList
  name := "Pair".toList
  nameSpace := none
  superType := ⟨none, "Point".toList, []⟩
  hasFlags := false
  propertiesSpecs :=
    [⟨"x:int".toList, ['x'], none, .primitive .int⟩, ⟨"y:int".toList, ['y'], none, .primitive .int⟩]
  genericVariables := []

/-- It is not found by its result type. -/
theorem not_resolves_pairContainer :
    parseContainer .ascii [] pairContainer.rawScheme = .ok pairContainer ∧
      ¬ Resolves .ascii [] [pairContainer] "Point".toList := by
  refine ⟨by decide +kernel, ?_⟩
  rw [resolves_iff]
  have hnone : lookedUp .ascii [] [pairContainer] "Point".toList = none := by decide +kernel
  rw [hnone]
  intro h
  exact h pairContainer (by simp) (by decide +kernel)

end

end Mtproto.Parsers
