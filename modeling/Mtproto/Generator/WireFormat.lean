import Mtproto.Generator.Reading

/-!
# The wire format of a scheme

What the bytes of a value look like, as a relation: a constructor hash, a flags word where one is
declared, then the fields in order, where a flagged field takes bytes only if its bit is set.  A
type variable stands for an encoding that comes from outside, like the parser that a generated
`parse` gets for it.  The relation is over any `form` of the primitives, so that it covers the bytes
a stream writes as well as every other spelling it accepts.
-/

namespace Mtproto.Generator

/-! ## Sequences of encodings -/

/-- `bytes` is a concatenation of encodings of the elements of a list. -/
def Concat {α : Type} (encodes : α → List UInt8 → Prop) : List α → List UInt8 → Prop
  | [], bytes => bytes = []
  | a :: as, bytes => ∃ head tail, encodes a head ∧ Concat encodes as tail ∧ bytes = head ++ tail

theorem Concat.exists_of_mem {α : Type} {encodes : α → List UInt8 → Prop} {as : List α}
    {bytes : List UInt8} (h : Concat encodes as bytes) {a : α} (mem : a ∈ as) :
    ∃ part, encodes a part := by
  induction as generalizing bytes with
  | nil => exact absurd mem List.not_mem_nil
  | cons b as ih =>
    obtain ⟨head, tail, hhead, htail, -⟩ := h
    rcases List.mem_cons.1 mem with rfl | hmem
    · exact ⟨head, hhead⟩
    · exact ih htail hmem

/-! ## Types -/

/-- An instance of a generated class. -/
def Value.IsRecord : Value → Prop
  | .object _ _ => True
  | .container _ _ => True
  | _ => False

/-- The type that is marked as a generic. -/
def TLTypeSpec.content : TLTypeSpec → TLTypeSpec
  | .genericParameter type => type.content
  | type => type

/-- The values that a type variable with this bound can have. -/
def TLTypeSpec.Conforms : TLTypeSpec → Value → Prop
  | .any, .prim _ => True
  | .primitive clazz, .prim p => p.clazz = clazz
  | .bytes none, .prim p => p.clazz = .byteArray
  | .genericVariable _ superType, value => superType.Conforms value
  | .genericParameter type, value => type.Conforms value
  | .any, value => value.IsRecord
  | .superObject, value => value.IsRecord
  | .superContainer, value => value.IsRecord
  | .object _ _, value => value.IsRecord
  | .container _ _, value => value.IsRecord
  | _, _ => False

/-- The bytes of a value. -/
abbrev Encoding := Value → List UInt8 → Prop

section Format

variable (form : Prim → List UInt8 → Prop) (instances : ParserClass → List Encoding → Encoding)
  (parsers : List (String × Encoding))

def EncodesPrim (clazz : PrimitiveClass) : Encoding := fun value bytes =>
  ∃ p, value = .prim p ∧ p.clazz = clazz ∧ form p bytes

/-- What is encoded for a type variable: `parsers` says it for the parsers of the variables. -/
def EncodesVariable (parser : String) : Encoding := fun value bytes =>
  ∃ encoding, parsers.lookup parser = some encoding ∧ encoding value bytes

/-- What the parsers read that are passed to a `parse`. -/
def argumentEncoding : ParserArgument → Option Encoding
  | .parameter name => parsers.lookup name
  | .read clazz => some (EncodesPrim form clazz)
  | .readBytes _ => none
  | .companion type => some (instances type [])

/-- The instances of a generated class for the parsers that are passed. -/
def EncodesInstance (type : ParserClass) (arguments : List ParserArgument) : Encoding :=
  fun value bytes => ∃ encodings,
    List.Forall₂
      (fun argument encoding => argumentEncoding form instances parsers argument = some encoding)
      arguments encodings ∧
    instances type encodings value bytes

/-- The encodings of a value of a type that is not a list.  There are none for fixed-size bytes,
whose length prefix is written and not read, and for a type of which nothing is known. -/
def EncodesScalar (type : TLTypeSpec) : Encoding :=
  match type.content with
  | .primitive clazz => EncodesPrim form clazz
  | .bytes none => EncodesPrim form .byteArray
  | .object type generics =>
    EncodesInstance form instances parsers (.object type)
      (generics.filterMap createTypeParserAsParameter)
  | .container type _ => EncodesInstance form instances parsers (.container type) []
  | .genericVariable name superType => fun value bytes =>
    superType.Conforms value ∧
      EncodesVariable parsers (createTypeParserParameterName name) value bytes
  -- only a type variable of this name declares the parser
  | .superObject => fun value bytes => value.IsRecord ∧
      EncodesVariable parsers (createTypeParserParameterName "SuperObject") value bytes
  | .superContainer => fun value bytes => value.IsRecord ∧
      EncodesVariable parsers (createTypeParserParameterName "SuperObject") value bytes
  | _ => fun _ _ => False

/-- The encodings of a value of a type: a list has its size in front of its elements. -/
def EncodesType (type : TLTypeSpec) : Encoding :=
  match type.content with
  | .collection element => fun value bytes => ∃ elements head tail,
      value = .list elements ∧ elements.length < 2 ^ 31 ∧
      form (.int (BitVec.ofNat 32 elements.length)) head ∧
      Concat (EncodesScalar form instances parsers element) elements tail ∧ bytes = head ++ tail
  | _ => EncodesScalar form instances parsers type

/-- A field of the type can be null. -/
def TLTypeSpec.IsNullable (type : TLTypeSpec) : Prop :=
  match type.content with
  | .any => False
  | .flag => False
  | _ => True

/-- The encodings of a field under a flags word, if there is one. -/
def EncodesField (flags : Option (BitVec 32)) (spec : TLPropertySpec) : Encoding :=
  fun value bytes =>
    match spec.flag, spec.typeSpec with
    | none, type => EncodesType form instances parsers type value bytes
    | some index, .flag => ∃ word ∈ flags,
        value = .prim (.boolean (flagSet word index)) ∧ bytes = []
    | some index, type => type.IsNullable ∧ ∃ word ∈ flags,
        if flagSet word index then EncodesType form instances parsers type value bytes
        else value = .null ∧ bytes = []

/-- The flags word behind a field: the tests read the local `flags`, which may be a field. -/
def flagsAfter (flags : Option (BitVec 32)) (spec : TLPropertySpec) (value : Value) :
    Option (BitVec 32) :=
  if spec.name = flagsPropertyName then
    match value with
    | .prim (.int word) => some word
    | _ => none
  else flags

/-- The encodings of the fields, in the order of the declaration. -/
def EncodesFields : Option (BitVec 32) → List TLPropertySpec → List Value → List UInt8 → Prop
  | _, [], [], bytes => bytes = []
  | flags, spec :: specs, value :: values, bytes =>
    ∃ head tail, EncodesField form instances parsers flags spec value head ∧
      EncodesFields (flagsAfter flags spec value) specs values tail ∧ bytes = head ++ tail
  | _, _, _, _ => False

/-- The encodings of everything after the constructor hash. -/
def EncodesRecord (hasFlags : Bool) (specs : List TLPropertySpec) (values : List Value)
    (bytes : List UInt8) : Prop :=
  if hasFlags then
    ∃ word head tail, form (.int word) head ∧
      EncodesFields form instances parsers (some word) specs values tail ∧ bytes = head ++ tail
  else EncodesFields form instances parsers none specs values bytes

end Format

/-- The encodings of an instance of a generated class whose instances nest at most `depth` deep.
The `parse` of a super type takes the first variant with a hash, and it takes nothing behind the
hash if the variant has no fields. -/
def Encodes (scheme : Scheme) (form : Prim → List UInt8 → Prop) :
    ℕ → ParserClass → List Encoding → Encoding
  | 0, _, _, _, _ => False
  | depth + 1, .object type, arguments, .object spec fields, bytes =>
    ∃ superType encodings head tail, scheme.objects type = some superType ∧
      (superType.variants.find? fun variant => variant.constructorHash == spec.constructorHash) =
        some spec ∧
      (spec.hasFlags = true → spec.propertiesSpecs ≠ []) ∧
      List.Forall₂
        (fun name encoding =>
          ((superType.typeVariables.map createTypeParserParameterName).zip arguments).lookup name =
            some encoding)
        (spec.genericVariables.map createTypeParserParameterName) encodings ∧
      form (.int spec.constructorHash) head ∧
      EncodesRecord form (Encodes scheme form depth)
        ((spec.genericVariables.map createTypeParserParameterName).zip encodings) spec.hasFlags
        spec.propertiesSpecs fields tail ∧
      bytes = head ++ tail
  | depth + 1, .container type, arguments, .container spec fields, bytes =>
    scheme.containers type = some spec ∧
      EncodesRecord form (Encodes scheme form depth)
        ((spec.genericVariables.map createTypeParserParameterName).zip arguments) spec.hasFlags
        spec.propertiesSpecs fields bytes
  | _ + 1, _, _, _, _ => False

/-! ## Declarations the generators agree on -/

/-- The code of a variant or a container compiles, and its fields are of the kinds that are read as
they are written. -/
structure Regular (hasFlags : Bool) (specs : List TLPropertySpec) : Prop where
  /-- The locals of the function are distinct. -/
  nodup : (functionNames hasFlags specs).Nodup
  /-- The list is not hidden by its elements. -/
  fresh : ∀ spec ∈ specs, ∀ element, spec.typeSpec.content = .collection element →
    spec.name ≠ arrayElementName
  /-- The flag of a list is not tested. -/
  unflagged : ∀ spec ∈ specs, ∀ element, spec.typeSpec.content = .collection element →
    spec.flag = none
  /-- Bits that have a mask of their own. -/
  index : ∀ spec ∈ specs, ∀ i ∈ spec.flag, 0 ≤ i ∧ i ≤ 30

/-- Every generated class is regular, and no field of a variant hides its constructor hash. -/
structure Scheme.Regular (scheme : Scheme) : Prop where
  objects : ∀ type superType, scheme.objects type = some superType →
    ∀ spec ∈ superType.variants, Generator.Regular spec.hasFlags spec.propertiesSpecs ∧
      ∀ property ∈ spec.propertiesSpecs, property.name ≠ hashParameterName
  containers : ∀ type spec, scheme.containers type = some spec →
    Generator.Regular spec.hasFlags spec.propertiesSpecs

/-! ## Lists side by side -/

section Pointwise

variable {α β γ : Type} {R : α → β → Prop}

theorem forall₂_zip {as : List α} {bs : List β} (h : List.Forall₂ R as bs) (names : List String) :
    List.Forall₂ (fun a b => a.1 = b.1 ∧ R a.2 b.2) (names.zip as) (names.zip bs) := by
  induction h generalizing names with
  | nil => simp
  | cons head _ ih =>
    cases names with
    | nil => exact .nil
    | cons name names => exact .cons ⟨rfl, head⟩ (ih names)

theorem lookup_of_forall₂ {as : List (String × α)} {bs : List (String × β)} {name : String} {b : β}
    (h : List.Forall₂ (fun a b => a.1 = b.1 ∧ R a.2 b.2) as bs) (lookup : bs.lookup name = some b) :
    ∃ a, as.lookup name = some a ∧ R a b := by
  induction h with
  | nil => cases lookup
  | @cons a b' as bs head _ ih =>
    obtain ⟨key, value⟩ := a
    obtain ⟨key', value'⟩ := b'
    obtain ⟨rfl, hR⟩ := head
    rw [List.lookup_cons] at lookup ⊢
    cases hkey : name == key with
    | true =>
      simp only [hkey, Option.some.injEq] at lookup
      exact ⟨value, rfl, lookup ▸ hR⟩
    | false =>
      rw [hkey] at lookup
      exact ih lookup

/-- A list of choices, one for each element. -/
theorem forall₂_exists {P : γ → β → Prop} {Q : γ → α → Prop} {cs : List γ} {bs : List β}
    (h : List.Forall₂ P cs bs) (step : ∀ c b, P c b → ∃ a, Q c a ∧ R a b) :
    ∃ as, List.Forall₂ Q cs as ∧ List.Forall₂ R as bs := by
  induction h with
  | nil => exact ⟨[], .nil, .nil⟩
  | cons head _ ih =>
    obtain ⟨a, hQ, hR⟩ := step _ _ head
    obtain ⟨as, hQs, hRs⟩ := ih
    exact ⟨a :: as, .cons hQ hQs, .cons hR hRs⟩

theorem mapM_of_forall₂ {f : γ → Except Failure α} {cs : List γ} {as : List α}
    (h : List.Forall₂ (fun c a => f c = .ok a) cs as) : cs.mapM f = .ok as := by
  induction h with
  | nil => rfl
  | cons head _ ih =>
    rw [List.mapM_cons, head, ih]
    rfl

end Pointwise

/-! ## Contents of types -/

theorem TLTypeSpec.shape_content (type : TLTypeSpec) : type.content.shape = type.shape := by
  induction type using TLTypeSpec.content.induct with
  | case1 type ih => exact ih
  | case2 type => cases type <;> simp_all [TLTypeSpec.content]

theorem addPropertyParseStatement_content (name : String) (type : TLTypeSpec) (flag : Option ℤ) :
    addPropertyParseStatement name type.content flag =
      addPropertyParseStatement name type flag := by
  induction type using TLTypeSpec.content.induct with
  | case1 type ih =>
    rw [TLTypeSpec.content, ih]
    conv_rhs => rw [addPropertyParseStatement]
  | case2 type => cases type <;> simp_all [TLTypeSpec.content]

theorem TLTypeSpec.conforms_content (type : TLTypeSpec) (value : Value) :
    type.content.Conforms value ↔ type.Conforms value := by
  induction type using TLTypeSpec.content.induct with
  | case1 type ih =>
    rw [TLTypeSpec.content, ih]
    conv_rhs => rw [TLTypeSpec.Conforms]
  | case2 type => cases type <;> simp_all [TLTypeSpec.content]

theorem TLTypeSpec.content_ne_genericParameter (type inner : TLTypeSpec) :
    type.content ≠ .genericParameter inner := by
  induction type using TLTypeSpec.content.induct with
  | case1 type ih => exact ih
  | case2 type => cases type <;> simp_all [TLTypeSpec.content]

section Encodings

variable {form : Prim → List UInt8 → Prop} {instances : ParserClass → List Encoding → Encoding}
  {parsers : List (String × Encoding)} {type : TLTypeSpec} {value : Value} {bytes : List UInt8}
  {flags : Option (BitVec 32)} {spec : TLPropertySpec}

theorem encodesType_of_collection {element : TLTypeSpec} (h : type.content = .collection element) :
    EncodesType form instances parsers type value bytes ↔ ∃ elements head tail,
      value = .list elements ∧ elements.length < 2 ^ 31 ∧
      form (.int (BitVec.ofNat 32 elements.length)) head ∧
      Concat (EncodesScalar form instances parsers element) elements tail ∧
      bytes = head ++ tail := by
  rw [EncodesType, h]

theorem encodesType_of_ne (h : ∀ element, type.content ≠ .collection element) :
    EncodesType form instances parsers type = EncodesScalar form instances parsers type := by
  unfold EncodesType
  split
  · next element hcontent => exact absurd hcontent (h element)
  · rfl

/-- A type with encodings is read by one expression. -/
theorem shape_of_encodesScalar (h : EncodesScalar form instances parsers type value bytes) :
    ∃ e, type.shape = .value e := by
  rw [← type.shape_content]
  unfold EncodesScalar at h
  generalize type.content = content at h
  cases content with
  | bytes fixedSize => cases fixedSize <;> exact ⟨_, rfl⟩
  | primitive | object | container | genericVariable | superObject | superContainer =>
      exact ⟨_, rfl⟩
  | any | flag | collection | genericParameter => exact h.elim

/-- A local that can be null is assigned by one expression, if it is no list. -/
theorem TLTypeSpec.IsNullable.shape_eq (h : type.IsNullable)
    (hne : ∀ element, type.content ≠ .collection element) : ∃ e, type.shape = .value e := by
  rw [← type.shape_content]
  unfold TLTypeSpec.IsNullable at h
  cases hcontent : type.content with
  | bytes fixedSize => cases fixedSize <;> exact ⟨_, rfl⟩
  | primitive | object | container | genericVariable | superObject | superContainer =>
      exact ⟨_, rfl⟩
  | any | flag =>
    rw [hcontent] at h
    exact h.elim
  | collection element => exact absurd hcontent (hne element)
  | genericParameter inner => exact absurd hcontent (type.content_ne_genericParameter inner)

/-- The encodings of a flagged field that is not a true-flag. -/
theorem encodesField_some {index : ℤ} (hflag : spec.flag = some index)
    (hne : spec.typeSpec ≠ .flag) :
    EncodesField form instances parsers flags spec value bytes ↔
      spec.typeSpec.IsNullable ∧ ∃ word ∈ flags,
        if flagSet word index then EncodesType form instances parsers spec.typeSpec value bytes
        else value = .null ∧ bytes = [] := by
  obtain ⟨name, flag, type⟩ := spec
  obtain rfl : flag = some index := hflag
  cases type <;> first | exact absurd rfl hne | exact Iff.rfl

theorem encodesField_flag {index : ℤ} (hflag : spec.flag = some index)
    (htype : spec.typeSpec = .flag) :
    EncodesField form instances parsers flags spec value bytes ↔
      ∃ word ∈ flags, value = .prim (.boolean (flagSet word index)) ∧ bytes = [] := by
  obtain ⟨name, flag, type⟩ := spec
  obtain rfl : flag = some index := hflag
  obtain rfl : type = .flag := htype
  exact Iff.rfl

theorem encodesField_none (hflag : spec.flag = none) :
    EncodesField form instances parsers flags spec value bytes ↔
      EncodesType form instances parsers spec.typeSpec value bytes := by
  obtain ⟨name, flag, type⟩ := spec
  obtain rfl : flag = none := hflag
  exact Iff.rfl

/-- A field with encodings has a local of its name. -/
theorem name_mem_declaredNames
    (h : EncodesField form instances parsers flags spec value bytes) :
    spec.name ∈ spec.declaredNames := by
  have hvalue (e : Expr) (shape : spec.typeSpec.shape = .value e) :
      spec.name ∈ spec.declaredNames := by
    rw [TLPropertySpec.declaredNames, TLPropertySpec.locals, shape]
    exact List.mem_cons_self ..
  by_cases hlist : ∃ element, spec.typeSpec.content = .collection element
  · obtain ⟨element, hcontent⟩ := hlist
    rw [TLPropertySpec.declaredNames, TLPropertySpec.locals, ← TLTypeSpec.shape_content, hcontent]
    exact List.mem_cons_self ..
  have hne : ∀ element, spec.typeSpec.content ≠ .collection element :=
    fun element hcontent => hlist ⟨element, hcontent⟩
  cases hflag : spec.flag with
  | none =>
    rw [encodesField_none hflag, encodesType_of_ne hne] at h
    obtain ⟨e, shape⟩ := shape_of_encodesScalar h
    exact hvalue e shape
  | some index =>
    by_cases htype : spec.typeSpec = .flag
    · rw [TLPropertySpec.declaredNames, TLPropertySpec.locals, htype, hflag]
      exact List.mem_cons_self ..
    · obtain ⟨e, shape⟩ := ((encodesField_some hflag htype).1 h).1.shape_eq hne
      exact hvalue e shape

theorem exists_of_mem_encodesFields {specs : List TLPropertySpec} {values : List Value}
    (h : EncodesFields form instances parsers flags specs values bytes) :
    ∀ spec ∈ specs, ∃ flags value part,
      EncodesField form instances parsers flags spec value part := by
  induction specs generalizing values bytes flags with
  | nil => simp
  | cons spec specs ih =>
    cases values with
    | nil => exact h.elim
    | cons value values =>
      obtain ⟨head, tail, hhead, htail, -⟩ := h
      rw [List.forall_mem_cons]
      exact ⟨⟨_, value, head, hhead⟩, ih htail⟩

/-- The names of encoded fields are distinct, and none of them is the one of the flags word. -/
theorem Regular.nodup_names {hasFlags : Bool} {specs : List TLPropertySpec} {values : List Value}
    (regular : Regular hasFlags specs)
    (h : EncodesFields form instances parsers flags specs values bytes) :
    (specs.map TLPropertySpec.name).Nodup ∧
      (hasFlags = true → ∀ spec ∈ specs, spec.name ≠ flagsPropertyName) := by
  have hname (spec : TLPropertySpec) (hspec : spec ∈ specs) : spec.name ∈ spec.declaredNames := by
    obtain ⟨_, _, _, hfield⟩ := exists_of_mem_encodesFields h spec hspec
    exact name_mem_declaredNames hfield
  obtain ⟨-, hnodup, hdisjoint⟩ := List.nodup_append.1 regular.nodup
  constructor
  · refine List.Nodup.sublist ?_ hnodup
    clear hnodup hdisjoint h regular
    induction specs with
    | nil => exact List.Sublist.slnil
    | cons spec specs ih =>
      rw [List.map_cons, List.flatMap_cons]
      exact (List.singleton_sublist.2 (hname spec (List.mem_cons_self ..))).append
        (ih fun s hs => hname s (List.mem_cons_of_mem _ hs))
  · rintro rfl spec hspec heq
    refine hdisjoint _ (List.mem_singleton_self _) _ ?_ heq.symm
    exact List.mem_flatMap.2 ⟨spec, hspec, hname spec hspec⟩

theorem length_eq_of_encodesFields {specs : List TLPropertySpec} {values : List Value}
    (h : EncodesFields form instances parsers flags specs values bytes) :
    specs.length = values.length := by
  induction specs generalizing values bytes flags with
  | nil =>
    cases values with
    | nil => rfl
    | cons value values => exact h.elim
  | cons spec specs ih =>
    cases values with
    | nil => exact h.elim
    | cons value values =>
      obtain ⟨head, tail, -, htail, -⟩ := h
      rw [List.length_cons, List.length_cons, ih htail]

end Encodings

end Mtproto.Generator
