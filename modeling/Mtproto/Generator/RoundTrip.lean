import Mtproto.Generator.Writing
import Mtproto.Generator.Parsing
import Mtproto.Java.Spelling
import Mathlib.Data.List.Nodup

/-!
# Serializing and parsing back

`IsInstance` says which values a generated class has, without reference to either generator.  Such a
value has an encoding (`exists_encodes`), the generated `serialize` writes one
(`serialize_of_encodes`), and the generated `parse` reads it back (`parse_of_encodes`).  Where the
tests of the flags read a field of the name `flags`, nothing sets its bits: there the value has to
do it.
-/

namespace Mtproto.Generator

/-! ## Schemes without generics -/

/-- A type whose values are read by one expression: a primitive, dynamic bytes, an object or a
container without generics. -/
def TLTypeSpec.Plain : TLTypeSpec → Prop
  | .primitive _ => True
  | .bytes none => True
  | .object _ [] => True
  | .container _ [] => True
  | .genericParameter type => type.Plain
  | _ => False

/-- A field of a supported type: a true-flag with an index, a plain type, or an unflagged
collection of a plain type. -/
def TLPropertySpec.Supported (spec : TLPropertySpec) : Prop :=
  match spec.typeSpec with
  | .flag => spec.flag.isSome
  | .collection element => element.Plain ∧ spec.flag = none
  | type => type.Plain

/-- A scheme without generics in which no two variants of a super type share a hash, and a variant
that declares flags has a field. -/
structure Scheme.Plain (scheme : Scheme) : Prop extends Scheme.Regular scheme where
  hashes : ∀ type superType, scheme.objects type = some superType →
    (superType.variants.map TLObjectSpec.constructorHash).Nodup
  variants : ∀ type superType, scheme.objects type = some superType → ∀ spec ∈ superType.variants,
    (∀ property ∈ spec.propertiesSpecs, property.Supported) ∧ spec.genericVariables = [] ∧
      (spec.hasFlags = true → spec.propertiesSpecs ≠ [])
  members : ∀ type spec, scheme.containers type = some spec →
    (∀ property ∈ spec.propertiesSpecs, property.Supported) ∧ spec.genericVariables = []

/-! ## Values of a scheme -/

section Typing

variable (allowed : Prim → Prop) (instances : ParserClass → Value → Prop)

/-- The values of a type, given the instances of generated classes. -/
def HasType : TLTypeSpec → Value → Prop
  | .primitive clazz, .prim p => p.clazz = clazz ∧ allowed p
  | .bytes none, .prim (.byteArray value) => allowed (.byteArray value)
  | .object type [], value => instances (.object type) value
  | .container type [], value => instances (.container type) value
  | .genericParameter type, value => HasType type value
  | .collection element, .list elements =>
    elements.length < 2 ^ 31 ∧ ∀ value ∈ elements, HasType element value
  | _, _ => False

/-- The values of a field: a true-flag is a boolean, any other flagged field can be null. -/
def HasFieldType (field : Field) : Prop :=
  match field.1.typeSpec, field.1.flag with
  | .flag, _ => ∃ value, field.2 = .prim (.boolean value)
  | type, some _ => field.2 = .null ∨ HasType allowed instances type field.2
  | type, none => HasType allowed instances type field.2

/-- Fields of their types, where fields that share an index agree on presence. -/
structure HasFields (specs : List TLPropertySpec) (values : List Value) : Prop where
  length : specs.length = values.length
  typed : ∀ field ∈ specs.zip values, HasFieldType allowed instances field
  agree : ∀ field ∈ specs.zip values, ∀ other ∈ specs.zip values, field.1.flag.isSome →
    field.1.flag = other.1.flag → present field = present other

end Typing

/-- The instances of a generated class whose instances nest at most `depth` deep. -/
def IsInstance (scheme : Scheme) (allowed : Prim → Prop) : ℕ → ParserClass → Value → Prop
  | 0, _, _ => False
  | depth + 1, .object type, .object spec fields =>
    ∃ superType, scheme.objects type = some superType ∧ spec ∈ superType.variants ∧
      HasFields allowed (IsInstance scheme allowed depth) spec.propertiesSpecs fields
  | depth + 1, .container type, .container spec fields =>
    scheme.containers type = some spec ∧
      HasFields allowed (IsInstance scheme allowed depth) spec.propertiesSpecs fields
  | _ + 1, _, _ => False

/-- Behind a flags word each flagged field is there just when its bit is set. -/
def FollowFlags : Option (BitVec 32) → List TLPropertySpec → List Value → Prop
  | flags, spec :: specs, value :: values =>
    (∀ index ∈ spec.flag, ∃ word ∈ flags, present (spec, value) = flagSet word index) ∧
      FollowFlags (flagsAfter flags spec value) specs values
  | _, _, _ => True

mutual

/-- In a class that declares no flags, each flagged field is there just when its bit is set in the
field `flags` in front of it. -/
def Value.FollowsFlags : Value → Prop
  | .list elements => AllFollowFlags elements
  | .object spec fields =>
    (spec.hasFlags = false → FollowFlags none spec.propertiesSpecs fields) ∧ AllFollowFlags fields
  | .container spec fields =>
    (spec.hasFlags = false → FollowFlags none spec.propertiesSpecs fields) ∧ AllFollowFlags fields
  | _ => True

def AllFollowFlags : List Value → Prop
  | [] => True
  | value :: values => value.FollowsFlags ∧ AllFollowFlags values

end

theorem allFollowFlags_iff (values : List Value) :
    AllFollowFlags values ↔ ∀ value ∈ values, value.FollowsFlags := by
  induction values with
  | nil => simp [AllFollowFlags]
  | cons value values ih => rw [AllFollowFlags, ih, List.forall_mem_cons]

/-! ## Values have encodings -/

section Existence

variable {form : Prim → List UInt8 → Prop} {allowed : Prim → Prop}
  {members : ParserClass → Value → Prop} {instances : ParserClass → List Encoding → Encoding}
  {parsers : List (String × Encoding)} {value : Value}

/-- The primitives that are allowed and the instances that follow their flags have encodings. -/
structure HasEncodings (form : Prim → List UInt8 → Prop) (allowed : Prim → Prop)
    (members : ParserClass → Value → Prop) (instances : ParserClass → List Encoding → Encoding) :
    Prop where
  prim : ∀ p, allowed p → ∃ bytes, form p bytes
  int : ∀ n, ∃ bytes, form (.int n) bytes
  member : ∀ type value, members type value → value.FollowsFlags →
    ∃ bytes, instances type [] value bytes

theorem exists_encodesScalar {type : TLTypeSpec}
    (has : HasEncodings form allowed members instances) (plain : type.Plain)
    (typed : HasType allowed members type value) (follows : value.FollowsFlags) :
    ∃ bytes, EncodesScalar form instances parsers type value bytes := by
  induction type using TLTypeSpec.Plain.induct with
  | case1 clazz =>
    cases value with
    | prim p =>
      obtain ⟨bytes, hform⟩ := has.prim p typed.2
      exact ⟨bytes, p, rfl, typed.1, hform⟩
    | null | list elements | object spec fields | container spec fields => simp [HasType] at typed
  | case2 =>
    cases value with
    | prim p =>
      cases p with
      | byteArray value =>
        obtain ⟨bytes, hform⟩ := has.prim (.byteArray value) typed
        exact ⟨bytes, _, rfl, rfl, hform⟩
      | boolean value | byte value | int value | long value | double bits | string value =>
        simp [HasType] at typed
    | null | list elements | object spec fields | container spec fields => simp [HasType] at typed
  | case3 type | case4 type =>
    rw [HasType] at typed
    obtain ⟨bytes, hinstance⟩ := has.member _ value typed follows
    exact ⟨bytes, [], .nil, hinstance⟩
  | case5 type ih =>
    rw [HasType] at typed
    exact ih plain typed
  | case6 type => cases type <;> simp_all [TLTypeSpec.Plain]

theorem exists_concat {α : Type} {encodes : α → List UInt8 → Prop} {as : List α}
    (h : ∀ a ∈ as, ∃ bytes, encodes a bytes) : ∃ bytes, Concat encodes as bytes := by
  induction as with
  | nil => exact ⟨[], rfl⟩
  | cons a as ih =>
    obtain ⟨head, hhead⟩ := h a (List.mem_cons_self ..)
    obtain ⟨tail, htail⟩ := ih fun b hb => h b (List.mem_cons_of_mem _ hb)
    exact ⟨head ++ tail, head, tail, hhead, htail, rfl⟩

theorem exists_encodesCollection {element : TLTypeSpec}
    (has : HasEncodings form allowed members instances) (plain : element.Plain)
    (typed : HasType allowed members (.collection element) value) (follows : value.FollowsFlags) :
    ∃ bytes, EncodesType form instances parsers (.collection element) value bytes := by
  cases value with
  | list elements =>
    obtain ⟨bound, helements⟩ := typed
    have hfollows := (allFollowFlags_iff elements).1 follows
    obtain ⟨head, hhead⟩ := has.int (BitVec.ofNat 32 elements.length)
    have heach : ∀ value ∈ elements, ∃ bytes,
        EncodesScalar form instances parsers element value bytes := fun value hvalue =>
      exists_encodesScalar has plain (helements value hvalue) (hfollows value hvalue)
    obtain ⟨tail, htail⟩ := exists_concat heach
    exact ⟨head ++ tail, elements, head, tail, rfl, bound, hhead, htail, rfl⟩
  | null | prim p | object spec fields | container spec fields => simp [HasType] at typed

theorem TLTypeSpec.Plain.content_ne {type : TLTypeSpec} (plain : type.Plain) :
    type.IsNullable ∧ ∀ element, type.content ≠ .collection element := by
  induction type using TLTypeSpec.Plain.induct with
  | case1 clazz | case2 | case3 type | case4 type => exact ⟨trivial, nofun⟩
  | case5 type ih => exact ih plain
  | case6 type => cases type <;> simp_all [TLTypeSpec.Plain]

theorem TLTypeSpec.Plain.ne_flag {type : TLTypeSpec} (plain : type.Plain) : type ≠ .flag := by
  rintro rfl
  exact plain

theorem hasFieldType_of_plain {field : Field} (plain : field.1.typeSpec.Plain) :
    HasFieldType allowed members field =
      match field.1.flag with
      | some _ => field.2 = .null ∨ HasType allowed members field.1.typeSpec field.2
      | none => HasType allowed members field.1.typeSpec field.2 := by
  obtain ⟨⟨name, flag, type⟩, value⟩ := field
  cases type with
  | flag => exact plain.elim
  | any | primitive clazz | superObject | superContainer | object type generics
  | container type generics | collection element | bytes fixedSize
  | genericVariable name superType | genericParameter type => cases flag <;> rfl

theorem present_of_plain {field : Field} (plain : field.1.typeSpec.Plain) :
    present field = true ↔ field.2 ≠ .null := by
  obtain ⟨⟨name, flag, type⟩, value⟩ := field
  cases type with
  | flag => exact plain.elim
  | any | primitive clazz | superObject | superContainer | object type generics
  | container type generics | collection element | bytes fixedSize
  | genericVariable name superType | genericParameter type => cases value <;> simp [present]

theorem exists_encodesField {field : Field} {flags : Option (BitVec 32)}
    (has : HasEncodings form allowed members instances) (supported : field.1.Supported)
    (typed : HasFieldType allowed members field) (follows : field.2.FollowsFlags)
    (hset : ∀ index ∈ field.1.flag, ∃ word ∈ flags, present field = flagSet word index) :
    ∃ bytes, EncodesField form instances parsers flags field.1 field.2 bytes := by
  by_cases plain : field.1.typeSpec.Plain
  · obtain ⟨hnullable, hne⟩ := plain.content_ne
    have hscalar (h : HasType allowed members field.1.typeSpec field.2) : ∃ bytes,
        EncodesType form instances parsers field.1.typeSpec field.2 bytes := by
      rw [encodesType_of_ne hne]
      exact exists_encodesScalar has plain h follows
    rw [hasFieldType_of_plain plain] at typed
    cases hflag : field.1.flag with
    | none =>
      rw [hflag] at typed
      simp only [encodesField_none hflag]
      exact hscalar typed
    | some index =>
      rw [hflag] at typed
      obtain ⟨word, hword, hpresent⟩ := hset index hflag
      simp only [encodesField_some hflag plain.ne_flag]
      by_cases hnull : field.2 = .null
      · refine ⟨[], hnullable, word, hword, ?_⟩
        rw [← hpresent, if_neg fun h => (present_of_plain plain).1 h hnull]
        exact ⟨hnull, rfl⟩
      · obtain ⟨bytes, hbytes⟩ := hscalar (typed.resolve_left hnull)
        refine ⟨bytes, hnullable, word, hword, ?_⟩
        rw [← hpresent, if_pos ((present_of_plain plain).2 hnull)]
        exact hbytes
  obtain ⟨⟨name, flag, type⟩, value⟩ := field
  cases type with
  | flag =>
    cases flag with
    | none => exact absurd supported (by simp [TLPropertySpec.Supported])
    | some index =>
      obtain ⟨b, rfl⟩ : ∃ b, value = .prim (.boolean b) := typed
      obtain ⟨word, hword, hpresent⟩ := hset index rfl
      refine ⟨[], word, hword, ?_, rfl⟩
      rw [← hpresent]
      rfl
  | collection element =>
    obtain ⟨hplain, rfl⟩ : element.Plain ∧ flag = none := supported
    exact exists_encodesCollection has hplain typed follows
  | any | primitive clazz | superObject | superContainer | object type generics
  | container type generics | bytes fixedSize | genericVariable name superType
  | genericParameter type => exact absurd supported plain

theorem exists_encodesFields {specs : List TLPropertySpec} {values : List Value}
    {flags : Option (BitVec 32)} (has : HasEncodings form allowed members instances)
    (supported : ∀ spec ∈ specs, spec.Supported) (length : specs.length = values.length)
    (typed : ∀ field ∈ specs.zip values, HasFieldType allowed members field)
    (follows : ∀ value ∈ values, value.FollowsFlags) (hset : FollowFlags flags specs values) :
    ∃ bytes, EncodesFields form instances parsers flags specs values bytes := by
  induction specs generalizing values flags with
  | nil =>
    obtain rfl := List.length_eq_zero_iff.1 length.symm
    exact ⟨[], rfl⟩
  | cons spec specs ih =>
    cases values with
    | nil => simp at length
    | cons value values =>
      rw [List.forall_mem_cons] at supported follows
      rw [List.zip_cons_cons, List.forall_mem_cons] at typed
      obtain ⟨head, hhead⟩ := exists_encodesField has supported.1 typed.1 follows.1 hset.1
      obtain ⟨tail, htail⟩ :=
        ih supported.2 (by simpa using length) typed.2 follows.2 hset.2
      exact ⟨head ++ tail, head, tail, hhead, htail, rfl⟩

/-- A supported field has a local of its name. -/
theorem TLPropertySpec.Supported.name_mem {spec : TLPropertySpec} (supported : spec.Supported) :
    spec.name ∈ spec.declaredNames := by
  by_cases plain : spec.typeSpec.Plain
  · obtain ⟨hnullable, hne⟩ := plain.content_ne
    obtain ⟨e, shape⟩ := hnullable.shape_eq hne
    rw [TLPropertySpec.declaredNames, TLPropertySpec.locals, shape]
    exact List.mem_cons_self ..
  obtain ⟨name, flag, type⟩ := spec
  cases type with
  | flag =>
    cases flag with
    | none => exact absurd supported (by simp [TLPropertySpec.Supported])
    | some index => exact List.mem_cons_self ..
  | collection element => exact List.mem_cons_self ..
  | any | primitive clazz | superObject | superContainer | object type generics
  | container type generics | bytes fixedSize | genericVariable name superType
  | genericParameter type => exact absurd supported plain

/-- Fields follow a word in which the bit of each is its presence. -/
theorem followFlags_some {specs : List TLPropertySpec} {values : List Value} {word : BitVec 32}
    (names : ∀ spec ∈ specs, spec.name ≠ flagsPropertyName)
    (hset : ∀ field ∈ specs.zip values, ∀ index ∈ field.1.flag,
      flagSet word index = present field) : FollowFlags (some word) specs values := by
  induction specs generalizing values with
  | nil => trivial
  | cons spec specs ih =>
    cases values with
    | nil => trivial
    | cons value values =>
      rw [List.forall_mem_cons] at names
      rw [List.zip_cons_cons, List.forall_mem_cons] at hset
      refine ⟨fun index hindex => ⟨word, rfl, (hset.1 index hindex).symm⟩, ?_⟩
      rw [show flagsAfter (some word) spec value = some word from if_neg names.1]
      exact ih names.2 hset.2

theorem exists_encodesRecord {hasFlags : Bool} {specs : List TLPropertySpec} {values : List Value}
    (has : HasEncodings form allowed members instances) (regular : Regular hasFlags specs)
    (supported : ∀ spec ∈ specs, spec.Supported) (typed : HasFields allowed members specs values)
    (follows : ∀ value ∈ values, value.FollowsFlags)
    (undeclared : hasFlags = false → FollowFlags none specs values) :
    ∃ bytes, EncodesRecord form instances parsers hasFlags specs values bytes := by
  cases hasFlags with
  | false =>
    exact exists_encodesFields has supported typed.length typed.typed follows (undeclared rfl)
  | true =>
    obtain ⟨-, -, hdisjoint⟩ := List.nodup_append.1 regular.nodup
    have hnames : ∀ spec ∈ specs, spec.name ≠ flagsPropertyName := by
      intro spec hspec hname
      refine hdisjoint _ (List.mem_singleton_self _) _ ?_ hname.symm
      exact List.mem_flatMap.2 ⟨spec, hspec, (supported spec hspec).name_mem⟩
    have hset : ∀ field ∈ specs.zip values, ∀ index ∈ field.1.flag,
        flagSet (flagsWord (specs.zip values)) index = present field := by
      intro field h index hindex
      apply flagSet_flagsWord_of_agree _ _ h hindex
      · exact fun f hf i hi => regular.index f.1 (List.of_mem_zip hf).1 i hi
      · exact fun f hf hi => typed.agree f hf field h (by rw [hi]; rfl) (hi.trans hindex.symm)
    obtain ⟨head, hhead⟩ := has.int (flagsWord (specs.zip values))
    obtain ⟨tail, htail⟩ := exists_encodesFields has supported typed.length typed.typed follows
      (followFlags_some hnames hset)
    exact ⟨head ++ tail, _, head, tail, hhead, htail, rfl⟩

end Existence

section Main

variable {scheme : Scheme} {codec : Codec} {form : Prim → List UInt8 → Prop} {allowed : Prim → Prop}

theorem find?_of_nodup {variants : List TLObjectSpec} {spec : TLObjectSpec}
    (nodup : (variants.map TLObjectSpec.constructorHash).Nodup) (mem : spec ∈ variants) :
    (variants.find? fun variant => variant.constructorHash == spec.constructorHash) =
      some spec := by
  cases hfind : variants.find? fun variant => variant.constructorHash == spec.constructorHash with
  | none =>
    rw [List.find?_eq_none] at hfind
    exact absurd (beq_self_eq_true _) (hfind spec mem)
  | some found =>
    have hhash : found.constructorHash = spec.constructorHash := by
      simpa using List.find?_some hfind
    rw [List.inj_on_of_nodup_map nodup (List.mem_of_find?_eq_some hfind) mem hhash]

/-- An instance has an encoding, if it follows the flags that it does not declare. -/
theorem exists_encodes (plain : scheme.Plain) (prims : ∀ p, allowed p → ∃ bytes, form p bytes)
    (ints : ∀ n, ∃ bytes, form (.int n) bytes) {depth : ℕ} {type : ParserClass} {value : Value}
    (typed : IsInstance scheme allowed depth type value) (follows : value.FollowsFlags) :
    ∃ bytes, Encodes scheme form depth type [] value bytes := by
  induction depth generalizing type value with
  | zero => exact typed.elim
  | succ depth ih =>
    have has : HasEncodings form allowed (IsInstance scheme allowed depth)
        (Encodes scheme form depth) :=
      ⟨prims, ints, fun _ _ h h' => ih h h'⟩
    cases type with
    | object type =>
      cases value with
      | object spec fields =>
        obtain ⟨superType, hscheme, hmem, hfields⟩ := typed
        obtain ⟨hundeclared, hfollows⟩ := follows
        obtain ⟨hsupported, hgenerics, hsome⟩ := plain.variants type superType hscheme spec hmem
        obtain ⟨head, hhead⟩ := ints spec.constructorHash
        obtain ⟨tail, htail⟩ := exists_encodesRecord has
          (plain.objects type superType hscheme spec hmem).1 hsupported hfields
          ((allFollowFlags_iff fields).1 hfollows) hundeclared
        refine ⟨head ++ tail, superType, [], head, tail, hscheme,
          find?_of_nodup (plain.hashes type superType hscheme) hmem, hsome, ?_, hhead, htail, rfl⟩
        rw [hgenerics]
        exact .nil
      | null | prim p | list elements | container spec fields => exact typed.elim
    | container type =>
      cases value with
      | container spec fields =>
        obtain ⟨hscheme, hfields⟩ := typed
        obtain ⟨hundeclared, hfollows⟩ := follows
        obtain ⟨hsupported, -⟩ := plain.members type spec hscheme
        obtain ⟨bytes, hbytes⟩ := exists_encodesRecord has (plain.containers type spec hscheme)
          hsupported hfields ((allFollowFlags_iff fields).1 hfollows) hundeclared
        exact ⟨bytes, hscheme, hbytes⟩
      | null | prim p | list elements | object spec fields => exact typed.elim

/-- A value of a generated class is read back from what its `serialize` writes, and what
follows is left unread. -/
theorem parse_serialize (plain : scheme.Plain) (ints : ∀ n, codec.RoundTrips (.int n))
    {type : ParserClass} {value : Value} {depth : ℕ}
    (typed : IsInstance scheme codec.RoundTrips depth type value) (follows : value.FollowsFlags) :
    ∃ enough, ∀ fuel ≥ enough, ∃ bytes, serialize codec fuel value = .ok bytes ∧
      ∀ rest, parse scheme codec fuel type [] (bytes ++ rest) = .ok (value, rest) := by
  have hread (p : Prim) (bytes rest : List UInt8) (h : codec.Form p bytes) :
      codec.read p.clazz (bytes ++ rest) = .ok (p, rest) := h.2 rest
  have hwrite (p : Prim) (bytes : List UInt8) (h : codec.Form p bytes) :
      ∃ written, codec.write p = .ok written ∧ codec.Form p written := ⟨bytes, h.1, h⟩
  have hint (n : BitVec 32) : ∃ written, codec.write (.int n) = .ok written ∧
      codec.Form (.int n) written := by
    obtain ⟨bytes, hbytes⟩ := ints n
    exact hwrite _ _ hbytes
  obtain ⟨bytes, hencodes⟩ := exists_encodes plain (fun _ h => h) ints typed follows
  refine ⟨max (depth + 2 ^ 31) (sizeOf value), fun fuel hfuel => ?_⟩
  obtain ⟨written, hserialize, hwritten⟩ :=
    serialize_of_encodes plain.toRegular hwrite hint depth type .nil fuel value bytes hencodes
      (Nat.le_trans (Nat.le_max_right _ _) hfuel)
  refine ⟨written, ?_, ?_⟩
  · cases value with
    | object spec fields | container spec fields => exact hserialize
    | null | prim p | list elements => exact (isRecord_of_encodes hencodes).elim
  · intro rest
    exact parse_of_encodes plain.toRegular hread (Nat.le_trans (Nat.le_max_left _ _) hfuel) .nil
      value written rest hwritten

end Main

/-! ## A message with every kind of field -/

def userType : TypeName := ⟨none, "User"⟩

/-- `userEmpty#d3bc4b7a id:long = User`. -/
def userEmpty : TLObjectSpec where
  name := "userEmpty"
  constructorHash := 0xd3bc4b7a
  hasFlags := false
  propertiesSpecs := [⟨"id", none, .primitive .long⟩]
  genericVariables := []

/-- A user with a true-flag, a flagged object, a flagged byte array and a list. -/
def user : TLObjectSpec where
  name := "user"
  constructorHash := 0x3ff6ecb0
  hasFlags := true
  propertiesSpecs :=
    [⟨"bot", some 14, .flag⟩, ⟨"inviter", some 0, .object userType []⟩,
     ⟨"photo", some 5, .bytes none⟩,
       ⟨"codes", none, .collection (.genericParameter (.primitive .int))⟩]
  genericVariables := []

def userScheme : Scheme where
  objects type := if type = userType then some ⟨[], [userEmpty, user]⟩ else none
  containers _ := none

/-- A bot without a photo, invited by an empty user. -/
def userValue : Value :=
  .object user
    [.prim (.boolean true), .object userEmpty [.prim (.long 7)], .null,
     .list [.prim (.int 1), .prim (.int 2)]]

/-- A scheme of one super type. -/
theorem plain_of_single {scheme : Scheme} {type : TypeName} {superType : SuperType}
    (objects : ∀ other, scheme.objects other = if other = type then some superType else none)
    (containers : ∀ other, scheme.containers other = none)
    (regular : ∀ spec ∈ superType.variants, Regular spec.hasFlags spec.propertiesSpecs ∧
      ∀ property ∈ spec.propertiesSpecs, property.name ≠ hashParameterName)
    (hashes : (superType.variants.map TLObjectSpec.constructorHash).Nodup)
    (variants : ∀ spec ∈ superType.variants,
      (∀ property ∈ spec.propertiesSpecs, property.Supported) ∧ spec.genericVariables = [] ∧
        (spec.hasFlags = true → spec.propertiesSpecs ≠ [])) : scheme.Plain := by
  have hobjects (other : TypeName) (found : SuperType) (h : scheme.objects other = some found) :
      superType = found := by
    rw [objects] at h
    split_ifs at h
    exact Option.some.inj h
  have hcontainers (other : TypeName) (found : TLContainerSpec)
      (h : scheme.containers other = some found) : False := by simp [containers] at h
  refine ⟨⟨fun other found h => ?_, fun other found h => (hcontainers other found h).elim⟩,
    fun other found h => ?_, fun other found h => ?_,
    fun other found h => (hcontainers other found h).elim⟩
  · exact hobjects other found h ▸ regular
  · exact hobjects other found h ▸ hashes
  · exact hobjects other found h ▸ variants

theorem userScheme_plain : userScheme.Plain := by
  refine plain_of_single (fun _ => rfl) (fun _ => rfl) ?_ (by decide) ?_
  · rw [List.forall_mem_cons, List.forall_mem_singleton]
    refine ⟨⟨⟨by decide, ?_, ?_, by decide⟩, by decide⟩, ⟨by decide, ?_, ?_, by decide⟩,
      by decide⟩ <;>
      simp [userEmpty, user, TLTypeSpec.content, arrayElementName]
  · rw [List.forall_mem_cons, List.forall_mem_singleton]
    refine ⟨⟨?_, rfl, by decide⟩, ?_, rfl, by decide⟩ <;>
      simp [userEmpty, user, TLPropertySpec.Supported, TLTypeSpec.Plain]

theorem userValue_isInstance :
    IsInstance userScheme (Java.codec fun _ => []).RoundTrips 2 (.object userType) userValue := by
  have hlong : (Java.codec fun _ => []).RoundTrips (.long 7) := Java.roundTrips_of_fits trivial
  have hint (n : BitVec 32) : (Java.codec fun _ => []).RoundTrips (.int n) :=
    Java.roundTrips_of_fits trivial
  have hempty : IsInstance userScheme (Java.codec fun _ => []).RoundTrips 1 (.object userType)
      (.object userEmpty [.prim (.long 7)]) := by
    refine ⟨⟨[], [userEmpty, user]⟩, by simp [userScheme], by simp, rfl, ?_, ?_⟩
    · simp [userEmpty, HasFieldType, HasType, Prim.clazz]
      exact hlong
    · simp [userEmpty]
  refine ⟨⟨[], [userEmpty, user]⟩, by simp [userScheme], by simp, rfl, ?_, ?_⟩
  · simp [user, HasFieldType, HasType, Prim.clazz, hint]
    exact hempty
  · simp [user, present]

theorem parse_serialize_userValue :
    ∃ enough, ∀ fuel ≥ enough, ∃ bytes,
      serialize (Java.codec fun _ => []) fuel userValue = .ok bytes ∧
      ∀ rest, parse userScheme (Java.codec fun _ => []) fuel (.object userType) [] (bytes ++ rest) =
        .ok (userValue, rest) :=
  parse_serialize userScheme_plain (fun _ => Java.roundTrips_of_fits trivial)
    userValue_isInstance
    (by simp [userValue, userEmpty, user, Value.FollowsFlags, FollowFlags, AllFollowFlags])

def entryType : TypeName := ⟨none, "Entry"⟩

/-- `entry#1 flags:int note:flags.0?int = Entry`: the test of the flag reads a field. -/
def entry : TLObjectSpec where
  name := "entry"
  constructorHash := 1
  hasFlags := false
  propertiesSpecs := [⟨"flags", none, .primitive .int⟩, ⟨"note", some 0, .primitive .int⟩]
  genericVariables := []

def entryScheme : Scheme where
  objects type := if type = entryType then some ⟨[], [entry]⟩ else none
  containers _ := none

/-- There is a note, and its bit is not set. -/
def entryValue : Value := .object entry [.prim (.int 0), .prim (.int 5)]

theorem entryScheme_plain : entryScheme.Plain := by
  refine plain_of_single (fun _ => rfl) (fun _ => rfl) ?_ (by decide) ?_
  · rw [List.forall_mem_singleton]
    refine ⟨⟨by decide, ?_, ?_, by decide⟩, by decide⟩ <;> simp [entry, TLTypeSpec.content]
  · rw [List.forall_mem_singleton]
    refine ⟨?_, rfl, by decide⟩
    simp [entry, TLPropertySpec.Supported, TLTypeSpec.Plain]

theorem entryValue_isInstance :
    IsInstance entryScheme (Java.codec fun _ =>
      []).RoundTrips 1 (.object entryType) entryValue := by
  have hint (n : BitVec 32) : (Java.codec fun _ => []).RoundTrips (.int n) :=
    Java.roundTrips_of_fits trivial
  refine ⟨⟨[], [entry]⟩, by simp [entryScheme], by simp, rfl, ?_, ?_⟩
  · simp [entry, HasFieldType, HasType, Prim.clazz, hint]
  · simp [entry, present]

/-- The note of `entryValue` is written, and not read. -/
theorem not_parse_serialize_entryValue :
    entryScheme.Plain ∧
      IsInstance entryScheme (Java.codec fun _ => []).RoundTrips 1 (.object entryType) entryValue ∧
      ¬ ∃ enough, ∀ fuel ≥ enough, ∃ bytes,
        serialize (Java.codec fun _ => []) fuel entryValue = .ok bytes ∧
        ∀ rest, parse entryScheme (Java.codec fun _ => []) fuel (.object entryType) []
          (bytes ++ rest) = .ok (entryValue, rest) := by
  refine ⟨entryScheme_plain, entryValue_isInstance, ?_⟩
  rintro ⟨enough, h⟩
  obtain ⟨bytes, hserialize, hparse⟩ := h (enough + 1) (Nat.le_succ _)
  have hwritten : serialize (Java.codec fun _ => []) (enough + 1) entryValue =
      .ok [1, 0, 0, 0, 0, 0, 0, 0, 5, 0, 0, 0] := rfl
  obtain rfl := Except.ok.inj (hwritten.symm.trans hserialize)
  have hread : parse entryScheme (Java.codec fun _ => []) (enough + 1) (.object entryType) []
      ([1, 0, 0, 0, 0, 0, 0, 0, 5, 0, 0, 0] ++ []) =
      .ok (.object entry [.prim (.int 0), .null], [5, 0, 0, 0]) := rfl
  have hsame := Except.ok.inj (hread.symm.trans (hparse []))
  simp [entryValue] at hsame

end Mtproto.Generator
