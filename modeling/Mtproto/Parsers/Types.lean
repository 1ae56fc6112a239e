import Mtproto.Parsers.TextUtils
import Mtproto.Generator.Spec

/-!
# Specs and the parser of types

The data classes of `scheme/specs` as the parsers build them, and `TLTypeParser`.  `parseType` and
`parseGeneric` call each other on shorter texts; the recursion runs on the length of the text
(`parseType_eq` is the equation of the source).  A missing list or map is the empty one: none of the
parsers builds an empty list or map.
-/

namespace Mtproto.Parsers

open Text
open Generator (PrimitiveClass)

/-! ## Specs -/

/-- `TLTypeSpec` with its sealed sub-interfaces. -/
inductive TLTypeSpec where
  | type
  | flag
  | primitive (clazz : PrimitiveClass)
  | superObject
  | superContainer
  | object (nameSpace : Option Text) (name : Text) (generics : List TLTypeSpec)
  | container (nameSpace : Option Text) (name : Text) (generics : List TLTypeSpec)
  /-- `Structure.Collection(List::class, elementGeneric)`. -/
  | collection (elementGeneric : TLTypeSpec)
  | bytes (fixedSize : Option ℤ)
  /-- `Generic.Variable`. -/
  | genericVariable (name : Text) (superType : TLTypeSpec)
  /-- `Generic.Parameter`. -/
  | genericParameter (type : TLTypeSpec)
  deriving Repr

mutual

/-- Whether two specs are equal. -/
def TLTypeSpec.same : TLTypeSpec → TLTypeSpec → Bool
  | .type, .type => true
  | .flag, .flag => true
  | .primitive clazz, .primitive clazz' => clazz = clazz'
  | .superObject, .superObject => true
  | .superContainer, .superContainer => true
  | .object nameSpace name generics, .object nameSpace' name' generics' =>
      nameSpace = nameSpace' ∧ name = name' ∧ sameAll generics generics' = true
  | .container nameSpace name generics, .container nameSpace' name' generics' =>
      nameSpace = nameSpace' ∧ name = name' ∧ sameAll generics generics' = true
  | .collection element, .collection element' => element.same element'
  | .bytes fixedSize, .bytes fixedSize' => fixedSize = fixedSize'
  | .genericVariable name superType, .genericVariable name' superType' =>
      name = name' ∧ superType.same superType' = true
  | .genericParameter inner, .genericParameter inner' => inner.same inner'
  | _, _ => false

/-- Whether two lists of specs are equal. -/
def sameAll : List TLTypeSpec → List TLTypeSpec → Bool
  | [], [] => true
  | t :: ts, t' :: ts' => t.same t' && sameAll ts ts'
  | _, _ => false

end

mutual

theorem TLTypeSpec.same_iff : ∀ s t : TLTypeSpec, s.same t = true ↔ s = t
  | .type, t => by cases t <;> simp [TLTypeSpec.same]
  | .flag, t => by cases t <;> simp [TLTypeSpec.same]
  | .primitive clazz, t => by cases t <;> simp [TLTypeSpec.same]
  | .superObject, t => by cases t <;> simp [TLTypeSpec.same]
  | .superContainer, t => by cases t <;> simp [TLTypeSpec.same]
  | .object nameSpace name generics,
      t => by cases t <;> simp [TLTypeSpec.same, sameAll_iff generics]
  | .container nameSpace name generics,
      t => by cases t <;> simp [TLTypeSpec.same, sameAll_iff generics]
  | .collection element, t => by cases t <;> simp [TLTypeSpec.same, TLTypeSpec.same_iff element]
  | .bytes fixedSize, t => by cases t <;> simp [TLTypeSpec.same]
  | .genericVariable name superType,
      t => by cases t <;> simp [TLTypeSpec.same, TLTypeSpec.same_iff superType]
  | .genericParameter inner, t => by cases t <;> simp [TLTypeSpec.same, TLTypeSpec.same_iff inner]

theorem sameAll_iff : ∀ ss ts : List TLTypeSpec, sameAll ss ts = true ↔ ss = ts
  | [], ts => by cases ts <;> simp [sameAll]
  | s :: ss, ts => by cases ts <;> simp [sameAll, TLTypeSpec.same_iff s, sameAll_iff ss]

end

instance : DecidableEq TLTypeSpec := fun s t => decidable_of_iff _ (TLTypeSpec.same_iff s t)

/-- The fields of a `TLType.Object` or a `TLType.Container`. -/
structure Named where
  nameSpace : Option Text
  name : Text
  generics : List TLTypeSpec
  deriving DecidableEq, Repr

def Named.object (t : Named) : TLTypeSpec := .object t.nameSpace t.name t.generics

def Named.container (t : Named) : TLTypeSpec := .container t.nameSpace t.name t.generics

/-- A `TLTypeSpec.Generic.Variable`. -/
structure Variable where
  name : Text
  superType : TLTypeSpec
  deriving DecidableEq, Repr

def Variable.spec (v : Variable) : TLTypeSpec := .genericVariable v.name v.superType

/-- The map `genericVariables`, whose keys are the names of its values. -/
abbrev Variables := List Variable

def Variables.get (genericVariables : Variables) (name : Text) : Option Variable :=
  genericVariables.find? fun v => v.name = name

def Variables.put (genericVariables : Variables) (v : Variable) : Variables :=
  if (genericVariables.get v.name).isSome then
    genericVariables.map fun w => if w.name = v.name then v else w
  else genericVariables ++ [v]

structure TLPropertySpec where
  rawScheme : Text
  name : Text
  flag : Option ℤ
  typeSpec : TLTypeSpec
  deriving DecidableEq, Repr

structure TLContainerSpec where
  rawScheme : Text
  name : Text
  nameSpace : Option Text
  superType : Named
  hasFlags : Bool
  propertiesSpecs : List TLPropertySpec
  genericVariables : Variables
  deriving DecidableEq, Repr

/-! ## TLTypeParser -/

/-- The entries of `primitiveTypes`. -/
def primitiveTypes : List (Text × PrimitiveClass) :=
  [("byte".toList, .byte), ("string".toList, .string), ("int".toList, .int), ("long".toList, .long),
    ("boolean".toList, .boolean), ("bool".toList, .boolean), ("double".toList, .double)]

/-- `ANY_TYPE_SIGNATURE`. -/
def anyTypeSignature : Text := "Type".toList

/-- `SUPER_OBJECT_SIGNATURE`. -/
def superObjectSignature : Text := "Object".toList

/-- `SUPER_CONTAINER_SIGNATURE`. -/
def superContainerSignature : Text := "Container".toList

/-- `BOOLEAN_FLAG_SIGNATURE`. -/
def booleanFlagSignature : Text := "true".toList

/-- `BYTES_SIGNATURE`. -/
def bytesSignature : Text := "bytes".toList

/-- A dotted name is a namespace, up to the last dot, and a name. -/
def splitNamespace (name : Text) : Option Text × Text :=
  if occurs ['.'] name then (some (beforeLast '.' name), afterLast '.' name) else (none, name)

/-- The name under which a container is looked up. -/
def TLContainerSpec.fullName (c : TLContainerSpec) : Text :=
  match c.nameSpace with
  | some nameSpace => nameSpace ++ '.' :: c.name
  | none => c.name

section

variable (u : Unicode) (genericVariables : Variables) (containers : List TLContainerSpec)

abbrev TypeParser := Text → Except Failure TLTypeSpec

def parseGenericWith (parseType : TypeParser) (genericScheme : Text) : Except Failure TLTypeSpec :=
  match genericVariables.get (u.uppercase genericScheme) with
  | some genericVariable => .ok genericVariable.spec
  | none => do
      let typeSpec ← parseType genericScheme
      return .genericParameter typeSpec

/-- Whether a name has generic arguments. -/
def hasArguments (name : Text) : Bool := occurs ['<'] name && [('>' : Char)].isSuffixOf name

/-- The texts of the generic arguments. -/
def argumentSchemes (name : Text) : List Text :=
  if hasArguments name then (removeSuffix ['>'] (after ['<'] name)).splitOn ',' else []

/-- The name in front of the generic arguments. -/
def plainName (name : Text) : Text := if hasArguments name then before ['<'] name else name

/-- `parseTLObject` and `parseTLContainer`, which have the same body. -/
def parseNamedWith (parseType : TypeParser) (typeScheme : Text) : Except Failure Named := do
  let generics ← (argumentSchemes typeScheme).mapM (parseGenericWith u genericVariables parseType)
  let (nameSpace, name) := splitNamespace (plainName typeScheme)
  let formattedName ← snakeToTitleCase u name
  return ⟨nameSpace, formattedName, generics⟩

/-- The container that a name refers to: the first whose constructor has this name. -/
def findContainer (typeScheme : Text) : Option TLContainerSpec :=
  containers.find? fun c => equalsIgnoreCase u c.fullName typeScheme

/-- The types with a signature of their own. -/
def signatureType (typeScheme : Text) : Option TLTypeSpec :=
  if typeScheme = anyTypeSignature then some .type
  else if typeScheme = superObjectSignature then some .superObject
  else if typeScheme = superContainerSignature then some .superContainer
  else if typeScheme = booleanFlagSignature then some .flag
  else if typeScheme = bytesSignature then some (.bytes none)
  else none

/-- The test for a byte array with a fixed size. -/
def isFixedBytes (typeScheme : Text) : Bool :=
  occurs bytesSignature typeScheme && occurs ['['] typeScheme && occurs [']'] typeScheme

/-- The text of the fixed size. -/
def fixedSizeScheme (typeScheme : Text) : Text :=
  trim u (removeSuffix [']'] (after ['['] typeScheme))

/-- The test for a list. -/
def isList (typeScheme : Text) : Bool := ['['].isPrefixOf typeScheme && [']'].isSuffixOf typeScheme

/-- The text between the brackets of a list. -/
def elementScheme (typeScheme : Text) : Text :=
  trim u (removeSuffix [']'] (removePrefix ['['] typeScheme))

/-- The branches of `parseType`. -/
def parseTypeWith (parseType : TypeParser) (typeScheme : Text) : Except Failure TLTypeSpec :=
  match primitiveTypes.lookup typeScheme with
  | some typeClass => .ok (.primitive typeClass)
  | none =>
  match genericVariables.get typeScheme with
  | some genericVariable => .ok genericVariable.spec
  | none =>
  match signatureType typeScheme with
  | some typeSpec => .ok typeSpec
  | none =>
  if isFixedBytes typeScheme then do
    let fixedSize ← toInt u (fixedSizeScheme u typeScheme)
    return .bytes (some fixedSize)
  else if isList typeScheme then do
    let genericSpec ← parseGenericWith u genericVariables parseType (elementScheme u typeScheme)
    return .collection genericSpec
  else
    match findContainer u containers typeScheme with
    | some c => .ok c.superType.container
    | none => do
        let named ← parseNamedWith u genericVariables parseType typeScheme
        return named.object

/-- `parseType` with a bound on the depth of the recursion. -/
def parseTypeDepth : ℕ → TypeParser
  | 0 => fun _ => .error .illegalArgument
  | depth + 1 => parseTypeWith u genericVariables containers (parseTypeDepth depth)

def parseType (typeScheme : Text) : Except Failure TLTypeSpec :=
  parseTypeDepth u genericVariables containers (typeScheme.length + 1) typeScheme

def parseGeneric : Text → Except Failure TLTypeSpec :=
  parseGenericWith u genericVariables (parseType u genericVariables containers)

def parseTLObject : Text → Except Failure Named :=
  parseNamedWith u genericVariables (parseType u genericVariables containers)

def parseTLContainer : Text → Except Failure Named :=
  parseNamedWith u genericVariables (parseType u genericVariables containers)

def parseGenericVariable (genericScheme : Text) : Except Failure Variable := do
  let name := before [':'] genericScheme
  let typeDescription := after [':'] genericScheme
  let superTypeSpec ← parseType u genericVariables containers typeDescription
  let formattedName := u.uppercase name
  return ⟨formattedName, superTypeSpec⟩

/-! ## The recursion -/

theorem length_trim_le (s : Text) : (trim u s).length ≤ s.length := by
  have h₁ := (List.dropWhile_sublist u.isWhitespace (l := s)).length_le
  have h₂ :=
    (List.dropWhile_sublist u.isWhitespace (l := (s.dropWhile u.isWhitespace).reverse)).length_le
  rw [List.length_reverse] at h₂
  rw [trim, trimEnd, List.length_reverse]
  omega

theorem length_argumentScheme_lt {typeScheme argument : Text}
    (h : argument ∈ argumentSchemes typeScheme) :
    argument.length < typeScheme.length := by
  unfold argumentSchemes at h
  split at h
  · next harguments =>
      rw [hasArguments, Bool.and_eq_true] at harguments
      have hafter := length_after_lt (by simp) harguments.1
      have hsuffix := length_removeSuffix_le ['>'] (after ['<'] typeScheme)
      have hpiece := (infix_of_mem_splitOn h).length_le
      omega
  · cases h

theorem length_elementScheme_lt {typeScheme : Text} (h : isList typeScheme = true) :
    (elementScheme u typeScheme).length < typeScheme.length := by
  rw [isList, Bool.and_eq_true] at h
  have htrim := length_trim_le u (removeSuffix [']'] (removePrefix ['['] typeScheme))
  have hsuffix := length_removeSuffix_le [']'] (removePrefix ['['] typeScheme)
  obtain ⟨t, rfl⟩ := List.isPrefixOf_iff_prefix.1 h.1
  rw [removePrefix_append] at hsuffix htrim
  rw [elementScheme, removePrefix_append]
  simp only [List.length_append, List.length_singleton]
  omega

theorem mapM_congr {α β : Type} {f g : α → Except Failure β} {as : List α}
    (h : ∀ a ∈ as, f a = g a) :
    as.mapM f = as.mapM g := by
  induction as with
  | nil => rfl
  | cons a as ih =>
      rw [List.mapM_cons, List.mapM_cons, h a List.mem_cons_self,
        ih fun b hb => h b (List.mem_cons_of_mem a hb)]

theorem parseGenericWith_congr {p q : TypeParser} {genericScheme : Text}
    (h : p genericScheme = q genericScheme) :
    parseGenericWith u genericVariables p genericScheme =
      parseGenericWith u genericVariables q genericScheme := by
  simp only [parseGenericWith, h]

theorem parseNamedWith_congr {p q : TypeParser} {typeScheme : Text}
    (h : ∀ t, t.length < typeScheme.length → p t = q t) :
    parseNamedWith u genericVariables p typeScheme =
      parseNamedWith u genericVariables q typeScheme := by
  have hmap : (argumentSchemes typeScheme).mapM (parseGenericWith u genericVariables p) =
      (argumentSchemes typeScheme).mapM (parseGenericWith u genericVariables q) :=
    mapM_congr fun argument hargument =>
      parseGenericWith_congr u genericVariables (h argument (length_argumentScheme_lt hargument))
  rw [parseNamedWith, parseNamedWith, hmap]

theorem parseTypeWith_congr {p q : TypeParser} {typeScheme : Text}
    (h : ∀ t, t.length < typeScheme.length → p t = q t) :
    parseTypeWith u genericVariables containers p typeScheme =
      parseTypeWith u genericVariables containers q typeScheme := by
  unfold parseTypeWith
  rw [parseNamedWith_congr u genericVariables h]
  by_cases hlist : isList typeScheme = true
  · rw [parseGenericWith_congr u genericVariables (h _ (length_elementScheme_lt u hlist))]
  · simp only [hlist, Bool.false_eq_true, if_false]

/-- More depth than letters does not matter. -/
theorem parseTypeDepth_eq {m n : ℕ} {typeScheme : Text} (hm : typeScheme.length < m)
    (hn : typeScheme.length < n) :
    parseTypeDepth u genericVariables containers m typeScheme =
      parseTypeDepth u genericVariables containers n typeScheme := by
  induction m generalizing n typeScheme with
  | zero => omega
  | succ m ih =>
      cases n with
      | zero => omega
      | succ n =>
          apply parseTypeWith_congr
          intro t ht
          exact ih (by omega) (by omega)

/-- The equation of `parseType` in the source. -/
theorem parseType_eq (typeScheme : Text) :
    parseType u genericVariables containers typeScheme =
      parseTypeWith u genericVariables containers (parseType u genericVariables containers)
        typeScheme := by
  apply parseTypeWith_congr
  intro t ht
  exact parseTypeDepth_eq u genericVariables containers ht (Nat.lt_succ_self _)

/-! ## TLPropertyParser -/

/-- `PROPERTY_FLAG_PREFIX`. -/
def propertyFlagPrefix : Text := "flags.".toList

def parseTypeFlag (typeString : Text) : Except Failure ℤ :=
  toInt u (before ['?'] (after propertyFlagPrefix typeString))

/-- The flag of a property, if it has one, and the text of its type. -/
def parseFlagged (typeDescription : Text) : Except Failure (Option ℤ × Text) :=
  if occurs ['?'] typeDescription then do
    let flag ← parseTypeFlag u typeDescription
    return (some flag, after ['?'] typeDescription)
  else .ok (none, typeDescription)

def parseProperty (propertyScheme : Text) : Except Failure TLPropertySpec := do
  let name := before [':'] propertyScheme
  let typeDescription := after [':'] propertyScheme
  let (flag, type) ← parseFlagged u typeDescription
  let propertyTypeSpec ← parseType u genericVariables containers type
  let formattedName := snakeToCamelCase u name
  return ⟨propertyScheme, formattedName, flag, propertyTypeSpec⟩

end

end Mtproto.Parsers
