import Mtproto.Parsers.Types

/-!
# The parsers of declarations

`TLObjectParser`, `TLMethodParser` and `TLContainerParser`.  The three share their body, which
slices the line with `before` and `after`; they differ in the validity check, in what an empty list
of properties means and in the parser of the super type.
-/

namespace Mtproto.Parsers

open Text

/-! ## Specs -/

/-- `TLObjectSpec` and `TLMethodSpec`: `superType` is the return type of a method. -/
structure Declaration (σ : Type) where
  rawScheme : Text
  name : Text
  nameSpace : Option Text
  superType : σ
  constructorHash : Text
  hasFlags : Bool
  propertiesSpecs : List TLPropertySpec
  genericVariables : Variables
  deriving DecidableEq

abbrev TLObjectSpec := Declaration Named

abbrev TLMethodSpec := Declaration TLTypeSpec

/-! ## Validity -/

/-- `FLAGS_KEY_WORD`. -/
def flagsKeyWord : Text := "flags:#".toList

def isValidContainerScheme (objectScheme : Text) : Bool :=
  let isNotComment := !List.isPrefixOf ['/'] objectScheme
  let hasLineEnd := [';'].isSuffixOf objectScheme
  let hasSuperTypePrefix := occurs ['='] objectScheme
  hasLineEnd && hasSuperTypePrefix && isNotComment

def isValidObjectScheme (objectScheme : Text) : Bool :=
  let hasConstructor := occurs ['#'] (before flagsKeyWord objectScheme)
  hasConstructor && isValidContainerScheme objectScheme

def isValidMethodScheme (objectScheme : Text) : Bool := isValidObjectScheme objectScheme

/-! ## Slices of a line -/

def hasGenerics (objectScheme : Text) : Bool :=
  occurs ['{'] objectScheme && occurs ['}'] objectScheme

def hasFlags (objectScheme : Text) : Bool := occurs flagsKeyWord objectScheme

def propertiesStringPrefix (objectScheme : Text) : Text :=
  if hasFlags objectScheme then flagsKeyWord
  else if hasGenerics objectScheme then ['}']
  else [' ']

def typeStringPostfix (objectScheme : Text) : Text :=
  if hasGenerics objectScheme then ['{']
  else if hasFlags objectScheme then flagsKeyWord
  else [' ']

/-- The text of the constructor: the name, and behind `#` the hash. -/
def constructorText (objectScheme : Text) : Text :=
  before (typeStringPostfix objectScheme) objectScheme

/-- The name of the constructor with its namespace. -/
def constructorName (objectScheme : Text) : Text := before ['#'] (constructorText objectScheme)

/-- The texts of the generic variables. -/
def variableSchemes (objectScheme : Text) : List Text :=
  if hasGenerics objectScheme then (before ['}'] (after ['{'] objectScheme)).splitOn ',' else []

section

variable (u : Unicode) (containers : List TLContainerSpec)

def constructorHash (objectScheme : Text) : Text :=
  trim u (afterOr [] ['#'] (constructorText objectScheme))

def propertiesString (objectScheme : Text) : Text :=
  trim u (before ['='] (after (propertiesStringPrefix objectScheme) objectScheme))

/-- The text of the super type. -/
def superTypeString (objectScheme : Text) : Text := trim u (before [';'] (after ['='] objectScheme))

/-! ## The common body -/

/-- The loop over the generic variables: each is parsed with those in front of it. -/
def parseVariables : Variables → List Text → Except Failure Variables
  | genericVariables, [] => .ok genericVariables
  | genericVariables, genericScheme :: rest => do
      let genericVariable ← parseGenericVariable u genericVariables containers genericScheme
      parseVariables (genericVariables.put genericVariable) rest

/-- The properties; `blank` stands for none. -/
def parseProperties (blank : Except Failure (List TLPropertySpec)) (genericVariables : Variables)
    (objectScheme : Text) : Except Failure (List TLPropertySpec) :=
  if isBlank u (propertiesString u objectScheme) then blank
  else ((propertiesString u objectScheme).splitOn ' ').mapM
    (parseProperty u genericVariables containers)

/-- The body of the three parsers. -/
def parseDeclaration {σ : Type} (blank : Except Failure (List TLPropertySpec))
    (parseSuperType : Variables → Text → Except Failure σ) (objectScheme : Text) :
    Except Failure (Declaration σ) := do
  let (nameSpace, name) := splitNamespace (constructorName objectScheme)
  let genericVariables ← parseVariables u containers [] (variableSchemes objectScheme)
  let tlPropertySpecs ← parseProperties u containers blank genericVariables objectScheme
  let superTypeSpec ← parseSuperType genericVariables (superTypeString u objectScheme)
  let formattedName ← snakeToTitleCase u name
  return {
    rawScheme := objectScheme
    name := formattedName
    nameSpace := nameSpace
    superType := superTypeSpec
    constructorHash := constructorHash u objectScheme
    hasFlags := hasFlags objectScheme
    propertiesSpecs := tlPropertySpecs
    genericVariables := genericVariables }

/-- `catch (e: Exception)`. -/
def rethrown {α : Type} (objectScheme : Text) : Except Failure α → Except Failure α
  | .ok a => .ok a
  | .error e => .error (.caught objectScheme e)

/-! ## The parsers -/

def parseObject (objectScheme : Text) : Except Failure TLObjectSpec :=
  if isValidObjectScheme objectScheme then
    rethrown objectScheme (parseDeclaration u containers (.ok [])
      (fun genericVariables => parseTLObject u genericVariables containers) objectScheme)
  else .error (.scheme objectScheme "Invalid object scheme")

def parseMethod (objectScheme : Text) : Except Failure TLMethodSpec :=
  if isValidMethodScheme objectScheme then
    rethrown objectScheme (parseDeclaration u containers (.ok [])
      (fun genericVariables => parseType u genericVariables containers) objectScheme)
  else .error (.scheme objectScheme "Invalid method scheme")

/-- The spec of a container, which has no hash. -/
def Declaration.containerSpec (d : Declaration Named) : TLContainerSpec where
  rawScheme := d.rawScheme
  name := d.name
  nameSpace := d.nameSpace
  superType := d.superType
  hasFlags := d.hasFlags
  propertiesSpecs := d.propertiesSpecs
  genericVariables := d.genericVariables

def parseContainer (objectScheme : Text) : Except Failure TLContainerSpec :=
  if isValidContainerScheme objectScheme then
    rethrown objectScheme (Declaration.containerSpec <$> parseDeclaration u containers
      (.error (.scheme objectScheme "Containers must have at least on property"))
      (fun genericVariables => parseTLContainer u genericVariables containers) objectScheme)
  else .error (.scheme objectScheme "Invalid container scheme")

end

end Mtproto.Parsers
