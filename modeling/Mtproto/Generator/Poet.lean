import Mtproto.Generator.Spec

/-!
# The emitting functions

`PoetUtils.kt`, `TLObjectFactory.kt` and `TLContainerFactory.kt`: every `FunSpec.Builder.add…`
function returns the statements it appends to the builder.
-/

namespace Mtproto.Generator

/-! ## Names and masks -/

/-- `FLAGS_PROPERTY_NAME`. -/
def flagsPropertyName : String := "flags"

/-- `ARRAY_ELEMENT_NAME`. -/
def arrayElementName : String := "element"

/-- `IT_KEYWORD`. -/
def itKeyword : String := "it"

/-- `TLObject::constructorHash.name`. -/
def hashParameterName : String := "constructorHash"

/-- The local that holds the declared size of a collection. -/
def sizeFieldName (name : String) : String := name ++ "Size"

def createTypeParserParameterName (type : String) : String := "parse" ++ type

/-- `FLAG_BASE.pow(flag).toInt()`: a negative exponent gives a fraction, which is cut to zero, and
from `2.0.pow(31)` on the conversion saturates. -/
def flagPosition (flag : ℤ) : BitVec 32 :=
  if flag < 0 then 0
  else if flag < 31 then BitVec.twoPow 32 flag.toNat
  else 0x7fffffff

/-! ## Parsing -/

/-- `addPropertyParseStatement` with the text of the parse statement. -/
def addParsedPropertyStatement (name : String) (parseStatement : Expr) (flag : Option ℤ) :
    List Stmt :=
  match flag with
  | some flag =>
    [.declareNull name, .ifFlag (flagPosition flag) [.assign name parseStatement]]
  | none => [.declare name parseStatement]

def addLocalPropertyParseStatement (name : String) (type : PrimitiveClass) (flag : Option ℤ) :
    List Stmt :=
  addParsedPropertyStatement name (.read type) flag

/-- `addCollectionParseStatement`, given what it emits for the element; the flag of the collection
is not used. -/
def addCollectionParseStatement (name : String) (elementStatements : List Stmt) : List Stmt :=
  addLocalPropertyParseStatement (sizeFieldName name) .int none ++
    [.newArrayList name (sizeFieldName name),
     .whileShorter name (sizeFieldName name)
      (elementStatements ++ [.add name arrayElementName])]

def addBytesParseStatement (name : String) (fixedSize : Option ℕ) (flag : Option ℤ) : List Stmt :=
  let parseStatement := match fixedSize with
    | some fixedSize => Expr.readBytes fixedSize
    | none => Expr.read .byteArray
  addParsedPropertyStatement name parseStatement flag

def addTypeParseStatement (name type : String) (flag : Option ℤ) : List Stmt :=
  addParsedPropertyStatement name (.invoke (createTypeParserParameterName type)) flag

def addFlagParseStatement (name : String) (position : ℤ) : List Stmt :=
  [.declare name (.flagCheck (flagPosition position))]

/-- `createTypeParserAsParameter`; both super types ask for `parseTLContainer`. -/
def createTypeParserAsParameter : TLTypeSpec → Option ParserArgument
  | .genericParameter type => createTypeParserAsParameter type
  | .genericVariable name _ => some (.parameter (createTypeParserParameterName name))
  | .primitive clazz => some (.read clazz)
  | .bytes (some fixedSize) => some (.readBytes fixedSize)
  | .bytes none => some (.read .byteArray)
  | .container type _ => some (.companion (.container type))
  | .object type _ => some (.companion (.object type))
  | .superContainer => some (.parameter (createTypeParserParameterName "TLContainer"))
  | .superObject => some (.parameter (createTypeParserParameterName "TLContainer"))
  | .any => some (.parameter (createTypeParserParameterName "Object"))
  | .collection _ => none
  | .flag => none

def addObjectParseStatement (name : String) (type : TypeName) (generics : List TLTypeSpec)
    (flag : Option ℤ) : List Stmt :=
  addParsedPropertyStatement name
    (.parse (.object type) (generics.filterMap createTypeParserAsParameter)) flag

/-- Unlike an object, a container gets no parsers for its generics. -/
def addContainerParseStatement (name : String) (type : TypeName) (flag : Option ℤ) : List Stmt :=
  addParsedPropertyStatement name (.parse (.container type) []) flag

def addPropertyParseStatement (name : String) (typeSpec : TLTypeSpec) (flag : Option ℤ) :
    List Stmt :=
  match typeSpec with
  | .object type generics => addObjectParseStatement name type generics flag
  | .container type _ => addContainerParseStatement name type flag
  | .genericParameter type => addPropertyParseStatement name type flag
  | .genericVariable variableName _ => addTypeParseStatement name variableName flag
  | .primitive clazz => addLocalPropertyParseStatement name clazz flag
  | .bytes fixedSize => addBytesParseStatement name fixedSize flag
  | .collection elementGeneric =>
    addCollectionParseStatement name
      (addPropertyParseStatement arrayElementName elementGeneric none)
  | .superContainer => addTypeParseStatement name "SuperObject" flag
  | .superObject => addTypeParseStatement name "SuperObject" flag
  | .flag =>
    match flag with
    | some position => addFlagParseStatement name position
    -- `requireNotNull` stops the generator: there is no code for a flag without an index.
    | none => []
  | .any => []

/-! ## Serializing -/

def addSerializeFlagCheckStatement (name : String) (flag : Option ℤ) (action : List Stmt) :
    List Stmt :=
  match flag with
  | some _ => [.ifNotNull name action]
  | none => action

/-- `addLocalPropertySerializeStatement` for a named value. -/
def addLocalPropertySerializeStatement (name : String) (type : PrimitiveClass) (flag : Option ℤ) :
    List Stmt :=
  addSerializeFlagCheckStatement name flag [.write type (.name name)]

def addObjectSerializeStatement (name : String) (flag : Option ℤ) : List Stmt :=
  addSerializeFlagCheckStatement name flag [.serialize name]

def addGenericSerializeStatement (name : String) (flag : Option ℤ) : List Stmt :=
  addSerializeFlagCheckStatement name flag [.serializeAny name]

/-- `addCollectionSerializeStatement`, given what it emits for the element. -/
def addCollectionSerializeStatement (name : String) (elementStatements : List Stmt)
    (flag : Option ℤ) : List Stmt :=
  addSerializeFlagCheckStatement name flag
    [.write .int (.size name), .forEach name elementStatements]

def addBytesSerializeStatement (name : String) (fixedSize : Option ℕ) (flag : Option ℤ) :
    List Stmt :=
  let sizeValidation := match fixedSize with
    | some fixedSize => [Stmt.requireSize name fixedSize]
    | none => []
  addSerializeFlagCheckStatement name flag (sizeValidation ++ [.write .byteArray (.name name)])

def addPropertySerializeStatement (name : String) (typeSpec : TLTypeSpec) (flag : Option ℤ) :
    List Stmt :=
  match typeSpec with
  | .object _ _ => addObjectSerializeStatement name flag
  | .superContainer => addObjectSerializeStatement name flag
  | .superObject => addObjectSerializeStatement name flag
  | .container _ _ => addObjectSerializeStatement name flag
  | .genericParameter type => addPropertySerializeStatement name type flag
  | .genericVariable _ superType => addPropertySerializeStatement name superType flag
  | .primitive clazz => addLocalPropertySerializeStatement name clazz flag
  | .collection elementGeneric =>
    addCollectionSerializeStatement name
      (addPropertySerializeStatement itKeyword elementGeneric none) flag
  | .bytes fixedSize => addBytesSerializeStatement name fixedSize flag
  | .flag => []
  | .any => addGenericSerializeStatement name flag

def addFlaggingStatement (mtPropertySpec : TLPropertySpec) (flag : ℤ) : List Stmt :=
  let flagCheckStatement := match mtPropertySpec.typeSpec with
    | .flag => FlagCondition.holds mtPropertySpec.name
    | _ => FlagCondition.notNull mtPropertySpec.name
  [.flagging flagCheckStatement (flagPosition flag)]

def addFlaggingSerializationLogic (propertiesSpecs : List TLPropertySpec) : List Stmt :=
  [.declareFlags] ++
    (propertiesSpecs.flatMap fun mtPropertySpec =>
      match mtPropertySpec.flag with
      | some flag => addFlaggingStatement mtPropertySpec flag
      | none => []) ++
    addLocalPropertySerializeStatement flagsPropertyName .int none

def addPropertiesSerializationLogic (propertiesSpecs : List TLPropertySpec) : List Stmt :=
  propertiesSpecs.flatMap fun tlPropertySpec =>
    addPropertySerializeStatement tlPropertySpec.name tlPropertySpec.typeSpec tlPropertySpec.flag

/-! ## The generated functions -/

/-- The body of the `parse` of a variant or a container, without the constructor call at its
end. -/
def addObjectParseFunction (hasFlags : Bool) (propertiesSpecs : List TLPropertySpec) : List Stmt :=
  (if hasFlags then addLocalPropertyParseStatement flagsPropertyName .int none else []) ++
    propertiesSpecs.flatMap fun mtPropertySpec =>
      addPropertyParseStatement mtPropertySpec.name mtPropertySpec.typeSpec mtPropertySpec.flag

/-- The branches of the `when` in the `parse` of a super type; a variant without fields is a
Kotlin `object`. -/
def addBaseObjectParseFunction (mtVariantObjectSpecs : List TLObjectSpec) : List Branch :=
  mtVariantObjectSpecs.map fun mtObjectSpec =>
    if mtObjectSpec.propertiesSpecs.isEmpty then .singleton mtObjectSpec
    else .parse mtObjectSpec (mtObjectSpec.genericVariables.map createTypeParserParameterName)

/-- The body of the `serialize` of a container. -/
def createContainerSerializeFunctionSpec (hasFlags : Bool) (propertiesSpecs : List TLPropertySpec) :
    List Stmt :=
  (if hasFlags then addFlaggingSerializationLogic propertiesSpecs else []) ++
    addPropertiesSerializationLogic propertiesSpecs

/-- The body of the `serialize` of a variant. -/
def createObjectSerializeFunctionSpec (hasFlags : Bool) (propertiesSpecs : List TLPropertySpec) :
    List Stmt :=
  addLocalPropertySerializeStatement hashParameterName .int none ++
    createContainerSerializeFunctionSpec hasFlags propertiesSpecs

end Mtproto.Generator
