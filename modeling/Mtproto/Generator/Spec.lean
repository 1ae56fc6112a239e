import Mathlib.Data.Int.Notation
import Mathlib.Data.List.Basic
import Mathlib.Algebra.Group.Int.Defs
import Mathlib.Algebra.Group.Nat.Defs

/-!
# Scheme specs and the Kotlin the generator emits

The data model of `scheme/specs` and the fragment of Kotlin in which the generated `parse` and
`serialize` functions are written, one constructor per statement template of `PoetUtils.kt`.  Type
names of declarations carry no behaviour and are left out.
-/

namespace Mtproto.Generator

/-! ## Scheme specs -/

/-- The classes a `TLTypeSpec.Primitive` can have. -/
inductive PrimitiveClass where
  | boolean
  | byte
  | int
  | long
  | double
  | string
  | byteArray
  deriving DecidableEq, Repr

/-- The namespace and the name of a `TLType.Object` or a `TLType.Container`. -/
structure TypeName where
  nameSpace : Option String
  name : String
  deriving DecidableEq, Repr

/-- `TLTypeSpec` with its sealed sub-interfaces; a missing list of generics is the empty one. -/
inductive TLTypeSpec where
  /-- `Type`. -/
  | any
  | flag
  | primitive (clazz : PrimitiveClass)
  | superObject
  | superContainer
  | object (type : TypeName) (generics : List TLTypeSpec)
  | container (type : TypeName) (generics : List TLTypeSpec)
  /-- `Structure.Collection`. -/
  | collection (elementGeneric : TLTypeSpec)
  /-- `Structure.Bytes`. -/
  | bytes (fixedSize : Option ℕ)
  /-- `Generic.Variable`. -/
  | genericVariable (name : String) (superType : TLTypeSpec)
  /-- `Generic.Parameter`. -/
  | genericParameter (type : TLTypeSpec)
  deriving Repr

structure TLPropertySpec where
  name : String
  flag : Option ℤ
  typeSpec : TLTypeSpec
  deriving Repr

/-- A variant of a super type.  `constructorHash` is the value of
`constructorHash.toLong(16).toInt()`, `genericVariables` lists the names of the variables. -/
structure TLObjectSpec where
  name : String
  constructorHash : BitVec 32
  hasFlags : Bool
  propertiesSpecs : List TLPropertySpec
  genericVariables : List String
  deriving Repr

structure TLContainerSpec where
  name : String
  hasFlags : Bool
  propertiesSpecs : List TLPropertySpec
  genericVariables : List String
  deriving Repr

/-- A super type with its generic variables and its variants. -/
structure SuperType where
  typeVariables : List String
  variants : List TLObjectSpec
  deriving Repr

/-- Everything that has been generated from one scheme. -/
structure Scheme where
  objects : TypeName → Option SuperType
  containers : TypeName → Option TLContainerSpec

/-! ## Emitted Kotlin -/

/-- The receiver of a static `parse` call. -/
inductive ParserClass where
  | object (type : TypeName)
  | container (type : TypeName)
  deriving DecidableEq, Repr

/-- A parser passed to a generic `parse`. -/
inductive ParserArgument where
  /-- `parseT` -/
  | parameter (name : String)
  /-- `{ it.readInt() }` -/
  | read (clazz : PrimitiveClass)
  /-- `{ it.readBytes(16) }` -/
  | readBytes (limit : ℕ)
  /-- `TLUser.Companion::parse` -/
  | companion (type : ParserClass)
  deriving DecidableEq, Repr

inductive Expr where
  /-- `name` -/
  | name (name : String)
  /-- `name.size` -/
  | size (name : String)
  /-- `inputStream.readInt()` -/
  | read (clazz : PrimitiveClass)
  /-- `inputStream.readBytes(16)` -/
  | readBytes (limit : ℕ)
  /-- `TLUser.parse(inputStream, parsers)` -/
  | parse (type : ParserClass) (parsers : List ParserArgument)
  /-- `parseT.invoke(inputStream)` -/
  | invoke (parser : String)
  /-- `(flags and 4) != 0` -/
  | flagCheck (flagPosition : BitVec 32)
  deriving DecidableEq, Repr

/-- The condition under which a flag is set. -/
inductive FlagCondition where
  /-- `name` -/
  | holds (name : String)
  /-- `name != null` -/
  | notNull (name : String)
  deriving DecidableEq, Repr

inductive Stmt where
  /-- `val name: T = value` -/
  | declare (name : String) (value : Expr)
  /-- `var name: T? = null` -/
  | declareNull (name : String)
  /-- `name = value` -/
  | assign (name : String) (value : Expr)
  /-- `if((flags and 4) != 0) { body }` -/
  | ifFlag (flagPosition : BitVec 32) (body : List Stmt)
  /-- `val name = ArrayList<T>(size)` -/
  | newArrayList (name size : String)
  /-- `while(name.size < size) { body }` -/
  | whileShorter (name size : String) (body : List Stmt)
  /-- `name.add(element)` -/
  | add (name element : String)
  /-- `outputStream.writeInt(value)` -/
  | write (clazz : PrimitiveClass) (value : Expr)
  /-- `name.serialize(outputStream)` -/
  | serialize (name : String)
  /-- `SerializationHelper.serialize(outputStream, name)` -/
  | serializeAny (name : String)
  /-- `if(name != null) { body }` -/
  | ifNotNull (name : String) (body : List Stmt)
  /-- `name.forEach { body }` -/
  | forEach (name : String) (body : List Stmt)
  /-- `require(name.size == size)` -/
  | requireSize (name : String) (size : ℕ)
  /-- `var flags = 0` -/
  | declareFlags
  /-- `flags = if (condition) (flags or 4) else (flags and 4.inv())` -/
  | flagging (condition : FlagCondition) (flagPosition : BitVec 32)
  deriving Repr

/-- A branch of the `when` in the `parse` of a super type. -/
inductive Branch where
  /-- `User.CONSTRUCTOR_HASH -> User.parse(inputStream, parsers)` -/
  | parse (variant : TLObjectSpec) (parsers : List String)
  /-- `UserEmpty.CONSTRUCTOR_HASH -> UserEmpty` -/
  | singleton (variant : TLObjectSpec)

def Branch.variant : Branch → TLObjectSpec
  | .parse variant _ => variant
  | .singleton variant => variant

end Mtproto.Generator
