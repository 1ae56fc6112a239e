import Mtproto.Generator.Spec
import Mtproto.Parsers.SourceFiles

/-!
# From the parsers to the factories

The specs that the scheme parsers build, as the factories read them.  Texts become strings.  A super
type has the variables among the generics of its name, and its variants are the objects that were
grouped under the name.
-/

namespace Mtproto.Generator

open Parsers (Text Named Collected groupBy cleanVariants)

structure TLMethodSpec where
  propertiesSpecs : List TLPropertySpec
  returnType : TLTypeSpec
  deriving Repr

/-- What a file is generated from. -/
inductive Generated where
  | object (superType : SuperType)
  | container (spec : TLContainerSpec)
  | method (spec : TLMethodSpec)

def typeName (nameSpace : Option Text) (name : Text) : TypeName :=
  ⟨nameSpace.map String.ofList, String.ofList name⟩

mutual

/-- A type; the size of fixed-size bytes is a count. -/
def ofTypeSpec : Parsers.TLTypeSpec → TLTypeSpec
  | .type => .any
  | .flag => .flag
  | .primitive clazz => .primitive clazz
  | .superObject => .superObject
  | .superContainer => .superContainer
  | .object nameSpace name generics => .object (typeName nameSpace name) (ofTypeSpecs generics)
  | .container nameSpace name generics =>
      .container (typeName nameSpace name) (ofTypeSpecs generics)
  | .collection elementGeneric => .collection (ofTypeSpec elementGeneric)
  | .bytes fixedSize => .bytes (fixedSize.map Int.toNat)
  | .genericVariable name superType => .genericVariable (String.ofList name) (ofTypeSpec superType)
  | .genericParameter inner => .genericParameter (ofTypeSpec inner)

def ofTypeSpecs : List Parsers.TLTypeSpec → List TLTypeSpec
  | [] => []
  | spec :: specs => ofTypeSpec spec :: ofTypeSpecs specs

end

def ofPropertySpec (p : Parsers.TLPropertySpec) : TLPropertySpec where
  name := String.ofList p.name
  flag := p.flag
  typeSpec := ofTypeSpec p.typeSpec

def variableNames (genericVariables : Parsers.Variables) : List String :=
  genericVariables.map fun v => String.ofList v.name

/-- The variables among generics. -/
def genericVariableNames (generics : List Parsers.TLTypeSpec) : List String :=
  generics.filterMap fun
    | .genericVariable name _ => some (String.ofList name)
    | _ => none

def ofMethodSpec (m : Parsers.TLMethodSpec) : TLMethodSpec where
  propertiesSpecs := m.propertiesSpecs.map ofPropertySpec
  returnType := ofTypeSpec m.superType

section

variable (hash : Text → BitVec 32)

/-- A variant; `hash` is `constructorHash.toLong(16).toInt()`. -/
def ofObjectSpec (o : Parsers.TLObjectSpec) : TLObjectSpec where
  name := String.ofList o.name
  constructorHash := hash o.constructorHash
  hasFlags := o.hasFlags
  propertiesSpecs := o.propertiesSpecs.map ofPropertySpec
  genericVariables := variableNames o.genericVariables

def ofContainerSpec (c : Parsers.TLContainerSpec) : TLContainerSpec where
  name := String.ofList c.name
  hasFlags := c.hasFlags
  propertiesSpecs := c.propertiesSpecs.map ofPropertySpec
  genericVariables := variableNames c.genericVariables

def ofGroup (group : Named × List Parsers.TLObjectSpec) : SuperType where
  typeVariables := genericVariableNames group.1.generics
  variants := (cleanVariants group.2).map (ofObjectSpec hash)

/-- The generated types by their names: of several files of one name the last one stays. -/
def ofCollected (collected : Collected) : Scheme where
  objects type :=
    ((groupBy Parsers.Declaration.superType collected.objectSpecs).reverse.find? fun group =>
      typeName group.1.nameSpace group.1.name = type).map (ofGroup hash)
  containers type :=
    (collected.containerSpecs.reverse.find? fun c =>
      typeName c.superType.nameSpace c.superType.name = type).map
      ofContainerSpec

/-- The files that `generateSourceCode` writes. -/
def generatedFrom (collected : Collected) : List Generated :=
  collected.containerSpecs.map (fun c => .container (ofContainerSpec c)) ++
    (groupBy Parsers.Declaration.superType collected.objectSpecs).map (fun group =>
      .object (ofGroup hash group)) ++
    collected.methodSpecs.map fun m => .method (ofMethodSpec m)

end

end Mtproto.Generator
