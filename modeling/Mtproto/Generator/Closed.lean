import Mtproto.Generator.FromScheme
import Mtproto.Generator.Names
import Mathlib.Data.List.Forall2

/-!
# Closed parse functions

Every `parse` function that is generated for an object, a container or a method, with the parsers
that it declares (`asParseFunctionBuilder`, and the class properties of a method) and those that its
body invokes, passes or should pass.  Declarations and uses come from different functions of the
generator.  They agree on the branches of a super type, up to variables that the super type lacks,
and on fields whose type variables are those of the function.  A field of a super type, a generic
container, an argument that has no parser, two classes of one simple name and the response of a
method do not fit in (`sound_iff`).
-/

namespace Mtproto.Generator

open Scopes

/-! ## Generated functions -/

/-- `METHOD_RESPONSE_NAME`. -/
def methodResponseName : String := "response"

/-- The parsers that `asParseFunctionBuilder` declares for the type variables of a function. -/
def parserParameters (typeVariables : List String) : List String :=
  typeVariables.map createTypeParserParameterName

/-- The properties of the class of a method: `addMethodType` adds a parser if the return type is a
variable. -/
def TLMethodSpec.classProperties (m : TLMethodSpec) : List String :=
  m.propertiesSpecs.map TLPropertySpec.name ++
    match m.returnType with
    | .genericVariable name _ => [createTypeParserParameterName name]
    | _ => []

def createMethodParseFunction (returnType : TLTypeSpec) : List Stmt :=
  addPropertyParseStatement methodResponseName returnType none

/-- A `parse` function: what is declared around its body, the body, and the types that it parses. -/
structure ParseFunction where
  declared : List String
  body : List Stmt
  types : List TLTypeSpec

def TLObjectSpec.parseFunction (spec : TLObjectSpec) : ParseFunction where
  declared := parserParameters spec.genericVariables
  body := addObjectParseFunction spec.hasFlags spec.propertiesSpecs
  types := spec.propertiesSpecs.map TLPropertySpec.typeSpec

def TLContainerSpec.parseFunction (spec : TLContainerSpec) : ParseFunction where
  declared := parserParameters spec.genericVariables
  body := addObjectParseFunction spec.hasFlags spec.propertiesSpecs
  types := spec.propertiesSpecs.map TLPropertySpec.typeSpec

def TLMethodSpec.parseFunction (spec : TLMethodSpec) : ParseFunction where
  declared := spec.classProperties
  body := createMethodParseFunction spec.returnType
  types := [spec.returnType]

namespace Generated

/-- The `parse` functions with a body of statements; a variant without fields has none. -/
def functions : Generated → List ParseFunction
  | object superType =>
      (superType.variants.filter fun variant =>
        !variant.propertiesSpecs.isEmpty).map TLObjectSpec.parseFunction
  | container spec => [spec.parseFunction]
  | method spec => [spec.parseFunction]

/-- The parsers that the `parse` of a super type declares. -/
def parameters : Generated → List String
  | object superType => parserParameters superType.typeVariables
  | _ => []

/-- The branches in the `parse` of a super type. -/
def branches : Generated → List Branch
  | object superType => addBaseObjectParseFunction superType.variants
  | _ => []

end Generated

/-- The type variables that a generated `parse` declares. -/
def Scheme.typeVariables (scheme : Scheme) : ParserClass → Option (List String)
  | .object type => (scheme.objects type).map SuperType.typeVariables
  | .container type => (scheme.containers type).map TLContainerSpec.genericVariables

/-! ## Calls -/

def Expr.calls : Expr → List (ParserClass × List ParserArgument)
  | .parse type parsers => [(type, parsers)]
  | _ => []

mutual

def Stmt.calls : Stmt → List (ParserClass × List ParserArgument)
  | .declare _ value => value.calls
  | .assign _ value => value.calls
  | .write _ value => value.calls
  | .ifFlag _ body => blockCalls body
  | .whileShorter _ _ body => blockCalls body
  | .ifNotNull _ body => blockCalls body
  | .forEach _ body => blockCalls body
  | _ => []

def blockCalls : List Stmt → List (ParserClass × List ParserArgument)
  | [] => []
  | s :: block => s.calls ++ blockCalls block

end

/-- A generated type that is used with arguments for its type variables. -/
structure Use where
  callee : ParserClass
  arguments : List TLTypeSpec

def TLTypeSpec.use : TLTypeSpec → Option Use
  | .object type generics => some ⟨.object type, generics⟩
  | .container type generics => some ⟨.container type, generics⟩
  | .genericParameter type => type.use
  | .collection elementGeneric => elementGeneric.use
  | _ => none

/-! ## Names of classes -/

/-- The simple name of a generated class; where `createClassName` throws there is none. -/
def ParserClass.simpleName (u : Parsers.Unicode) : ParserClass → Except Parsers.Failure String
  | .object type => name type
  | .container type => name type
where
  name (type : TypeName) : Except Parsers.Failure String :=
    (Parsers.formattedName u (type.nameSpace.map String.toList) type.name.toList).map fun t =>
      String.ofList (Parsers.typesPrefix ++ t)

section

variable (u : Parsers.Unicode) (meaning : String → Option ParserClass)

/-- The text of a call has the simple name of the class only.  In a file this name stands for the
class that is imported, nested or in the package (`meaning`). -/
def Means (type : ParserClass) : Prop :=
  ∀ name, type.simpleName u = .ok name → meaning name = some type

variable {u} {meaning}

/-- Of two classes with one simple name a file can only call one. -/
theorem Means.eq {type type' : ParserClass} {name : String} (h : Means u meaning type)
    (h' : Means u meaning type') (hname : type.simpleName u = .ok name)
    (hname' : type'.simpleName u = .ok name) : type = type' :=
  Option.some.inj ((h name hname).symm.trans (h' name hname'))

end

-- the object `Pair` of the namespace `a` and the container `APair`
example : (ParserClass.object ⟨some "a", "Pair"⟩).simpleName .ascii =
    (ParserClass.container ⟨none, "APair"⟩).simpleName .ascii := by decide +kernel

/-! ## Soundness -/

/-- A parser is a parameter or a property of the class, or a local. -/
def Known (declared : List String) (scopes : List (List String)) : Event String Outside → Prop
  | .outside (.parser name) => name ∈ declared ∨ name ∈ scopes.flatten
  | _ => True

instance (declared : List String) (scopes : List (List String)) :
    (e : Event String Outside) → Decidable (Known declared scopes e)
  | .outside (.parser name) => inferInstanceAs (Decidable (name ∈ declared ∨ name ∈ scopes.flatten))
  | .outside .inputStream => isTrue trivial
  | .outside .outputStream => isTrue trivial
  | .outside (.companion _) => isTrue trivial
  | .declare _ => isTrue trivial
  | .refer _ => isTrue trivial
  | .enter => isTrue trivial
  | .leave => isTrue trivial

/-- There are as many parsers as variables, and each is the parser of the argument for its
variable. -/
structure Passes (names : List String) (arguments : List TLTypeSpec)
    (parsers : List ParserArgument) : Prop where
  length_eq : parsers.length = names.length
  order : ∀ i < names.length, ∃ argument parser, arguments[i]? = some argument ∧
    parsers[i]? = some parser ∧
    createTypeParserAsParameter argument = some parser

section

variable (u : Parsers.Unicode) (meaning : String → Option ParserClass) (scheme : Scheme)

/-- A call goes to the generated function and suits it; a function that is passed itself is going to
be called without parsers. -/
structure Answers (use : Use) (call : ParserClass × List ParserArgument) : Prop where
  callee_eq : call.1 = use.callee
  callee_means : Means u meaning call.1
  passes : ∀ names, scheme.typeVariables use.callee = some names →
    Passes names use.arguments call.2
  passed_means : ∀ type, .companion type ∈ call.2 → Means u meaning type
  passed : ∀ type, .companion type ∈ call.2 → ∀ names, scheme.typeVariables type = some names →
    names = []

structure ParseFunction.Sound (f : ParseFunction) : Prop where
  closed : All (Known f.declared) [[]] (blockEvents f.body)
  calls : List.Forall₂ (Answers u meaning scheme) (f.types.filterMap TLTypeSpec.use)
    (blockCalls f.body)

/-- A branch passes declared parsers only, those that the `parse` of the variant wants. -/
def Branch.Sound (parameters : List String) : Branch → Prop
  | .parse variant parsers =>
      (∀ parser ∈ parsers, parser ∈ parameters) ∧ parsers = variant.parseFunction.declared
  | .singleton _ => True

structure Generated.Sound (g : Generated) : Prop where
  functions : ∀ f ∈ g.functions, f.Sound u meaning scheme
  branches : ∀ branch ∈ g.branches, branch.Sound g.parameters

end

/-! ## When types and variables match -/

/-- The type whose parser is passed for an argument: a variable, or a name that nobody declares. -/
def TLTypeSpec.wantedAsArgument : TLTypeSpec → Option String
  | .genericParameter type => type.wantedAsArgument
  | .genericVariable name _ => some name
  | .superContainer => some "TLContainer"
  | .superObject => some "TLContainer"
  | .any => some "Object"
  | _ => none

/-- The types whose parsers the code of a type invokes or passes. -/
def TLTypeSpec.wanted : TLTypeSpec → List String
  | .object _ generics => generics.filterMap TLTypeSpec.wantedAsArgument
  | .genericVariable name _ => [name]
  | .superContainer => ["SuperObject"]
  | .superObject => ["SuperObject"]
  | .genericParameter type => type.wanted
  | .collection elementGeneric => elementGeneric.wanted
  | _ => []

/-- A list and a true-flag have no parser that could be passed. -/
def TLTypeSpec.IsPassable : TLTypeSpec → Prop
  | .genericParameter type => type.IsPassable
  | .collection _ => False
  | .flag => False
  | _ => True

/-- The generated type of an argument. -/
def TLTypeSpec.generatedType : TLTypeSpec → Option ParserClass
  | .genericParameter type => type.generatedType
  | .object type _ => some (.object type)
  | .container type _ => some (.container type)
  | _ => none

/-- The arguments of a type fit a number of variables: exactly the arguments for the variables can
be passed.  A container gets no parsers at all. -/
def Use.Fits (n : ℕ) (use : Use) : Prop :=
  match use.callee with
  | .object _ => n ≤ use.arguments.length ∧
      (∀ argument ∈ use.arguments.take n, argument.IsPassable) ∧
      ∀ argument ∈ use.arguments.drop n, ¬ argument.IsPassable
  | .container _ => n = 0

/-- The arguments of an object are not generic themselves. -/
def Use.Flat (scheme : Scheme) (use : Use) : Prop :=
  match use.callee with
  | .object _ => ∀ argument ∈ use.arguments, ∀ type ∈ argument.generatedType, ∀ names,
      scheme.typeVariables type = some names → names = []
  | .container _ => True

/-- The classes whose parsers the code of a use calls or passes. -/
def Use.classes (use : Use) : List ParserClass :=
  use.callee ::
    match use.callee with
    | .object _ => use.arguments.filterMap TLTypeSpec.generatedType
    | .container _ => []

/-- The locals of a property that its own code can use as parsers. -/
def Shape.ownNames (name : String) (index : Option ℤ) : Shape → List String
  | .value _ => if index.isSome then [name] else []
  | .list _ => [name, sizeFieldName name]
  | _ => []

def TLPropertySpec.ownNames (p : TLPropertySpec) : List String :=
  p.typeSpec.shape.ownNames p.name p.flag

/-- The response of a method as a property. -/
def TLMethodSpec.response (m : TLMethodSpec) : TLPropertySpec :=
  ⟨methodResponseName, none, m.returnType⟩

section

variable (u : Parsers.Unicode) (meaning : String → Option ParserClass) (scheme : Scheme)

/-- Every wanted parser is declared, or there is a local of its name, and the generated types are
used as they are declared and under names that are theirs. -/
structure PropertiesMatch (declared : List String) (propertiesSpecs : List TLPropertySpec) :
    Prop where
  provided : ∀ front p back, propertiesSpecs = front ++ p :: back → ∀ type ∈ p.typeSpec.wanted,
    createTypeParserParameterName type ∈
      declared ++ (p.ownNames ++ front.flatMap TLPropertySpec.declaredNames)
  fits : ∀ p ∈ propertiesSpecs, ∀ use ∈ p.typeSpec.use, ∀ names,
    scheme.typeVariables use.callee = some names → use.Fits names.length
  flat : ∀ p ∈ propertiesSpecs, ∀ use ∈ p.typeSpec.use, use.Flat scheme
  named : ∀ p ∈ propertiesSpecs, ∀ use ∈ p.typeSpec.use, ∀ type ∈ use.classes, Means u meaning type

def Generated.Matches : Generated → Prop
  | .object superType => ∀ variant ∈ superType.variants, variant.propertiesSpecs ≠ [] →
      (∀ name ∈ variant.genericVariables, name ∈ superType.typeVariables) ∧
        PropertiesMatch u meaning scheme (parserParameters variant.genericVariables)
          variant.propertiesSpecs
  | .container spec =>
      PropertiesMatch u meaning scheme (parserParameters spec.genericVariables) spec.propertiesSpecs
  | .method spec => PropertiesMatch u meaning scheme spec.classProperties [spec.response]

end

/-! ## Names of parsers -/

theorem createTypeParserParameterName_injective :
    Function.Injective createTypeParserParameterName := by
  intro s t h
  have hlist := congrArg String.toList h
  simp only [createTypeParserParameterName, String.toList_append] at hlist
  exact String.toList_inj.1 (List.append_cancel_left hlist)

theorem createTypeParserParameterName_ne {name : String} (h : name.toList.head? ≠ some 'p')
    (type : String) :
    createTypeParserParameterName type ≠ name := by
  rintro rfl
  apply h
  rw [createTypeParserParameterName, String.toList_append]
  rfl

theorem parser_not_mem_element (type : String) (index : Option ℤ) (shape : Shape) :
    createTypeParserParameterName type ∉ shape.ownNames arrayElementName index := by
  have helement : createTypeParserParameterName type ≠ arrayElementName :=
    createTypeParserParameterName_ne (by decide) type
  have hsize : createTypeParserParameterName type ≠ sizeFieldName arrayElementName :=
    createTypeParserParameterName_ne (by decide) type
  cases shape with
  | value e => cases index <;> simp [Shape.ownNames, helement]
  | flag => simp [Shape.ownNames]
  | nothing => simp [Shape.ownNames]
  | list element => simp [Shape.ownNames, helement, hsize]

/-! ## Declared parsers -/

/-- The parser of an argument is a name if the argument wants one. -/
theorem parser_mem_outside_iff (argument : TLTypeSpec) (name : String) :
    (∃ parser, createTypeParserAsParameter argument = some parser ∧
      Outside.parser name ∈ parser.outside) ↔
      ∃ type, argument.wantedAsArgument = some type ∧
        name = createTypeParserParameterName type := by
  induction argument using createTypeParserAsParameter.induct with
  | case1 type ih => exact ih
  | case2 | case3 | case4 | case5 | case6 | case7 | case8 | case9 | case10 | case11 | case12 =>
      simp [createTypeParserAsParameter, TLTypeSpec.wantedAsArgument, ParserArgument.outside]

theorem parser_mem_arguments_iff (generics : List TLTypeSpec) (name : String) :
    Outside.parser name ∈
      (generics.filterMap createTypeParserAsParameter).flatMap ParserArgument.outside ↔
      ∃ type ∈ generics.filterMap TLTypeSpec.wantedAsArgument,
        name = createTypeParserParameterName type := by
  simp only [List.mem_flatMap, List.mem_filterMap]
  constructor
  · rintro ⟨parser, ⟨generic, hgeneric, hparser⟩, hname⟩
    obtain ⟨type, htype, rfl⟩ := (parser_mem_outside_iff generic name).1 ⟨parser, hparser, hname⟩
    exact ⟨type, ⟨generic, hgeneric, htype⟩, rfl⟩
  · rintro ⟨type, ⟨generic, hgeneric, htype⟩, rfl⟩
    obtain ⟨parser, hparser, hname⟩ := (parser_mem_outside_iff generic _).2 ⟨type, htype, rfl⟩
    exact ⟨parser, ⟨generic, hgeneric, hparser⟩, hname⟩

section Closed

variable {declared : List String}

/-- `Known` for tagged names. -/
def KnownTagged (declared : List String) (scopes : List (List Local)) : Event Local Outside → Prop
  | .outside (.parser name) => name ∈ declared ∨ name ∈ scopes.flatten.map Local.name
  | _ => True

theorem all_known_iff {events : List (Event Local Outside)} :
    All (Known declared) [[]] (eraseNames events) ↔ All (KnownTagged declared) [[]] events := by
  have htagged : (fun scopes (e : Event Local Outside) =>
      Known declared (scopes.map (List.map Local.name)) (e.map Local.name)) =
        KnownTagged declared := by
    funext scopes e
    cases e with
    | outside o => cases o <;> simp [Event.map, Known, KnownTagged, List.map_flatten]
    | declare x | refer x | enter | leave => rfl
  rw [← htagged]
  exact all_map Local.name events [[]]

theorem forall_outside_iff {os : List Outside} {scopes : List (List Local)} :
    (∀ o ∈ os, KnownTagged declared scopes (.outside o)) ↔
      ∀ name, .parser name ∈ os → name ∈ declared ∨ name ∈ scopes.flatten.map Local.name := by
  refine ⟨fun h name hname => h _ hname, fun h o ho => ?_⟩
  cases o with
  | parser name => exact h name ho
  | inputStream | outputStream | companion type => trivial

variable (i depth : ℕ) (self : Local) (index : Option ℤ) (scope : List Local)
  (outer : List (List Local))

theorem all_knownTagged_value (e : Expr) :
    All (KnownTagged declared) (scope :: outer) ((Shape.value e).events i depth self index) ↔
      ∀ name, .parser name ∈ e.outside → name ∈ declared ∨
        name ∈ (Shape.value e).ownNames self.name index ∨
        name ∈ (scope :: outer).flatten.map Local.name := by
  cases index with
  | none =>
      rw [all_value_none, forall_outside_iff]
      simp [Shape.ownNames, KnownTagged]
  | some index =>
      rw [all_value_some, forall_outside_iff]
      simp [Shape.ownNames, KnownTagged]

/-- The code of a type finds its parsers. -/
theorem all_knownTagged_shape (type : TLTypeSpec) :
    All (KnownTagged declared) (scope :: outer) (type.shape.events i depth self index) ↔
      ∀ v ∈ type.wanted, createTypeParserParameterName v ∈ declared ∨
        createTypeParserParameterName v ∈ type.shape.ownNames self.name index ∨
        createTypeParserParameterName v ∈ (scope :: outer).flatten.map Local.name := by
  induction type using TLTypeSpec.shape.induct generalizing depth self index scope outer with
  | case1 type generics =>
      rw [TLTypeSpec.shape, all_knownTagged_value]
      simp only [Expr.outside, List.mem_cons, reduceCtorEq, false_or, parser_mem_arguments_iff,
        TLTypeSpec.wanted]
      refine ⟨fun h v hv => h _ ⟨v, hv, rfl⟩, ?_⟩
      rintro h name ⟨v, hv, rfl⟩
      exact h v hv
  | case3 type ih => exact ih depth self index scope outer
  | case8 element ih =>
      have hnot := fun v => parser_not_mem_element v none element.shape
      rw [TLTypeSpec.shape, all_list _ rfl _ rfl _ rfl, ih]
      simp only [elementLocal, hnot, false_or]
      simp [KnownTagged, TLTypeSpec.wanted, Shape.ownNames, sizeLocal, or_assoc]
  | case11 => cases index <;> simp [TLTypeSpec.shape, Shape.events, KnownTagged, TLTypeSpec.wanted]
  | case12 => cases index <;> simp [TLTypeSpec.shape, Shape.events, TLTypeSpec.wanted]
  | case2 | case4 | case5 | case6 | case7 | case9 | case10 =>
      rw [TLTypeSpec.shape, all_knownTagged_value]
      simp [Expr.outside, TLTypeSpec.wanted]

theorem all_knownTagged_properties (ps : List TLPropertySpec) :
    All (KnownTagged declared) [scope] (propertiesEvents i ps) ↔
      ∀ front p back, ps = front ++ p :: back → ∀ v ∈ p.typeSpec.wanted,
        createTypeParserParameterName v ∈ declared ∨ createTypeParserParameterName v ∈ p.ownNames ∨
          createTypeParserParameterName v ∈ front.flatMap TLPropertySpec.declaredNames ++
            scope.map Local.name := by
  induction ps generalizing i scope with
  | nil => simp [propertiesEvents]
  | cons p ps ih =>
      rw [propertiesEvents, all_append, after_property, TLPropertySpec.events,
        all_knownTagged_shape, ih, forall_split_cons]
      refine and_congr ?_ ?_
      · simp [TLPropertySpec.ownNames, TLPropertySpec.field]
      · simp only [List.map_append, map_name_locals, List.flatMap_cons, List.mem_append]
        grind

end Closed

theorem closed_iff (declared : List String) (hasFlags : Bool) (ps : List TLPropertySpec) :
    All (Known declared) [[]] (blockEvents (addObjectParseFunction hasFlags ps)) ↔
      ∀ front p back, ps = front ++ p :: back → ∀ v ∈ p.typeSpec.wanted,
        createTypeParserParameterName v ∈ declared ++
          (p.ownNames ++ front.flatMap TLPropertySpec.declaredNames) := by
  have hflags : ∀ v, createTypeParserParameterName v ≠ flagsPropertyName :=
    createTypeParserParameterName_ne (by decide)
  rw [← eraseNames_body, all_known_iff, all_append]
  cases hasFlags with
  | false =>
      change True ∧ All _ [[]] (propertiesEvents 0 ps) ↔ _
      rw [true_and, all_knownTagged_properties]
      simp
  | true =>
      change (True ∧ True ∧ True) ∧ All _ [[flagsLocal]] (propertiesEvents 0 ps) ↔ _
      rw [true_and, true_and, true_and, all_knownTagged_properties]
      simp [flagsLocal, hflags]

/-! ## Passed parsers -/

theorem isPassable_iff (argument : TLTypeSpec) :
    argument.IsPassable ↔ (createTypeParserAsParameter argument).isSome = true := by
  induction argument using createTypeParserAsParameter.induct with
  | case1 type ih => exact ih
  | case2 | case3 | case4 | case5 | case6 | case7 | case8 | case9 | case10 | case11 | case12 =>
      simp [TLTypeSpec.IsPassable, createTypeParserAsParameter]

theorem generatedType_eq_some_iff (argument : TLTypeSpec) (type : ParserClass) :
    argument.generatedType = some type ↔
      createTypeParserAsParameter argument = some (.companion type) := by
  induction argument using createTypeParserAsParameter.induct with
  | case1 type ih => exact ih
  | case2 | case3 | case4 | case5 | case6 | case7 | case8 | case9 | case10 | case11 | case12 =>
      simp [TLTypeSpec.generatedType, createTypeParserAsParameter]

/-- What is kept of a list stands where it stood if it was the front of the list. -/
theorem filterMap_aligned_iff {α β : Type} (f : α → Option β) (l : List α) (n : ℕ) :
    ((l.filterMap f).length = n ∧
        ∀ i < n, ∃ a b, l[i]? = some a ∧ (l.filterMap f)[i]? = some b ∧ f a = some b) ↔
      n ≤ l.length ∧ (∀ a ∈ l.take n, (f a).isSome = true) ∧
        ∀ a ∈ l.drop n, ¬ (f a).isSome = true := by
  induction l generalizing n with
  | nil =>
      simp only [List.filterMap_nil, List.length_nil, List.take_nil, List.drop_nil]
      constructor
      · rintro ⟨rfl, -⟩
        simp
      · rintro ⟨hn, -⟩
        obtain rfl : n = 0 := by omega
        simp
  | cons a l ih =>
      cases n with
      | zero =>
          simp only [List.length_eq_zero_iff, List.filterMap_eq_nil_iff]
          simp
      | succ n =>
          cases ha : f a with
          | none =>
              constructor
              · rintro ⟨-, h⟩
                obtain ⟨a', b, ha', -, hb⟩ := h 0 (by omega)
                obtain rfl : a = a' := by simpa using ha'
                rw [ha] at hb
                cases hb
              · rintro ⟨-, h, -⟩
                have hsome := h a (by simp)
                simp [ha] at hsome
          | some b =>
              have hshift : (∀ i < n + 1, ∃ a' b', (a :: l)[i]? = some a' ∧
                  (b :: l.filterMap f)[i]? = some b' ∧
                  f a' = some b') ↔
                  ∀ i < n, ∃ a' b', l[i]? = some a' ∧ (l.filterMap f)[i]? = some b' ∧
                    f a' = some b' := by
                refine ⟨fun h i hi => by simpa using h (i + 1) (by omega), fun h i hi => ?_⟩
                cases i with
                | zero => exact ⟨a, b, rfl, rfl, ha⟩
                | succ i => simpa using h i (by omega)
              rw [List.filterMap_cons_some ha, hshift, List.length_cons, Nat.add_right_cancel_iff,
                ih]
              simp [ha]

/-- The parsers that the code of a type passes. -/
def Use.parsers (use : Use) : List ParserArgument :=
  match use.callee with
  | .object _ => use.arguments.filterMap createTypeParserAsParameter
  | .container _ => []

theorem passes_iff (use : Use) (names : List String) :
    Passes names use.arguments use.parsers ↔ use.Fits names.length := by
  obtain ⟨callee, arguments⟩ := use
  cases callee with
  | object type =>
      have haligned := filterMap_aligned_iff createTypeParserAsParameter arguments names.length
      simp only [← isPassable_iff] at haligned
      exact ⟨fun h => haligned.1 ⟨h.length_eq, h.order⟩, fun h =>
        ⟨(haligned.2 h).1, (haligned.2 h).2⟩⟩
  | container type =>
      refine ⟨fun h => h.length_eq.symm, fun h => ⟨h.symm, fun i hi => ?_⟩⟩
      have hlength : names.length = 0 := h
      omega

theorem companion_mem_parsers_iff (use : Use) (type : ParserClass) :
    .companion type ∈ use.parsers ↔ type ∈ use.classes.tail := by
  obtain ⟨callee, arguments⟩ := use
  cases callee with
  | object => simp [Use.parsers, Use.classes, generatedType_eq_some_iff]
  | container => simp [Use.parsers, Use.classes]

theorem flat_iff (scheme : Scheme) (use : Use) :
    (∀ type, .companion type ∈ use.parsers → ∀ names, scheme.typeVariables type = some names →
      names = []) ↔
      use.Flat scheme := by
  simp only [companion_mem_parsers_iff]
  obtain ⟨callee, arguments⟩ := use
  cases callee with
  | object type =>
      simp only [Use.classes, Use.Flat, List.tail_cons, List.mem_filterMap, Option.mem_def]
      refine ⟨fun h argument hargument type htype => h type ⟨argument, hargument, htype⟩, ?_⟩
      rintro h type ⟨argument, hargument, htype⟩
      exact h argument hargument type htype
  | container type => simp [Use.classes, Use.Flat]

section

variable {u : Parsers.Unicode} {meaning : String → Option ParserClass}

theorem answers_iff (scheme : Scheme) (use : Use) :
    Answers u meaning scheme use (use.callee, use.parsers) ↔
      (∀ names, scheme.typeVariables use.callee = some names → use.Fits names.length) ∧
        use.Flat scheme ∧ ∀ type ∈ use.classes, Means u meaning type := by
  have hclasses : (∀ type ∈ use.classes, Means u meaning type) ↔
      Means u meaning use.callee ∧ ∀ type, .companion type ∈ use.parsers →
        Means u meaning type := by
    simp only [companion_mem_parsers_iff]
    exact List.forall_mem_cons
  rw [← flat_iff, hclasses]
  constructor
  · intro h
    exact ⟨fun names hnames => (passes_iff use names).1 (h.passes names hnames), h.passed,
      h.callee_means, h.passed_means⟩
  · rintro ⟨hfits, hflat, hcallee, hpassed⟩
    exact ⟨rfl, hcallee, fun names hnames => (passes_iff use names).2 (hfits names hnames), hpassed,
      hflat⟩

end

/-! ## The calls of a function -/

theorem blockCalls_append (block block' : List Stmt) :
    blockCalls (block ++ block') = blockCalls block ++ blockCalls block' := by
  induction block with
  | nil => rfl
  | cons s block ih => rw [List.cons_append, blockCalls, blockCalls, ih, List.append_assoc]

theorem blockCalls_parsed (name : String) (e : Expr) (index : Option ℤ) :
    blockCalls (addParsedPropertyStatement name e index) = e.calls := by
  cases index <;> simp [addParsedPropertyStatement, blockCalls, Stmt.calls]

/-- The call of a use, as the generator emits it. -/
def Use.call (use : Use) : ParserClass × List ParserArgument := (use.callee, use.parsers)

theorem blockCalls_property (name : String) (type : TLTypeSpec) (index : Option ℤ) :
    blockCalls (addPropertyParseStatement name type index) = type.use.toList.map Use.call := by
  induction name, type, index using addPropertyParseStatement.induct with
  | case3 name index type ih =>
      rw [addPropertyParseStatement]
      exact ih
  | case7 name index element ih =>
      rw [addPropertyParseStatement, addCollectionParseStatement, blockCalls_append, blockCalls,
        blockCalls, Stmt.calls, blockCalls_append, ih]
      simp [blockCalls, Stmt.calls, addLocalPropertyParseStatement, blockCalls_parsed, Expr.calls,
        TLTypeSpec.use]
  | case6 name index fixedSize =>
      cases fixedSize <;> exact blockCalls_parsed _ _ _
  | case1 | case2 | case4 | case5 | case8 | case9 => exact blockCalls_parsed _ _ _
  | case10 | case11 | case12 => rfl

theorem blockCalls_function (hasFlags : Bool) (ps : List TLPropertySpec) :
    blockCalls (addObjectParseFunction hasFlags ps) =
      ((ps.map TLPropertySpec.typeSpec).filterMap TLTypeSpec.use).map Use.call := by
  have hflags :
      blockCalls (if hasFlags then addLocalPropertyParseStatement flagsPropertyName .int none else
        []) = [] := by
    cases hasFlags <;> rfl
  rw [addObjectParseFunction, blockCalls_append, hflags, List.nil_append]
  induction ps with
  | nil => rfl
  | cons p ps ih =>
      rw [List.flatMap_cons, blockCalls_append, blockCalls_property, ih, List.map_cons,
        List.filterMap_cons]
      cases p.typeSpec.use <;> rfl

section

variable {u : Parsers.Unicode} {meaning : String → Option ParserClass}

theorem calls_iff (scheme : Scheme) (uses : List Use) :
    List.Forall₂ (Answers u meaning scheme) uses (uses.map Use.call) ↔
      ∀ use ∈ uses, (∀ names, scheme.typeVariables use.callee = some names →
        use.Fits names.length) ∧
        use.Flat scheme ∧ ∀ type ∈ use.classes, Means u meaning type := by
  rw [List.forall₂_map_right_iff, List.forall₂_same]
  exact forall₂_congr fun use _ => answers_iff scheme use

/-! ## Sound functions -/

theorem function_sound_iff (scheme : Scheme) (declared : List String) (hasFlags : Bool)
    (ps : List TLPropertySpec) :
    ParseFunction.Sound u meaning scheme
        ⟨declared, addObjectParseFunction hasFlags ps, ps.map TLPropertySpec.typeSpec⟩ ↔
      PropertiesMatch u meaning scheme declared ps := by
  have hcalls : List.Forall₂ (Answers u meaning scheme)
      ((ps.map TLPropertySpec.typeSpec).filterMap TLTypeSpec.use)
      (blockCalls (addObjectParseFunction hasFlags ps)) ↔ ∀ p ∈ ps, ∀ use ∈ p.typeSpec.use,
        (∀ names, scheme.typeVariables use.callee = some names → use.Fits names.length) ∧
          use.Flat scheme ∧ ∀ type ∈ use.classes, Means u meaning type := by
    rw [blockCalls_function, calls_iff]
    simp only [List.mem_filterMap, List.mem_map, Option.mem_def]
    refine ⟨fun h p hp use huse => h use ⟨_, ⟨p, hp, rfl⟩, huse⟩, ?_⟩
    rintro h use ⟨type, ⟨p, hp, rfl⟩, huse⟩
    exact h p hp use huse
  constructor
  · rintro ⟨hclosed, hanswers⟩
    have hmatched := hcalls.1 hanswers
    exact {
      provided := (closed_iff declared hasFlags ps).1 hclosed
      fits := fun p hp use huse => (hmatched p hp use huse).1
      flat := fun p hp use huse => (hmatched p hp use huse).2.1
      named := fun p hp use huse => (hmatched p hp use huse).2.2 }
  · rintro ⟨hprovided, hfits, hflat, hnamed⟩
    refine ⟨(closed_iff declared hasFlags ps).2 hprovided, hcalls.2 fun p hp use huse => ?_⟩
    exact ⟨hfits p hp use huse, hflat p hp use huse, hnamed p hp use huse⟩

theorem method_sound_iff (scheme : Scheme) (m : TLMethodSpec) :
    m.parseFunction.Sound u meaning scheme ↔
      PropertiesMatch u meaning scheme m.classProperties [m.response] := by
  have hbody : createMethodParseFunction m.returnType = addObjectParseFunction false [m.response] :=
    (List.append_nil _).symm
  rw [← function_sound_iff scheme _ false, ← hbody]
  rfl

end

theorem branches_sound_iff (typeVariables : List String) (variants : List TLObjectSpec) :
    (∀ branch ∈ addBaseObjectParseFunction variants,
      branch.Sound (parserParameters typeVariables)) ↔
      ∀ variant ∈ variants, variant.propertiesSpecs ≠ [] →
        ∀ name ∈ variant.genericVariables, name ∈ typeVariables := by
  have hbranch : ∀ variant : TLObjectSpec, Branch.Sound (parserParameters typeVariables)
      (if variant.propertiesSpecs.isEmpty then .singleton variant
        else .parse variant (variant.genericVariables.map createTypeParserParameterName)) ↔
      (variant.propertiesSpecs ≠ [] → ∀ name ∈ variant.genericVariables, name ∈ typeVariables) := by
    intro variant
    by_cases hempty : variant.propertiesSpecs = []
    · simp [hempty, Branch.Sound]
    · have hdeclared : variant.genericVariables.map createTypeParserParameterName =
          variant.parseFunction.declared :=
        rfl
      rw [if_neg (by simpa using hempty), Branch.Sound, and_iff_left hdeclared]
      simp [parserParameters, hempty, createTypeParserParameterName_injective.eq_iff]
  rw [addBaseObjectParseFunction, List.forall_mem_map]
  exact forall₂_congr fun variant _ => hbranch variant

/-- The `parse` functions generated from an object, a container or a method are closed, call what
they should and pass one parser for each type variable, in its place, if and only if types,
variables and names match. -/
theorem sound_iff (u : Parsers.Unicode) (meaning : String → Option ParserClass) (scheme : Scheme)
    (g : Generated) : g.Sound u meaning scheme ↔ g.Matches u meaning scheme := by
  cases g with
  | object superType =>
      have hfunctions : (∀ f ∈ (Generated.object superType).functions, f.Sound u meaning scheme) ↔
          ∀ variant ∈ superType.variants, variant.propertiesSpecs ≠ [] →
            PropertiesMatch u meaning scheme (parserParameters variant.genericVariables)
              variant.propertiesSpecs := by
        rw [Generated.functions, List.forall_mem_map]
        simp only [List.mem_filter, and_imp]
        refine forall₂_congr fun variant _ => ?_
        rw [← function_sound_iff scheme _ variant.hasFlags]
        simp [TLObjectSpec.parseFunction]
      have hbranches := branches_sound_iff superType.typeVariables superType.variants
      constructor
      · rintro ⟨h, h'⟩ variant hvariant hproperties
        exact ⟨hbranches.1 h' variant hvariant hproperties,
          hfunctions.1 h variant hvariant hproperties⟩
      · intro h
        refine ⟨hfunctions.2 fun variant hvariant hproperties => (h variant hvariant hproperties).2,
          ?_⟩
        exact hbranches.2 fun variant hvariant hproperties => (h variant hvariant hproperties).1
  | container spec =>
      rw [Generated.Matches, ← function_sound_iff scheme _ spec.hasFlags]
      refine ⟨fun h => h.functions _ (List.mem_singleton_self _), fun h =>
        ⟨?_, by simp [Generated.branches]⟩⟩
      rintro f hf
      obtain rfl := List.mem_singleton.1 hf
      exact h
  | method spec =>
      rw [Generated.Matches, ← method_sound_iff]
      refine ⟨fun h => h.functions _ (List.mem_singleton_self _), fun h =>
        ⟨?_, by simp [Generated.branches]⟩⟩
      rintro f hf
      obtain rfl := List.mem_singleton.1 hf
      exact h

/-- The `parse` of a variant with a field of the type `Object` invokes a parser that nobody
declares. -/
theorem not_sound_superObject :
    ∃ collected, Parsers.parseSchemeFromFile .ascii ["a#1 x:Object = A;".toList] = .ok collected ∧
      ∀ meaning : Generated → String → Option ParserClass,
        ¬ ∀ g ∈ generatedFrom (fun _ => 1) collected,
        g.Sound .ascii (meaning g) (ofCollected (fun _ => 1) collected) := by
  refine ⟨⟨true, [],
    [⟨"a#1 x:Object = A;".toList, "A".toList, none, ⟨none, "A".toList, []⟩, "1".toList, false,
    [⟨"x:Object".toList, "x".toList, none, .superObject⟩], []⟩],
      []⟩, by decide +kernel, fun meaning h => ?_⟩
  have hclosed := ((h _ (List.mem_singleton_self _)).functions _ (List.mem_singleton_self _)).closed
  revert hclosed
  decide +kernel

end Mtproto.Generator
