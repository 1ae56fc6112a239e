import Mtproto.Generator.Poet
import Mtproto.Lib.Scopes

/-!
# The names in a parse function

What the body of a generated `parse` function declares and refers to, in the order of its text
(`blockEvents`).  For the locals it is also said which of them a statement means: the code of the
field `i` means the local of this field, its size and the elements of its loops (`Shape.events`).
Without the tags these are the names in the emitted text (`eraseNames_functionEvents`).
-/

namespace Mtproto.Generator

open Scopes

/-! ## The names in the emitted code -/

/-- A name that is not declared in the body of a function. -/
inductive Outside where
  | inputStream
  | outputStream
  /-- A parser that is invoked or passed. -/
  | parser (name : String)
  | companion (type : ParserClass)
  deriving DecidableEq, Repr

def ParserArgument.outside : ParserArgument → List Outside
  | .parameter name => [.parser name]
  | .companion type => [.companion type]
  | _ => []

def Expr.outside : Expr → List Outside
  | .read _ => [.inputStream]
  | .readBytes _ => [.inputStream]
  | .parse type parsers => .companion type :: .inputStream :: parsers.flatMap ParserArgument.outside
  | .invoke parser => [.parser parser, .inputStream]
  | _ => []

/-- The locals that an expression refers to. -/
def Expr.locals : Expr → List String
  | .name x => [x]
  | .size x => [x]
  | .flagCheck _ => [flagsPropertyName]
  | _ => []

def Expr.events (e : Expr) : List (Event String Outside) :=
  e.locals.map .refer ++ e.outside.map .outside

def FlagCondition.property : FlagCondition → String
  | .holds name => name
  | .notNull name => name

mutual

/-- What a statement does to names: an initializer is evaluated before its local is there. -/
def Stmt.events : Stmt → List (Event String Outside)
  | .declare name value => value.events ++ [.declare name]
  | .declareNull name => [.declare name]
  | .assign name value => value.events ++ [.refer name]
  | .ifFlag _ body => [.refer flagsPropertyName, .enter] ++ (blockEvents body ++ [.leave])
  | .newArrayList name size => [.refer size, .declare name]
  | .whileShorter name size body => [.refer name, .refer size, .enter] ++
      (blockEvents body ++ [.leave])
  | .add name element => [.refer name, .refer element]
  | .write _ value => .outside .outputStream :: value.events
  | .serialize name => [.refer name, .outside .outputStream]
  | .serializeAny name => [.outside .outputStream, .refer name]
  | .ifNotNull name body => [.refer name, .enter] ++ (blockEvents body ++ [.leave])
  | .forEach name body => [.refer name, .enter, .declare itKeyword] ++
      (blockEvents body ++ [.leave])
  | .requireSize name _ => [.refer name]
  | .declareFlags => [.declare flagsPropertyName]
  | .flagging condition _ => [.refer condition.property, .refer flagsPropertyName]

def blockEvents : List Stmt → List (Event String Outside)
  | [] => []
  | s :: block => s.events ++ blockEvents block

end

theorem blockEvents_append (block block' : List Stmt) :
    blockEvents (block ++ block') = blockEvents block ++ blockEvents block' := by
  induction block with
  | nil => rfl
  | cons s block ih => rw [List.cons_append, blockEvents, blockEvents, ih, List.append_assoc]

/-! ## The code of a type -/

/-- How a value of a type is parsed. -/
inductive Shape where
  /-- By one expression. -/
  | value (parseStatement : Expr)
  /-- By a test of the flags word. -/
  | flag
  /-- There is no code. -/
  | nothing
  /-- By a loop. -/
  | list (element : Shape)

def TLTypeSpec.shape : TLTypeSpec → Shape
  | .object type generics =>
      .value (.parse (.object type) (generics.filterMap createTypeParserAsParameter))
  | .container type _ => .value (.parse (.container type) [])
  | .genericParameter type => type.shape
  | .genericVariable name _ => .value (.invoke (createTypeParserParameterName name))
  | .primitive clazz => .value (.read clazz)
  | .bytes (some fixedSize) => .value (.readBytes fixedSize)
  | .bytes none => .value (.read .byteArray)
  | .collection elementGeneric => .list elementGeneric.shape
  | .superContainer => .value (.invoke (createTypeParserParameterName "SuperObject"))
  | .superObject => .value (.invoke (createTypeParserParameterName "SuperObject"))
  | .flag => .flag
  | .any => .nothing

/-! ## The locals that the code means -/

/-- What a local is for; the elements of nested loops are told apart by their depth. -/
inductive Role where
  | flags
  | field (i : ℕ)
  | size (i depth : ℕ)
  | element (i depth : ℕ)
  deriving DecidableEq, Repr

structure Local where
  role : Role
  name : String
  deriving DecidableEq, Repr

def flagsLocal : Local := ⟨.flags, flagsPropertyName⟩

/-- The local for the size of a collection. -/
def sizeLocal (i depth : ℕ) (self : Local) : Local := ⟨.size i depth, sizeFieldName self.name⟩

/-- The local for an element in a loop. -/
def elementLocal (i depth : ℕ) : Local := ⟨.element i depth, arrayElementName⟩

def TLPropertySpec.field (i : ℕ) (p : TLPropertySpec) : Local := ⟨.field i, p.name⟩

namespace Shape

/-- The code that parses the field `i`, or an element of it, into the local `self`. -/
def events (i : ℕ) : ℕ → Local → Option ℤ → Shape → List (Event Local Outside)
  | _, self, some _, value parseStatement =>
      [.declare self, .refer flagsLocal, .enter] ++
        (parseStatement.outside.map .outside ++ [.refer self, .leave])
  | _, self, none, value parseStatement => parseStatement.outside.map .outside ++ [.declare self]
  | _, self, some _, flag => [.refer flagsLocal, .declare self]
  | _, _, none, flag => []
  | _, _, _, nothing => []
  | depth, self, _, list element =>
      [.outside .inputStream, .declare (sizeLocal i depth self), .refer (sizeLocal i depth self),
        .declare self, .refer self, .refer (sizeLocal i depth self), .enter] ++
      (events i (depth + 1) (elementLocal i (depth + 1)) none element ++
        [.refer self, .refer (elementLocal i (depth + 1)), .leave])

/-- The locals that stay when the code is done, the last one first. -/
def locals (i depth : ℕ) (self : Local) (index : Option ℤ) : Shape → List Local
  | value _ => [self]
  | flag => if index.isSome then [self] else []
  | nothing => []
  | list _ => [self, sizeLocal i depth self]

end Shape

/-- The code of a property. -/
def TLPropertySpec.events (i : ℕ) (p : TLPropertySpec) : List (Event Local Outside) :=
  p.typeSpec.shape.events i 0 (p.field i) p.flag

/-- The code of the properties from the `i`-th on. -/
def propertiesEvents : ℕ → List TLPropertySpec → List (Event Local Outside)
  | _, [] => []
  | i, p :: ps => p.events i ++ propertiesEvents (i + 1) ps

/-- The arguments of the constructor call at the end. -/
def returnEvents : ℕ → List TLPropertySpec → List (Event Local Outside)
  | _, [] => []
  | i, p :: ps => .refer (p.field i) :: returnEvents (i + 1) ps

def flagsEvents (hasFlags : Bool) : List (Event Local Outside) :=
  if hasFlags then [.outside .inputStream, .declare flagsLocal] else []

/-- The names in the `parse` of a variant or a container. -/
def functionEvents (hasFlags : Bool) (propertiesSpecs : List TLPropertySpec) :
    List (Event Local Outside) :=
  flagsEvents hasFlags ++ (propertiesEvents 0 propertiesSpecs ++ returnEvents 0 propertiesSpecs)

/-! ## The tags stand for the names in the text -/

/-- Forget which local is meant. -/
def eraseNames (events : List (Event Local Outside)) : List (Event String Outside) :=
  events.map (Event.map Local.name)

theorem eraseNames_append (events events' : List (Event Local Outside)) :
    eraseNames (events ++ events') = eraseNames events ++ eraseNames events' := List.map_append

theorem eraseNames_outside (names : List Outside) :
    eraseNames (names.map .outside) = names.map .outside := by
  rw [eraseNames, List.map_map]
  rfl

theorem eraseNames_value (i depth : ℕ) (self : Local) (index : Option ℤ) {e : Expr}
    (h : e.locals = []) :
    eraseNames ((Shape.value e).events i depth self index) =
      blockEvents (addParsedPropertyStatement self.name e index) := by
  have hevents : e.events = e.outside.map .outside := by rw [Expr.events, h]; rfl
  cases index with
  | none =>
      rw [Shape.events, eraseNames_append, eraseNames_outside, addParsedPropertyStatement,
        blockEvents, Stmt.events, hevents, blockEvents, List.append_nil]
      rfl
  | some index =>
      rw [Shape.events, eraseNames_append, eraseNames_append, eraseNames_outside,
        addParsedPropertyStatement]
      simp only [blockEvents, Stmt.events, hevents, List.append_nil, List.append_assoc]
      rfl

theorem eraseNames_shape (i depth : ℕ) (self : Local) (type : TLTypeSpec) (index : Option ℤ) :
    eraseNames (type.shape.events i depth self index) =
      blockEvents (addPropertyParseStatement self.name type index) := by
  induction type using TLTypeSpec.shape.induct generalizing depth self index with
  | case1 type generics => exact eraseNames_value i depth self index rfl
  | case2 type generics => exact eraseNames_value i depth self index rfl
  | case3 type ih => exact ih depth self index
  | case4 name superType => exact eraseNames_value i depth self index rfl
  | case5 clazz => exact eraseNames_value i depth self index rfl
  | case6 fixedSize => exact eraseNames_value i depth self index rfl
  | case7 => exact eraseNames_value i depth self index rfl
  | case8 element ih =>
      have helement := ih (depth + 1) (elementLocal i (depth + 1)) none
      rw [TLTypeSpec.shape, Shape.events, eraseNames_append, eraseNames_append, helement,
        addPropertyParseStatement, addCollectionParseStatement, blockEvents_append]
      simp only [blockEvents, Stmt.events, blockEvents_append, List.append_nil, List.append_assoc]
      rfl
  | case9 => exact eraseNames_value i depth self index rfl
  | case10 => exact eraseNames_value i depth self index rfl
  | case11 => cases index <;> rfl
  | case12 => cases index <;> rfl

theorem eraseNames_propertiesEvents (i : ℕ) (ps : List TLPropertySpec) :
    eraseNames (propertiesEvents i ps) =
      blockEvents (ps.flatMap fun p => addPropertyParseStatement p.name p.typeSpec p.flag) := by
  induction ps generalizing i with
  | nil => rfl
  | cons p ps ih =>
      have hp := eraseNames_shape i 0 (p.field i) p.typeSpec p.flag
      rw [propertiesEvents, eraseNames_append, ih, List.flatMap_cons, blockEvents_append]
      exact congrArg (· ++ _) hp

theorem eraseNames_returnEvents (i : ℕ) (ps : List TLPropertySpec) :
    eraseNames (returnEvents i ps) = ps.map fun p => .refer p.name := by
  induction ps generalizing i with
  | nil => rfl
  | cons p ps ih => exact congrArg (List.cons _) (ih (i + 1))

theorem eraseNames_body (hasFlags : Bool) (ps : List TLPropertySpec) :
    eraseNames (flagsEvents hasFlags ++ propertiesEvents 0 ps) =
      blockEvents (addObjectParseFunction hasFlags ps) := by
  have hflags : eraseNames (flagsEvents hasFlags) =
      blockEvents (if hasFlags then addLocalPropertyParseStatement flagsPropertyName .int none else
        []) := by
    cases hasFlags <;> rfl
  rw [eraseNames_append, hflags, eraseNames_propertiesEvents, addObjectParseFunction,
    blockEvents_append]

/-- The tagged names are those of the emitted statements and of the constructor call behind them. -/
theorem eraseNames_functionEvents (hasFlags : Bool) (ps : List TLPropertySpec) :
    eraseNames (functionEvents hasFlags ps) =
      blockEvents (addObjectParseFunction hasFlags ps) ++ ps.map fun p => .refer p.name := by
  rw [functionEvents, ← List.append_assoc, eraseNames_append, eraseNames_body,
    eraseNames_returnEvents]

/-! ## Where the code leads -/

/-- The locals that stay when the code of a property is done. -/
def TLPropertySpec.locals (i : ℕ) (p : TLPropertySpec) : List Local :=
  p.typeSpec.shape.locals i 0 (p.field i) p.flag

/-- Their names. -/
def TLPropertySpec.declaredNames (p : TLPropertySpec) : List String := (p.locals 0).map Local.name

/-- The locals of the function itself. -/
def functionNames (hasFlags : Bool) (propertiesSpecs : List TLPropertySpec) : List String :=
  (if hasFlags then [flagsPropertyName] else []) ++
    propertiesSpecs.flatMap TLPropertySpec.declaredNames

theorem map_name_locals (i : ℕ) (p : TLPropertySpec) :
    (p.locals i).map Local.name = p.declaredNames := by
  unfold TLPropertySpec.declaredNames TLPropertySpec.locals
  cases p.typeSpec.shape <;> cases p.flag <;> simp [Shape.locals, sizeLocal, TLPropertySpec.field]

theorem after_shape (i depth : ℕ) (self : Local) (index : Option ℤ) (shape : Shape)
    (scope : List Local)
    (outer : List (List Local)) :
    after (scope :: outer) (shape.events i depth self index) =
      (shape.locals i depth self index ++ scope) :: outer := by
  induction shape generalizing depth self index scope outer with
  | value e => cases index <;> simp [Shape.events, Shape.locals, after_append, Event.next]
  | flag => cases index <;> simp [Shape.events, Shape.locals, Event.next]
  | nothing => cases index <;> simp [Shape.events, Shape.locals]
  | list element ih =>
      cases index <;> simp [Shape.events, Shape.locals, after_append, Event.next, ih]

theorem after_property (i : ℕ) (p : TLPropertySpec) (scope : List Local) :
    after [scope] (p.events i) = [p.locals i ++ scope] := after_shape ..

section All

variable {P : List (List Local) → Event Local Outside → Prop} {i depth : ℕ} {self : Local}
  {scope : List Local}
  {outer : List (List Local)}

theorem all_value_none {e : Expr} :
    All P (scope :: outer) ((Shape.value e).events i depth self none) ↔
      (∀ name ∈ e.outside, P (scope :: outer) (.outside name)) ∧
        P (scope :: outer) (.declare self) := by
  rw [Shape.events, all_append, all_outside, after_outside, all_cons, all_nil, and_true]

theorem all_value_some {e : Expr} {index : ℤ} :
    All P (scope :: outer) ((Shape.value e).events i depth self (some index)) ↔
      P (scope :: outer) (.declare self) ∧ P ((self :: scope) :: outer) (.refer flagsLocal) ∧
      P ((self :: scope) :: outer) .enter ∧
      (∀ name ∈ e.outside, P ([] :: (self :: scope) :: outer) (.outside name)) ∧
      P ([] :: (self :: scope) :: outer) (.refer self) ∧
        P ([] :: (self :: scope) :: outer) .leave := by
  rw [Shape.events, all_append, all_append, all_outside]
  simp [Event.next, and_assoc]

theorem all_flag_some {index : ℤ} :
    All P (scope :: outer) (Shape.flag.events i depth self (some index)) ↔
      P (scope :: outer) (.refer flagsLocal) ∧ P (scope :: outer) (.declare self) := by
  rw [Shape.events, all_cons, all_cons, all_nil, and_true]
  rfl

/-- The code of a list: `body` are the scopes inside its loop. -/
theorem all_list {element : Shape} {index : Option ℤ} (size : Local)
    (hsize : size = sizeLocal i depth self)
    (body : List (List Local)) (hbody : body = (self :: size :: scope) :: outer)
    (inner : List Local)
    (hinner : inner = element.locals i (depth + 1) (elementLocal i (depth + 1)) none) :
    All P (scope :: outer) ((Shape.list element).events i depth self index) ↔
      (P (scope :: outer) (.outside .inputStream) ∧ P (scope :: outer) (.declare size) ∧
        P ((size :: scope) :: outer) (.refer size) ∧ P ((size :: scope) :: outer) (.declare self)) ∧
      (P body (.refer self) ∧ P body (.refer size) ∧ P body .enter) ∧
      All P ([] :: body) (element.events i (depth + 1) (elementLocal i (depth + 1)) none) ∧
      P (inner :: body) (.refer self) ∧ P (inner :: body) (.refer (elementLocal i (depth + 1))) ∧
        P (inner :: body) .leave := by
  subst hsize hbody hinner
  rw [Shape.events, all_append, all_append]
  simp [Event.next, and_assoc, after_shape]

end All

end Mtproto.Generator
