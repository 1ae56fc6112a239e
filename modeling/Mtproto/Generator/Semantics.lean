import Mtproto.Generator.Poet

/-!
# What the emitted Kotlin does

Values of the generated classes, the two streams as a `Codec` of the primitives, and an interpreter
for the emitted statements.  A body runs in a `Context`: the streams, the `parse` functions it can
call, the parsers it got as parameters and the `serialize` of other values.  Calls between generated
functions and iterations of a `while` are bounded by fuel; `Failure.outOfFuel` stands for a
run that has not ended yet.
-/

namespace Mtproto.Generator

/-! ## Values -/

/-- A value of a primitive class; a `Double` is its raw bits, a `String` its UTF-16 code units. -/
inductive Prim where
  | boolean (value : Bool)
  | byte (value : BitVec 8)
  | int (value : BitVec 32)
  | long (value : BitVec 64)
  | double (bits : BitVec 64)
  | string (units : List UInt16)
  | byteArray (value : List UInt8)
  deriving DecidableEq, Repr

def Prim.clazz : Prim → PrimitiveClass
  | .boolean _ => .boolean
  | .byte _ => .byte
  | .int _ => .int
  | .long _ => .long
  | .double _ => .double
  | .string _ => .string
  | .byteArray _ => .byteArray

/-- An instance of a generated class carries the spec of its class. -/
inductive Value where
  | null
  | prim (value : Prim)
  | list (elements : List Value)
  | object (spec : TLObjectSpec) (fields : List Value)
  | container (spec : TLContainerSpec) (fields : List Value)
  deriving Repr

/-! ## Streams -/

/-- How a run can end without a result. -/
inductive Failure where
  /-- No variant has this constructor hash. -/
  | tlObjectParseException (constructorHash : BitVec 32)
  /-- `require` or the capacity of an `ArrayList`. -/
  | illegalArgument
  /-- A read past the end, where the stream reports it. -/
  | bufferUnderflow
  /-- A stream that refuses to be used. -/
  | closed
  /-- A name or a member that does not exist: the code does not compile. -/
  | unresolved
  | outOfFuel
  deriving DecidableEq, Repr

/-- `TLOutputStream` and `TLInputStream` on the bytes that have been written and that are left. -/
structure Codec where
  write : Prim → Except Failure (List UInt8)
  read : PrimitiveClass → List UInt8 → Except Failure (Prim × List UInt8)
  readBytes : ℕ → List UInt8 → Except Failure (List UInt8 × List UInt8)

/-- A function that reads a value from the input. -/
abbrev Parser := List UInt8 → Except Failure (Value × List UInt8)

/-- `bytes` is written for a primitive value and read back as that value, whatever follows. -/
def Codec.Form (codec : Codec) (p : Prim) (bytes : List UInt8) : Prop :=
  codec.write p = .ok bytes ∧ ∀ rest, codec.read p.clazz (bytes ++ rest) = .ok (p, rest)

/-- A primitive value is read back as it was written. -/
def Codec.RoundTrips (codec : Codec) (p : Prim) : Prop := ∃ bytes, codec.Form p bytes

/-! ## Running statements -/

/-- What a generated function can use. -/
structure Context where
  codec : Codec
  parse : ParserClass → List Parser → Parser
  parsers : List (String × Parser)
  serialize : Value → Except Failure (List UInt8)
  fuel : ℕ

/-- The locals, innermost first, what is left of the input and what has been written. -/
structure State where
  locals : List (String × Value)
  input : List UInt8
  output : List UInt8

abbrev Kotlin := StateT State (Except Failure)

def lookupLocal (name : String) : Kotlin Value := do
  match (← get).locals.lookup name with
  | some value => pure value
  | none => throw .unresolved

def declareLocal (name : String) (value : Value) : Kotlin Unit :=
  modify fun st => { st with locals := (name, value) :: st.locals }

/-- Overwrite the innermost local of this name. -/
def updateLocal (name : String) (value : Value) : List (String × Value) → List (String × Value)
  | [] => []
  | (n, v) :: locals =>
    if n = name then (n, value) :: locals else (n, v) :: updateLocal name value locals

def assignLocal (name : String) (value : Value) : Kotlin Unit :=
  modify fun st => { st with locals := updateLocal name value st.locals }

/-- Leave a block: what it declared is gone. -/
def inBlock (body : Kotlin Unit) : Kotlin Unit := do
  let outer := (← get).locals.length
  body
  modify fun st => { st with locals := st.locals.drop (st.locals.length - outer) }

def lookupInt (name : String) : Kotlin (BitVec 32) := do
  match ← lookupLocal name with
  | .prim (.int value) => pure value
  | _ => throw .unresolved

def lookupList (name : String) : Kotlin (List Value) := do
  match ← lookupLocal name with
  | .list elements => pure elements
  | _ => throw .unresolved

/-- Run a parser on the input. -/
def consume (parser : Parser) : Kotlin Value := fun st =>
  match parser st.input with
  | .ok (value, input) => .ok (value, { st with input := input })
  | .error failure => .error failure

/-- Append what a serializer produces to the output. -/
def emit (bytes : Except Failure (List UInt8)) : Kotlin Unit := fun st =>
  match bytes with
  | .ok bytes => .ok ((), { st with output := st.output ++ bytes })
  | .error failure => .error failure

def Codec.reader (codec : Codec) (clazz : PrimitiveClass) : Parser := fun input =>
  match codec.read clazz input with
  | .ok (value, input) => .ok (.prim value, input)
  | .error failure => .error failure

def Codec.bytesReader (codec : Codec) (limit : ℕ) : Parser := fun input =>
  match codec.readBytes limit input with
  | .ok (value, input) => .ok (.prim (.byteArray value), input)
  | .error failure => .error failure

/-- `(flags and flagPosition) != 0`. -/
def flagCheck (flagPosition : BitVec 32) : Kotlin Bool := do
  return (← lookupInt flagsPropertyName) &&& flagPosition ≠ 0

namespace Context

variable (ctx : Context)

def lookupParser (name : String) : Except Failure Parser :=
  match ctx.parsers.lookup name with
  | some parser => .ok parser
  | none => .error .unresolved

def argument : ParserArgument → Except Failure Parser
  | .parameter name => ctx.lookupParser name
  | .read clazz => .ok (ctx.codec.reader clazz)
  | .readBytes limit => .ok (ctx.codec.bytesReader limit)
  | .companion type => .ok (ctx.parse type [])

def eval : Expr → Kotlin Value
  | .name name => lookupLocal name
  | .size name => do
    match ← lookupLocal name with
    | .list elements => pure (.prim (.int (BitVec.ofNat 32 elements.length)))
    | .prim (.byteArray bytes) => pure (.prim (.int (BitVec.ofNat 32 bytes.length)))
    | _ => throw .unresolved
  | .read clazz => consume (ctx.codec.reader clazz)
  | .readBytes limit => consume (ctx.codec.bytesReader limit)
  | .parse type parsers => do
    let arguments ← (parsers.mapM ctx.argument : Except Failure (List Parser))
    consume (ctx.parse type arguments)
  | .invoke parser => do
    let parser ← ctx.lookupParser parser
    consume parser
  | .flagCheck flagPosition => do
    let isSet ← flagCheck flagPosition
    pure (.prim (.boolean isSet))

/-- Write a value through the method of a primitive class. -/
def write (clazz : PrimitiveClass) (value : Value) : Kotlin Unit :=
  match value with
  | .prim p => if p.clazz = clazz then emit (ctx.codec.write p) else throw .unresolved
  | _ => throw .unresolved

/-- `SerializationHelper.serialize`. -/
def serializeAny (value : Value) : Kotlin Unit :=
  match value with
  | .prim p => emit (ctx.codec.write p)
  | .object _ _ => emit (ctx.serialize value)
  | .container _ _ => emit (ctx.serialize value)
  | _ => throw .illegalArgument

end Context

/-- Does the condition of a flag hold? -/
def FlagCondition.eval : FlagCondition → Kotlin Bool
  | .holds name => do
    match ← lookupLocal name with
    | .prim (.boolean value) => pure value
    | _ => throw .unresolved
  | .notNull name => do
    match ← lookupLocal name with
    | .null => pure false
    | _ => pure true

/-- `while (condition) { body }`, at most `fuel` times. -/
def whileLoop (condition : Kotlin Bool) (body : Kotlin Unit) : ℕ → Kotlin Unit
  | 0 => throw .outOfFuel
  | fuel + 1 => do
    if ← condition then
      body
      whileLoop condition body fuel

/-- `name.size < size`. -/
def shorter (name size : String) : Kotlin Bool := do
  let elements ← lookupList name
  let size ← lookupInt size
  return (BitVec.ofNat 32 elements.length).slt size

/-- `forEach` over the elements of a list. -/
def forEachElement (action : Value → Kotlin Unit) : List Value → Kotlin Unit
  | [] => pure ()
  | element :: elements => do
    action element
    forEachElement action elements

mutual

def Stmt.exec (ctx : Context) : Stmt → Kotlin Unit
  | .declare name value => do
    let value ← ctx.eval value
    declareLocal name value
  | .declareNull name => declareLocal name .null
  | .assign name value => do
    let value ← ctx.eval value
    assignLocal name value
  | .ifFlag flagPosition body => do
    if ← flagCheck flagPosition then inBlock (execBlock ctx body)
  | .newArrayList name size => do
    let size ← lookupInt size
    if size.toInt < 0 then throw .illegalArgument
    declareLocal name (.list [])
  | .whileShorter name size body =>
    whileLoop (shorter name size) (inBlock (execBlock ctx body)) ctx.fuel
  | .add name element => do
    let elements ← lookupList name
    let value ← lookupLocal element
    assignLocal name (.list (elements ++ [value]))
  | .write clazz value => do
    let value ← ctx.eval value
    ctx.write clazz value
  | .serialize name => do
    let value ← lookupLocal name
    emit (ctx.serialize value)
  | .serializeAny name => do
    let value ← lookupLocal name
    ctx.serializeAny value
  | .ifNotNull name body => do
    if ← (FlagCondition.notNull name).eval then inBlock (execBlock ctx body)
  | .forEach name body => do
    let elements ← lookupList name
    forEachElement (fun value => inBlock do declareLocal itKeyword value; execBlock ctx body)
      elements
  | .requireSize name size => do
    match ← lookupLocal name with
    | .prim (.byteArray bytes) => if bytes.length ≠ size then throw .illegalArgument
    | _ => throw .unresolved
  | .declareFlags => declareLocal flagsPropertyName (.prim (.int 0))
  | .flagging condition flagPosition => do
    let present ← condition.eval
    let flags ← lookupInt flagsPropertyName
    assignLocal flagsPropertyName
      (.prim (.int (if present then flags ||| flagPosition else flags &&& ~~~flagPosition)))

def execBlock (ctx : Context) : List Stmt → Kotlin Unit
  | [] => pure ()
  | stmt :: stmts => do
    stmt.exec ctx
    execBlock ctx stmts

end

/-! ## Calling the generated functions -/

/-- The arguments of a constructor call: every field by the name of its local. -/
def constructorArguments (propertiesSpecs : List TLPropertySpec) : Kotlin (List Value) :=
  propertiesSpecs.mapM fun spec => lookupLocal spec.name

/-- Run the `parse` of a variant or a container up to its constructor call. -/
def Context.runParse (ctx : Context) (hasFlags : Bool) (propertiesSpecs : List TLPropertySpec)
    (input : List UInt8) : Except Failure (List Value × List UInt8) :=
  let body : Kotlin (List Value) := do
    execBlock ctx (addObjectParseFunction hasFlags propertiesSpecs)
    constructorArguments propertiesSpecs
  match body ⟨[], input, []⟩ with
  | .ok (fields, st) => .ok (fields, st.input)
  | .error failure => .error failure

/-- Take the branch of a constructor hash. -/
def Context.runBranch (ctx : Context) (branch : Branch) : Parser := fun input =>
  match branch with
  | .singleton variant => .ok (.object variant [], input)
  | .parse variant parsers => do
    let parameters ← parsers.mapM ctx.lookupParser
    let (fields, input) ← Context.runParse
      { ctx with
        parsers := (variant.genericVariables.map createTypeParserParameterName).zip parameters }
      variant.hasFlags variant.propertiesSpecs input
    .ok (.object variant fields, input)

/-- Run the `parse` of a super type: read the constructor hash and take its branch. -/
def Context.runBaseParse (ctx : Context) (variants : List TLObjectSpec) : Parser := fun input => do
  match ← ctx.codec.read .int input with
  | (.int constructorHash, input) =>
    match (addBaseObjectParseFunction variants).find?
        fun branch => branch.variant.constructorHash == constructorHash with
    | some branch => ctx.runBranch branch input
    | none => .error (.tlObjectParseException constructorHash)
  | _ => .error .unresolved

/-- `T.parse(inputStream, parsers)` with calls nested at most `fuel` deep. -/
def parse (scheme : Scheme) (codec : Codec) : ℕ → ParserClass → List Parser → Parser
  | 0, _, _, _ => .error .outOfFuel
  | fuel + 1, type, parsers, input =>
    let ctx : Context :=
      { codec := codec
        parse := parse scheme codec fuel
        parsers := []
        serialize := fun _ => .error .unresolved
        fuel := fuel }
    match type with
    | .object type =>
      match scheme.objects type with
      | none => .error .unresolved
      | some superType =>
        Context.runBaseParse
          { ctx with
            parsers := (superType.typeVariables.map createTypeParserParameterName).zip parsers }
          superType.variants input
    | .container type =>
      match scheme.containers type with
      | none => .error .unresolved
      | some spec => do
        let (fields, input) ← Context.runParse
          { ctx with
            parsers := (spec.genericVariables.map createTypeParserParameterName).zip parsers }
          spec.hasFlags spec.propertiesSpecs input
        .ok (.container spec fields, input)

/-- The properties of an instance, as the names in its `serialize` see them. -/
def fieldLocals (propertiesSpecs : List TLPropertySpec) (fields : List Value) :
    List (String × Value) :=
  (propertiesSpecs.map TLPropertySpec.name).zip fields

/-- Run a `serialize` body on the properties of an instance. -/
def Context.runSerialize (ctx : Context) (locals : List (String × Value)) (body : List Stmt) :
    Except Failure (List UInt8) :=
  match execBlock ctx body ⟨locals, [], []⟩ with
  | .ok (_, st) => .ok st.output
  | .error failure => .error failure

/-- `value.serialize(outputStream)` with calls nested at most `fuel` deep. -/
def serialize (codec : Codec) : ℕ → Value → Except Failure (List UInt8)
  | 0, _ => .error .outOfFuel
  | fuel + 1, value =>
    let ctx : Context :=
      { codec := codec
        parse := fun _ _ _ => .error .unresolved
        parsers := []
        serialize := serialize codec fuel
        fuel := fuel }
    match value with
    | .object spec fields =>
      ctx.runSerialize
        ((hashParameterName, .prim (.int spec.constructorHash)) ::
          fieldLocals spec.propertiesSpecs fields)
        (createObjectSerializeFunctionSpec spec.hasFlags spec.propertiesSpecs)
    | .container spec fields =>
      ctx.runSerialize (fieldLocals spec.propertiesSpecs fields)
        (createContainerSerializeFunctionSpec spec.hasFlags spec.propertiesSpecs)
    | _ => .error .unresolved

end Mtproto.Generator
