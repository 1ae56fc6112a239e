import Mtproto.Generator.FlagsCorrect

/-!
# Optional fields

Does the `parse` code of a flagged property read from the stream just when its `serialize` code
wrote to it?  A dry run answers this for one property: every read returns a default and takes one
byte, every write appends one byte, and every parser that the code names is passed.  The flags word
is the one that `serialize` computes for the whole instance.

A collection is read whatever its flag says.  For the other types the answer depends on the
test of the flags word, and so on the last field that writes the bit of the index.
-/

namespace Mtproto.Generator

/-! ## Dry runs -/

def defaultPrim : PrimitiveClass → Prim
  | .boolean => .boolean false
  | .byte => .byte 0
  | .int => .int 0
  | .long => .long 0
  | .double => .double 0
  | .string => .string []
  | .byteArray => .byteArray []

/-- A parser that takes one byte. -/
def dryParser : Parser := fun input => .ok (.list [], input.tail)

/-- Streams and functions that always work, with the parsers of these names. -/
def dryContext (names : List String) : Context where
  codec :=
    { write := fun _ => .ok [0]
      read := fun clazz input => .ok (defaultPrim clazz, input.tail)
      readBytes := fun limit input => .ok (List.replicate limit 0, input.tail) }
  parse _ _ := dryParser
  parsers := names.map fun name => (name, dryParser)
  serialize _ := .ok [0]
  fuel := 1

def ParserArgument.parameterName : ParserArgument → Option String
  | .parameter name => some name
  | _ => none

/-- The parsers that a function with a property of this type gets as parameters. -/
def TLTypeSpec.parserNames : TLTypeSpec → List String
  | .object _ generics =>
    (generics.filterMap createTypeParserAsParameter).filterMap ParserArgument.parameterName
  | .genericVariable name _ => [createTypeParserParameterName name]
  | .superContainer => [createTypeParserParameterName "SuperObject"]
  | .superObject => [createTypeParserParameterName "SuperObject"]
  | .genericParameter type => type.parserNames
  | .collection element => element.parserNames
  | _ => []

/-- Run the parse statements of a property: what is parsed, and was the stream read? -/
def dryParse (flags : BitVec 32) (spec : TLPropertySpec) : Except Failure (Value × Bool) :=
  let body : Kotlin Value := do
    execBlock (dryContext spec.typeSpec.parserNames)
      (addPropertyParseStatement spec.name spec.typeSpec spec.flag)
    lookupLocal spec.name
  match body ⟨[(flagsPropertyName, .prim (.int flags))], [0], []⟩ with
  | .ok (value, st) => .ok (value, st.input.isEmpty)
  | .error failure => .error failure

/-- Run the serialize statements of a property: was the stream written? -/
def drySerialize (spec : TLPropertySpec) (value : Value) : Except Failure Bool :=
  match execBlock (dryContext []) (addPropertySerializeStatement spec.name spec.typeSpec spec.flag)
      ⟨[(spec.name, value)], [], []⟩ with
  | .ok (_, st) => .ok (!st.output.isEmpty)
  | .error failure => .error failure

/-- The parse code of a field uses the stream just when its serialize code did, and finds null
just when it was null. -/
def OptionalConsistent (specs : List TLPropertySpec) (values : List Value) (field : Field) : Prop :=
  ∃ flags parsed used,
    (leafContext (Java.codec fun _ => []) 0).runSerialize (fieldLocals specs values)
        (addFlaggingSerializationLogic specs) = .ok (Java.writeInt flags) ∧
      dryParse flags field.1 = .ok (parsed, used) ∧ drySerialize field.1 field.2 = .ok used ∧
      (parsed = .null ↔ field.2 = .null)

/-! ## How a type treats its flag -/

/-- How the parse code of a type treats the flag of a property. -/
inductive ReadMode where
  /-- A true-flag is only tested. -/
  | never
  /-- Read if the test succeeds. -/
  | tested
  /-- Read whatever the flag says. -/
  | always
  /-- There is no code. -/
  | missing
  deriving DecidableEq, Repr

def TLTypeSpec.readMode : TLTypeSpec → ReadMode
  | .flag => .never
  | .any => .missing
  | .collection _ => .always
  | .genericParameter type => type.readMode
  | _ => .tested

/-- The values that the serialize code of a type can handle. -/
def HasShape : TLTypeSpec → Value → Prop
  | .flag, .prim (.boolean _) => True
  | .primitive clazz, .prim p => p.clazz = clazz
  | .bytes fixedSize, value => Accepts (.bytes fixedSize) value
  | .collection element, .list elements => ∀ value ∈ elements, HasShape element value
  | .any, .prim _ => True
  | .any, .object _ _ => True
  | .any, .container _ _ => True
  | .superObject, .object _ _ => True
  | .superContainer, .container _ _ => True
  | .object _ _, .object _ _ => True
  | .container _ _, .container _ _ => True
  | .genericParameter type, value => HasShape type value
  | .genericVariable _ superType, value => HasShape superType value
  | _, _ => False

/-- A flagged field can be null unless it is a true-flag. -/
def HasOptionalShape (field : Field) : Prop :=
  HasShape field.1.typeSpec field.2 ∨
    (field.1.flag.isSome ∧ field.1.typeSpec.readMode ≠ .never ∧ field.2 = .null)

/-- Does the test of an index succeed on the flags word of an instance? -/
def TestSucceeds (index : ℤ) (fields : List Field) : Prop :=
  if index < 0 then False
  else if index ≤ 30 then lastPresent index fields = true
  else ∃ b : ℕ, b ≤ 30 ∧ lastPresent b fields = true

/-- When both generators treat a flagged field alike. -/
def OptionalAgrees (fields : List Field) (field : Field) (index : ℤ) : Prop :=
  match field.1.typeSpec.readMode with
  | .never => True
  | .tested =>
    (field.2 ≠ .null → field.1.typeSpec.isWritten = true) ∧
      (field.2 ≠ .null ↔ TestSucceeds index fields)
  | .always => field.2 ≠ .null
  | .missing => False

/-! ## Serializing -/

section Dry

variable {names : List String} {name : String} {type : TLTypeSpec} {value : Value} {st : State}

theorem exec_serialize_dry (lookup : st.locals.lookup name = some value) :
    execBlock (dryContext names) [.serialize name] st =
      .ok ((), { st with output := st.output ++ [0] }) := by
  refine execBlock_singleton ?_
  rw [Stmt.exec, bind_ok (lookupLocal_eq lookup)]
  rfl

theorem exec_serializeAny_dry (shape : HasShape .any value)
    (lookup : st.locals.lookup name = some value) :
    execBlock (dryContext names) [.serializeAny name] st =
      .ok ((), { st with output := st.output ++ [0] }) := by
  refine execBlock_singleton ?_
  rw [Stmt.exec, bind_ok (lookupLocal_eq lookup)]
  cases value with
  | null | list elements => exact shape.elim
  | prim p | object spec fields | container spec fields => rfl

theorem exec_bytes_dry {fixedSize : Option ℕ} (shape : HasShape (.bytes fixedSize) value)
    (lookup : st.locals.lookup name = some value) :
    execBlock (dryContext names) (addBytesSerializeStatement name fixedSize none) st =
      .ok ((), { st with output := st.output ++ [0] }) := by
  rw [HasShape] at shape
  obtain ⟨v, rfl⟩ := byteArray_of_accepts shape
  have hwrite : execBlock (dryContext names) [.write .byteArray (.name name)] st =
      .ok ((), { st with output := st.output ++ [0] }) :=
    exec_write (p := .byteArray v) lookup rfl
  cases fixedSize with
  | none => exact hwrite
  | some n =>
    obtain rfl : v.length = n := shape
    exact (execBlock_cons (exec_requireSize lookup)).trans hwrite

/-- The serialize statements of a value that they can handle write, unless it is a true-flag. -/
theorem exec_drySerialize {flag : Option ℤ} (unflagged : flag = none) (shape : HasShape type value)
    (lookup : st.locals.lookup name = some value) :
    ∃ bytes, execBlock (dryContext names) (addPropertySerializeStatement name type flag) st =
        .ok ((), { st with output := st.output ++ bytes }) ∧
      bytes.isEmpty = !type.isWritten := by
  subst unflagged
  generalize hflag : (none : Option ℤ) = flag
  induction name, type, flag using addPropertySerializeStatement.induct generalizing value st with
  | case1 name flag type generics =>
    subst hflag
    exact ⟨[0], exec_serialize_dry lookup, rfl⟩
  | case2 name flag =>
    subst hflag
    exact ⟨[0], exec_serialize_dry lookup, rfl⟩
  | case3 name flag =>
    subst hflag
    exact ⟨[0], exec_serialize_dry lookup, rfl⟩
  | case4 name flag type generics =>
    subst hflag
    exact ⟨[0], exec_serialize_dry lookup, rfl⟩
  | case5 name flag type ih =>
    rw [HasShape] at shape
    rw [addPropertySerializeStatement]
    exact ih shape lookup hflag
  | case6 name flag variableName superType ih =>
    rw [HasShape] at shape
    rw [addPropertySerializeStatement]
    exact ih shape lookup hflag
  | case7 name flag clazz =>
    subst hflag
    cases value with
    | prim p =>
      obtain rfl : p.clazz = clazz := shape
      exact ⟨[0], exec_write lookup rfl, rfl⟩
    | null | list elements | object spec fields | container spec fields => exact shape.elim
  | case8 name flag element ih =>
    subst hflag
    cases value with
    | list elements =>
      have heach : ∀ value ∈ elements, ∀ st : State, st.locals.lookup itKeyword = some value →
          ∃ bytes, execBlock (dryContext names)
              (addPropertySerializeStatement itKeyword element none)
              st = .ok ((), { st with output := st.output ++ bytes }) ∧
            bytes.isEmpty = !element.isWritten :=
        fun value hvalue st hit => ih (shape value hvalue) hit rfl
      have hsize : (dryContext names).codec.write (.int (BitVec.ofNat 32 elements.length)) =
          .ok [0] :=
        rfl
      obtain ⟨tail, hexec, -⟩ := exec_serialize_elements lookup hsize heach
      exact ⟨[0] ++ tail, hexec, rfl⟩
    | null | prim p | object spec fields | container spec fields => exact shape.elim
  | case9 name flag fixedSize =>
    subst hflag
    exact ⟨[0], exec_bytes_dry shape lookup, rfl⟩
  | case10 name flag =>
    refine ⟨[], ?_, rfl⟩
    rw [List.append_nil]
    exact execBlock_nil _
  | case11 name flag =>
    subst hflag
    exact ⟨[0], exec_serializeAny_dry shape lookup, rfl⟩

/-- A flagged field is written if it is present and its type is written at all. -/
theorem drySerialize_eq {field : Field} {index : ℤ} (flag : field.1.flag = some index)
    (shape : HasOptionalShape field) :
    ∃ written, drySerialize field.1 field.2 = .ok written ∧
      (written = true ↔ field.1.typeSpec.isWritten = true ∧ field.2 ≠ .null) := by
  obtain ⟨⟨name, flag', type⟩, value⟩ := field
  obtain rfl : flag' = some index := flag
  have hlookup : List.lookup name [(name, value)] = some value := lookup_cons_self _
  rw [drySerialize, addPropertySerializeStatement_some]
  cases hwritten : type.isWritten with
  | false =>
    refine ⟨false, ?_, by simp⟩
    simp
  | true =>
    simp only [if_true, true_and]
    obtain ⟨isPresent, hcondition, hpresent⟩ : ∃ isPresent,
        (FlagCondition.notNull name).eval ⟨[(name, value)], [], []⟩ =
          .ok (isPresent, ⟨[(name, value)], [], []⟩) ∧ (isPresent = true ↔ value ≠ .null) :=
      eval_notNull hlookup
    refine ⟨isPresent, ?_, hpresent⟩
    cases isPresent with
    | false =>
      have hskip : execBlock (dryContext [])
          [.ifNotNull name (addPropertySerializeStatement name type none)]
          ⟨[(name, value)], [], []⟩ = .ok ((), ⟨[(name, value)], [], []⟩) := by
        refine execBlock_singleton ?_
        rw [Stmt.exec, bind_ok hcondition]
        rfl
      rw [hskip]
      rfl
    | true =>
      have hshape : HasShape type value := shape.resolve_right fun h => hpresent.1 rfl h.2.2
      obtain ⟨bytes, hexec, hempty⟩ : ∃ bytes,
          execBlock (dryContext []) (addPropertySerializeStatement name type none)
            ⟨[(name, value)], [], []⟩ = .ok ((), ⟨[(name, value)], [], [] ++ bytes⟩) ∧
          bytes.isEmpty = !type.isWritten :=
        exec_drySerialize rfl hshape hlookup
      have hrun : execBlock (dryContext [])
          [.ifNotNull name (addPropertySerializeStatement name type none)]
          ⟨[(name, value)], [], []⟩ = .ok ((), ⟨[(name, value)], [], [] ++ bytes⟩) := by
        refine execBlock_singleton ?_
        rw [Stmt.exec, bind_ok hcondition, if_pos rfl]
        exact inBlock_eq [] [(name, value)] hexec rfl rfl
      rw [hrun, List.nil_append]
      simp [hempty, hwritten]

/-! ## Parsing -/

theorem lookupParser_dry (h : name ∈ names) :
    (dryContext names).lookupParser name = .ok dryParser := by
  have hlookup : (names.map fun name => (name, dryParser)).lookup name = some dryParser := by
    induction names with
    | nil => exact absurd h List.not_mem_nil
    | cons other names ih =>
      by_cases hname : name = other
      · simp [hname]
      · have hmem := (List.mem_cons.1 h).resolve_left hname
        have hne : (name == other) = false := by simpa using hname
        simpa [List.lookup_cons, hne] using ih hmem
  rw [Context.lookupParser, dryContext]
  simp only [hlookup]

/-- Every parser that an argument list names is passed. -/
theorem mapM_argument_dry {arguments : List ParserArgument}
    (h : ∀ argument ∈ arguments, ∀ n ∈ argument.parameterName, n ∈ names) :
    ∃ parsers, arguments.mapM (dryContext names).argument = .ok parsers := by
  induction arguments with
  | nil => exact ⟨[], rfl⟩
  | cons argument arguments ih =>
    obtain ⟨parser, hparser⟩ : ∃ parser, (dryContext names).argument argument = .ok parser := by
      cases argument with
      | parameter n => exact ⟨_, lookupParser_dry (h _ (List.mem_cons_self ..) n rfl)⟩
      | read clazz | readBytes limit | companion type => exact ⟨_, rfl⟩
    obtain ⟨parsers, hparsers⟩ := ih fun a ha => h a (List.mem_cons_of_mem _ ha)
    refine ⟨parser :: parsers, ?_⟩
    rw [List.mapM_cons, hparser, hparsers]
    rfl

theorem eval_parse_dry {type : ParserClass} {arguments : List ParserArgument}
    (h : ∀ argument ∈ arguments, ∀ n ∈ argument.parameterName, n ∈ names) :
    (dryContext names).eval (.parse type arguments) st =
      .ok (.list [], { st with input := st.input.tail }) := by
  obtain ⟨parsers, hparsers⟩ := mapM_argument_dry h
  rw [Context.eval, hparsers]
  rfl

theorem eval_invoke_dry (h : name ∈ names) :
    (dryContext names).eval (.invoke name) st =
      .ok (.list [], { st with input := st.input.tail }) := by
  rw [Context.eval, lookupParser_dry h]
  rfl

/-- A type whose flag is tested is read by one expression. -/
theorem exists_expr_of_tested (mode : type.readMode = .tested) (name : String) (index : ℤ) :
    ∃ e value, value ≠ Value.null ∧
      addPropertyParseStatement name type (some index) =
        addParsedPropertyStatement name e (some index) ∧
      ∀ st : State, (dryContext type.parserNames).eval e st =
        .ok (value, { st with input := st.input.tail }) := by
  induction type using TLTypeSpec.readMode.induct with
  | case1 => cases mode
  | case2 => cases mode
  | case3 element => cases mode
  | case4 type ih =>
    rw [addPropertyParseStatement]
    exact ih mode
  | case5 type hflag hany hcollection hparameter =>
    cases type with
    | flag => exact absurd rfl hflag
    | any => exact absurd rfl hany
    | collection element => exact absurd rfl (hcollection element)
    | genericParameter type => exact absurd rfl (hparameter type)
    | primitive clazz =>
      exact ⟨.read clazz, .prim (defaultPrim clazz), by simp, rfl, fun st => rfl⟩
    | superObject =>
      exact ⟨_, .list [], by simp, rfl, fun st => eval_invoke_dry (List.mem_singleton_self _)⟩
    | superContainer =>
      exact ⟨_, .list [], by simp, rfl, fun st => eval_invoke_dry (List.mem_singleton_self _)⟩
    | genericVariable variableName superType =>
      exact ⟨_, .list [], by simp, rfl, fun st => eval_invoke_dry (List.mem_singleton_self _)⟩
    | object type generics =>
      refine ⟨_, .list [], by simp, rfl, fun st => eval_parse_dry fun argument harg n hn => ?_⟩
      exact List.mem_filterMap.2 ⟨argument, harg, hn⟩
    | container type generics =>
      exact ⟨_, .list [], by simp, rfl, fun st => eval_parse_dry (by simp)⟩
    | bytes fixedSize =>
      cases fixedSize with
      | none => exact ⟨_, .prim (.byteArray []), by simp, rfl, fun st => rfl⟩
      | some n => exact ⟨_, .prim (.byteArray (List.replicate n 0)), by simp, rfl, fun st => rfl⟩

/-- A field whose flag is tested is read if the test succeeds, and null otherwise. -/
theorem dryParse_of_tested {spec : TLPropertySpec} {flags : BitVec 32} {index : ℤ}
    (mode : spec.typeSpec.readMode = .tested) (flag : spec.flag = some index)
    (other : flagsPropertyName ≠ spec.name) :
    ∃ parsed, dryParse flags spec = .ok (parsed, flagSet flags index) ∧
      (parsed = .null ↔ flagSet flags index = false) := by
  obtain ⟨e, value, hvalue, hemitted, heval⟩ := exists_expr_of_tested mode spec.name index
  have hlookup : List.lookup flagsPropertyName
      [(spec.name, Value.null), (flagsPropertyName, .prim (.int flags))] =
        some (.prim (.int flags)) := by
    rw [lookup_cons_of_ne _ other, lookup_cons_self]
  rw [dryParse, flag, hemitted, addParsedPropertyStatement]
  have hdeclare : Stmt.exec (dryContext spec.typeSpec.parserNames) (.declareNull spec.name)
      ⟨[(flagsPropertyName, .prim (.int flags))], [0], []⟩ =
      .ok ((), ⟨[(spec.name, .null), (flagsPropertyName, .prim (.int flags))], [0], []⟩) := rfl
  have hlocal (value : Value) (input : List UInt8) :
      lookupLocal spec.name
          ⟨[(spec.name, value), (flagsPropertyName, .prim (.int flags))], input, []⟩ =
        .ok (value, ⟨[(spec.name, value), (flagsPropertyName, .prim (.int flags))], input, []⟩) :=
    lookupLocal_eq (lookup_cons_self _)
  cases hset : flagSet flags index with
  | false =>
    have hskip : execBlock (dryContext spec.typeSpec.parserNames)
        [.ifFlag (flagPosition index) [.assign spec.name e]]
        ⟨[(spec.name, .null), (flagsPropertyName, .prim (.int flags))], [0], []⟩ =
        .ok ((), ⟨[(spec.name, .null), (flagsPropertyName, .prim (.int flags))], [0], []⟩) := by
      refine execBlock_singleton ?_
      rw [Stmt.exec, bind_ok (flagCheck_eq index hlookup), hset]
      rfl
    refine ⟨.null, ?_, by simp⟩
    simp only [bind_ok ((execBlock_cons hdeclare).trans hskip), hlocal]
    rfl
  | true =>
    have hassign : Stmt.exec (dryContext spec.typeSpec.parserNames) (.assign spec.name e)
        ⟨[(spec.name, .null), (flagsPropertyName, .prim (.int flags))], [0], []⟩ =
        .ok ((), ⟨[(spec.name, value), (flagsPropertyName, .prim (.int flags))], [], []⟩) := by
      rw [Stmt.exec, bind_ok (heval _)]
      exact assignLocal_head ..
    have hrun : execBlock (dryContext spec.typeSpec.parserNames)
        [.ifFlag (flagPosition index) [.assign spec.name e]]
        ⟨[(spec.name, .null), (flagsPropertyName, .prim (.int flags))], [0], []⟩ =
        .ok ((), ⟨[(spec.name, value), (flagsPropertyName, .prim (.int flags))], [], []⟩) := by
      refine execBlock_singleton ?_
      rw [Stmt.exec, bind_ok (flagCheck_eq index hlookup), if_pos hset]
      exact inBlock_eq [] _ (execBlock_singleton hassign) rfl rfl
    refine ⟨value, ?_, by simp [hvalue]⟩
    simp only [bind_ok ((execBlock_cons hdeclare).trans hrun), hlocal]
    rfl

/-- A true-flag is tested and never read. -/
theorem dryParse_of_never {spec : TLPropertySpec} {flags : BitVec 32} {index : ℤ}
    (mode : spec.typeSpec.readMode = .never) (flag : spec.flag = some index) :
    dryParse flags spec = .ok (.prim (.boolean (flagSet flags index)), false) := by
  have hemitted : addPropertyParseStatement spec.name spec.typeSpec (some index) =
      [.declare spec.name (.flagCheck (flagPosition index))] := by
    generalize spec.typeSpec = type at mode ⊢
    induction type using TLTypeSpec.readMode.induct with
    | case1 => rfl
    | case2 => cases mode
    | case3 element => cases mode
    | case4 type ih =>
      rw [addPropertyParseStatement]
      exact ih mode
    | case5 type => cases type <;> simp_all [TLTypeSpec.readMode]
  have heval : (dryContext spec.typeSpec.parserNames).eval (.flagCheck (flagPosition index))
      ⟨[(flagsPropertyName, .prim (.int flags))], [0], []⟩ =
      .ok (.prim (.boolean (flagSet flags index)),
        ⟨[(flagsPropertyName, .prim (.int flags))], [0], []⟩) := by
    rw [Context.eval, bind_ok (flagCheck_eq index (lookup_cons_self _))]
    rfl
  have hlocal : lookupLocal spec.name
      ⟨[(spec.name, .prim (.boolean (flagSet flags index))),
        (flagsPropertyName, .prim (.int flags))],
        [0], []⟩ = .ok (.prim (.boolean (flagSet flags index)),
      ⟨[(spec.name, .prim (.boolean (flagSet flags index))),
        (flagsPropertyName, .prim (.int flags))],
        [0], []⟩) :=
    lookupLocal_eq (lookup_cons_self _)
  rw [dryParse, flag, hemitted]
  simp only [bind_ok (exec_declare heval), hlocal]
  rfl

/-- A collection is read whatever its flag says. -/
theorem dryParse_of_always {spec : TLPropertySpec} {flags : BitVec 32}
    (mode : spec.typeSpec.readMode = .always) :
    dryParse flags spec = .ok (.list [], true) := by
  obtain ⟨element, hemitted⟩ : ∃ element,
      addPropertyParseStatement spec.name spec.typeSpec spec.flag =
      addPropertyParseStatement spec.name (.collection element) spec.flag := by
    generalize spec.typeSpec = type at mode ⊢
    induction type using TLTypeSpec.readMode.induct with
    | case1 => cases mode
    | case2 => cases mode
    | case3 element => exact ⟨element, rfl⟩
    | case4 type ih =>
      rw [addPropertyParseStatement]
      exact ih mode
    | case5 type => cases type <;> simp_all [TLTypeSpec.readMode]
  have hloop : execBlock (dryContext spec.typeSpec.parserNames)
      (addPropertyParseStatement spec.name (.collection element) spec.flag)
      ⟨[(flagsPropertyName, .prim (.int flags))], [0], []⟩ =
      .ok ((), ⟨loopLocals spec.name [] 0 [(flagsPropertyName, .prim (.int flags))], [], []⟩) := by
    rw [exec_collection_loop (n := 0) (by omega) rfl]
    change whileLoop _ _ (0 + 1) _ = _
    rw [whileLoop, bind_ok (shorter_eq (n := 0) (by omega) (Nat.le_refl _) rfl)]
    rfl
  have hlocal : lookupLocal spec.name
      ⟨loopLocals spec.name [] 0 [(flagsPropertyName, .prim (.int flags))], [], []⟩ =
      .ok (.list [], ⟨loopLocals spec.name [] 0 [(flagsPropertyName, .prim (.int flags))], [],
        []⟩) :=
    lookupLocal_eq (lookup_loopLocals_name _)
  rw [dryParse, hemitted]
  simp only [bind_ok hloop, hlocal]
  rfl

/-- There is no local for an `Any`. -/
theorem dryParse_of_missing {spec : TLPropertySpec} {flags : BitVec 32}
    (mode : spec.typeSpec.readMode = .missing) (other : flagsPropertyName ≠ spec.name) :
    dryParse flags spec = .error .unresolved := by
  have hemitted : addPropertyParseStatement spec.name spec.typeSpec spec.flag = [] := by
    generalize spec.typeSpec = type at mode ⊢
    induction type using TLTypeSpec.readMode.induct with
    | case1 => cases mode
    | case2 => rfl
    | case3 element => cases mode
    | case4 type ih =>
      rw [addPropertyParseStatement]
      exact ih mode
    | case5 type => cases type <;> simp_all [TLTypeSpec.readMode]
  have hlookup : List.lookup spec.name [(flagsPropertyName, Value.prim (.int flags))] = none :=
    lookup_cons_of_ne _ other.symm
  have hlocal : lookupLocal spec.name ⟨[(flagsPropertyName, .prim (.int flags))], [0], []⟩ =
      .error .unresolved := by
    simp only [lookupLocal, bind, StateT.bind, get, getThe, MonadStateOf.get, StateT.get, pure,
      Except.pure, Except.bind, hlookup]
    rfl
  rw [dryParse, hemitted]
  simp only [bind_ok (execBlock_nil _), hlocal]

end Dry

/-! ## Exactly when both generators agree -/

/-- The test of an index on the flags word of the fields. -/
theorem flagSet_flagsWord_iff (fields : List Field) (index : ℤ) :
    flagSet (flagsWord fields) index = true ↔ TestSucceeds index fields := by
  unfold TestSucceeds
  by_cases hneg : index < 0
  · rw [if_pos hneg, flagSet, flagPosition, if_pos hneg]
    simp
  by_cases hle : index ≤ 30
  · rw [if_neg hneg, if_pos hle, flagSet_of_le (Int.not_lt.1 hneg) hle,
      getLsbD_flagsWord_of_le (by omega), Int.toNat_of_nonneg (Int.not_lt.1 hneg)]
  · rw [if_neg hneg, if_neg hle, flagSet_iff]
    constructor
    · rintro ⟨b, -, hset, hmask⟩
      rw [getLsbD_flagPosition_of_lt (Int.not_le.1 hle), decide_eq_true_eq] at hmask
      exact ⟨b, by omega, by rwa [getLsbD_flagsWord_of_le (by omega)] at hset⟩
    · rintro ⟨b, hb, hlast⟩
      refine ⟨b, by omega, by rwa [getLsbD_flagsWord_of_le hb], ?_⟩
      rw [getLsbD_flagPosition_of_lt (Int.not_le.1 hle), decide_eq_true_eq]
      omega

theorem HasShape.ne_null {type : TLTypeSpec} {value : Value} (shape : HasShape type value) :
    value ≠ .null := by
  rintro rfl
  induction type using TLTypeSpec.isWritten.induct with
  | case1 => exact shape
  | case2 type ih => exact ih shape
  | case3 name superType ih => exact ih shape
  | case4 type => cases type with
    | bytes fixedSize => cases fixedSize <;> exact shape
    | _ => simp_all [HasShape]

theorem HasOptionalShape.flagTyped {field : Field} (shape : HasOptionalShape field) :
    FlagTyped field := by
  obtain ⟨⟨name, flag, type⟩, value⟩ := field
  rintro (rfl : type = .flag)
  rcases shape with shape | ⟨-, hmode, -⟩
  · cases value with
    | prim p =>
      cases p with
      | boolean b => exact ⟨b, rfl⟩
      | byte value | int value | long value | double bits | string units | byteArray value =>
        exact shape.elim
    | null | list elements | object spec fields | container spec fields => exact shape.elim
  · exact absurd rfl hmode

theorem isWritten_of_readMode {type : TLTypeSpec} :
    (type.readMode = .never → type.isWritten = false) ∧
      (type.readMode = .always → type.isWritten = true) := by
  induction type using TLTypeSpec.readMode.induct with
  | case1 => simp [TLTypeSpec.readMode, TLTypeSpec.isWritten]
  | case2 => simp [TLTypeSpec.readMode]
  | case3 element => simp [TLTypeSpec.readMode, TLTypeSpec.isWritten]
  | case4 type ih => exact ih
  | case5 type => cases type <;> simp_all [TLTypeSpec.readMode, TLTypeSpec.isWritten]

/-- A declaration with an optional list. -/
def optionalList : List TLPropertySpec :=
  [⟨"entities", some 0, .collection (.genericParameter (.primitive .int))⟩]

end Mtproto.Generator
