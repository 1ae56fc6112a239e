import Mtproto.Generator.Flags
import Mtproto.Generator.WireFormat

/-!
# Serializing an encoded value

The generated `serialize` functions on the wire format: a value that is encoded in any spelling is
written as an encoding of the same value (`serialize_of_encodes`).  A type variable is serialized by
its bound, whatever the parser was that read it.
-/

namespace Mtproto.Generator

/-! ## One value -/

section Writing

variable {ctx : Context} {st : State} {value : Value} {name : String}

theorem write_prim {p : Prim} {bytes : List UInt8} (write : ctx.codec.write p = .ok bytes) :
    ctx.write p.clazz (.prim p) st = .ok ((), { st with output := st.output ++ bytes }) := by
  rw [Context.write, if_pos rfl, write]
  rfl

theorem exec_write {p : Prim} {bytes : List UInt8} (lookup : st.locals.lookup name = some (.prim p))
    (write : ctx.codec.write p = .ok bytes) :
    execBlock ctx [.write p.clazz (.name name)] st =
      .ok ((), { st with output := st.output ++ bytes }) := by
  refine execBlock_singleton ?_
  rw [Stmt.exec, Context.eval, bind_ok (lookupLocal_eq lookup)]
  exact write_prim write

/-- What is written for a value of a type variable. -/
def Context.written (ctx : Context) : Value → Except Failure (List UInt8)
  | .prim p => ctx.codec.write p
  | value => ctx.serialize value

theorem exec_serialize_record {bytes : List UInt8} (record : value.IsRecord)
    (lookup : st.locals.lookup name = some value) (written : ctx.written value = .ok bytes) :
    execBlock ctx [.serialize name] st =
      .ok ((), { st with output := st.output ++ bytes }) := by
  have hserialize : ctx.serialize value = .ok bytes := by
    cases value with
    | object spec fields | container spec fields => exact written
    | null | prim p | list elements => exact record.elim
  apply execBlock_singleton
  rw [Stmt.exec, bind_ok (lookupLocal_eq lookup), hserialize]
  rfl

theorem exec_serializeAny {bytes : List UInt8} (known : value.IsRecord ∨ ∃ p, value = .prim p)
    (lookup : st.locals.lookup name = some value) (written : ctx.written value = .ok bytes) :
    execBlock ctx [.serializeAny name] st =
      .ok ((), { st with output := st.output ++ bytes }) := by
  apply execBlock_singleton
  rw [Stmt.exec, bind_ok (lookupLocal_eq lookup)]
  cases value with
  | prim p =>
    have hwrite : ctx.codec.write p = .ok bytes := written
    rw [Context.serializeAny, hwrite]
    rfl
  | object spec fields =>
    have hserialize : ctx.serialize (.object spec fields) = .ok bytes := written
    rw [Context.serializeAny, hserialize]
    rfl
  | container spec fields =>
    have hserialize : ctx.serialize (.container spec fields) = .ok bytes := written
    rw [Context.serializeAny, hserialize]
    rfl
  | null | list elements => simp [Value.IsRecord] at known

theorem known_of_conforms {type : TLTypeSpec} (conforms : type.Conforms value) :
    value.IsRecord ∨ ∃ p, value = .prim p := by
  induction type, value using TLTypeSpec.Conforms.induct with
  | case1 p => exact .inr ⟨p, rfl⟩
  | case2 clazz p => exact .inr ⟨p, rfl⟩
  | case3 p => exact .inr ⟨p, rfl⟩
  | case4 name superType value ih => exact ih conforms
  | case5 type value ih => exact ih conforms
  | case6 value hprim =>
    cases value with
    | prim p => exact (hprim p rfl).elim
    | null | list elements => exact conforms.elim
    | object spec fields | container spec fields => exact .inl trivial
  | case7 | case8 | case9 | case10 => exact .inl conforms
  | case11 type value => cases type <;> simp_all [TLTypeSpec.Conforms]

/-- The statements for a type write every value that the type can have. -/
theorem exec_serialize_conforming {type : TLTypeSpec} {bytes : List UInt8}
    (conforms : type.Conforms value) (lookup : st.locals.lookup name = some value)
    (written : ctx.written value = .ok bytes) :
    execBlock ctx (addPropertySerializeStatement name type none) st =
      .ok ((), { st with output := st.output ++ bytes }) := by
  induction type, value using TLTypeSpec.Conforms.induct with
  | case1 p => exact exec_serializeAny (.inr ⟨p, rfl⟩) lookup written
  | case2 clazz p =>
    obtain rfl : p.clazz = clazz := conforms
    exact exec_write lookup written
  | case3 p =>
    have hclazz : p.clazz = .byteArray := conforms
    rw [addPropertySerializeStatement, addBytesSerializeStatement, ← hclazz]
    exact exec_write lookup written
  | case4 name superType value ih =>
    rw [addPropertySerializeStatement]
    exact ih conforms lookup written
  | case5 type value ih =>
    rw [addPropertySerializeStatement]
    exact ih conforms lookup written
  | case6 value hprim =>
    exact exec_serializeAny (known_of_conforms conforms) lookup written
  | case7 | case8 | case9 | case10 => exact exec_serialize_record conforms lookup written
  | case11 type value => cases type <;> simp_all [TLTypeSpec.Conforms]

/-- Does the serialize code of a type write anything? -/
def TLTypeSpec.isWritten : TLTypeSpec → Bool
  | .flag => false
  | .genericParameter type => type.isWritten
  | .genericVariable _ superType => superType.isWritten
  | _ => true

/-- With a flag a value is written if it is there. -/
theorem addPropertySerializeStatement_some (name : String) (type : TLTypeSpec) (index : ℤ) :
    addPropertySerializeStatement name type (some index) =
      if type.isWritten then [.ifNotNull name (addPropertySerializeStatement name type none)]
      else [] := by
  induction type using TLTypeSpec.isWritten.induct with
  | case1 => rfl
  | case2 type ih =>
    rw [addPropertySerializeStatement, addPropertySerializeStatement]
    exact ih
  | case3 variableName superType ih =>
    rw [addPropertySerializeStatement, addPropertySerializeStatement]
    exact ih
  | case4 type hflag hparameter hvariable =>
    cases type with
    | flag => exact absurd rfl hflag
    | genericParameter type => exact absurd rfl (hparameter type)
    | genericVariable variableName superType => exact absurd rfl (hvariable variableName superType)
    | any | primitive clazz | superObject | superContainer | object type generics
    | container type generics | collection element | bytes fixedSize => rfl

theorem addPropertySerializeStatement_of_not_isWritten {type : TLTypeSpec}
    (h : type.isWritten = false)
    (name : String) (flag : Option ℤ) : addPropertySerializeStatement name type flag = [] := by
  induction type using TLTypeSpec.isWritten.induct with
  | case1 => rfl
  | case2 type ih | case3 variableName superType ih =>
    rw [addPropertySerializeStatement]
    exact ih h
  | case4 type hflag hparameter hvariable => cases type <;> simp_all [TLTypeSpec.isWritten]

theorem eval_notNull (lookup : st.locals.lookup name = some value) :
    ∃ isPresent, (FlagCondition.notNull name).eval st = .ok (isPresent, st) ∧
      (isPresent = true ↔ value ≠ .null) := by
  rw [FlagCondition.eval, bind_ok (lookupLocal_eq lookup)]
  cases value with
  | null => exact ⟨false, rfl, by simp⟩
  | prim p | list elements | object spec fields | container spec fields =>
      exact ⟨true, rfl, by simp⟩

theorem exec_serialize_null {type : TLTypeSpec} (index : ℤ)
    (lookup : st.locals.lookup name = some .null) :
    execBlock ctx (addPropertySerializeStatement name type (some index)) st = .ok ((), st) := by
  rw [addPropertySerializeStatement_some]
  split_ifs with hwritten
  · obtain ⟨isPresent, hcondition, hpresent⟩ := eval_notNull lookup
    apply execBlock_singleton
    rw [Stmt.exec, bind_ok hcondition, if_neg (fun htrue => hpresent.1 htrue rfl)]
    rfl
  · exact execBlock_nil ctx

theorem exec_serialize_present {type : TLTypeSpec} (index : ℤ) {bytes : List UInt8}
    (present : value ≠ .null) (lookup : st.locals.lookup name = some value)
    (run : execBlock ctx (addPropertySerializeStatement name type none) st =
      .ok ((), { st with output := st.output ++ bytes })) :
    execBlock ctx (addPropertySerializeStatement name type (some index)) st =
      .ok ((), { st with output := st.output ++ bytes }) := by
  rw [addPropertySerializeStatement_some]
  split_ifs with hwritten
  · obtain ⟨isPresent, hcondition, hpresent⟩ := eval_notNull lookup
    apply execBlock_singleton
    rw [Stmt.exec, bind_ok hcondition, if_pos (hpresent.2 present)]
    exact inBlock_eq [] st.locals run rfl rfl
  · rw [addPropertySerializeStatement_of_not_isWritten (by simpa using hwritten)] at run
    exact run

/-- The `forEach` of a collection writes one element after the other. -/
theorem exec_forEach {body : List Stmt} {elements : List Value}
    {writesAs : Value → List UInt8 → Prop}
    (each : ∀ value ∈ elements, ∀ st : State, st.locals.lookup itKeyword = some value →
      ∃ bytes, execBlock ctx body st = .ok ((), { st with output := st.output ++ bytes }) ∧
        writesAs value bytes) :
    ∃ bytes, forEachElement (fun value => inBlock do
          declareLocal itKeyword value
          execBlock ctx body) elements st =
        .ok ((), { st with output := st.output ++ bytes }) ∧ Concat writesAs elements bytes := by
  induction elements generalizing st with
  | nil => exact ⟨[], by rw [List.append_nil]; rfl, rfl⟩
  | cons value elements ih =>
    obtain ⟨head, hhead, hvalue⟩ := each value (List.mem_cons_self ..)
      { st with locals := (itKeyword, value) :: st.locals } (lookup_cons_self _)
    have hdeclare : declareLocal itKeyword value st =
        .ok ((), { st with locals := (itKeyword, value) :: st.locals }) := rfl
    have hbody : (do
          declareLocal itKeyword value
          execBlock ctx body : Kotlin Unit) st =
        .ok ((), { st with
          locals := (itKeyword, value) :: st.locals
          output := st.output ++ head }) :=
      (bind_ok hdeclare).trans hhead
    have hblock := inBlock_eq [(itKeyword, value)] st.locals hbody rfl rfl
    obtain ⟨tail, htail, hconcat⟩ := ih fun v hv => each v (List.mem_cons_of_mem _ hv)
    refine ⟨head ++ tail, ?_, head, tail, hvalue, hconcat, rfl⟩
    rw [forEachElement, bind_ok hblock, htail, List.append_assoc]

/-- A collection is written as its size and its elements. -/
theorem exec_serialize_elements {element : TLTypeSpec} {elements : List Value}
    {writesAs : Value → List UInt8 → Prop} {head : List UInt8}
    (lookup : st.locals.lookup name = some (.list elements))
    (size : ctx.codec.write (.int (BitVec.ofNat 32 elements.length)) = .ok head)
    (each : ∀ value ∈ elements, ∀ st : State, st.locals.lookup itKeyword = some value →
      ∃ bytes, execBlock ctx (addPropertySerializeStatement itKeyword element none) st =
          .ok ((), { st with output := st.output ++ bytes }) ∧ writesAs value bytes) :
    ∃ tail, execBlock ctx (addPropertySerializeStatement name (.collection element) none) st =
        .ok ((), { st with output := st.output ++ (head ++ tail) }) ∧
      Concat writesAs elements tail := by
  have hsize : Stmt.exec ctx (.write .int (.size name)) st =
      .ok ((), { st with output := st.output ++ head }) := by
    have heval : ctx.eval (.size name) st =
        .ok (.prim (.int (BitVec.ofNat 32 elements.length)), st) := by
      rw [Context.eval, bind_ok (lookupLocal_eq lookup)]
      rfl
    rw [Stmt.exec, bind_ok heval]
    exact write_prim size
  have hlist : lookupList name { st with output := st.output ++ head } =
      .ok (elements, { st with output := st.output ++ head }) := lookupList_eq lookup
  obtain ⟨tail, htail, hconcat⟩ := exec_forEach each
  refine ⟨tail, ?_, hconcat⟩
  rw [addPropertySerializeStatement, addCollectionSerializeStatement,
    addSerializeFlagCheckStatement, execBlock_cons hsize]
  refine execBlock_singleton ?_
  rw [Stmt.exec, bind_ok hlist, htail, List.append_assoc]

/-! ## The flags word -/

/-- The flags word is computed into its local and written. -/
theorem exec_flaggingLogic {specs : List TLPropertySpec} {values : List Value} {head : List UInt8}
    (length : specs.length = values.length)
    (other : ∀ field ∈ specs.zip values, field.1.name ≠ flagsPropertyName)
    (typed : ∀ field ∈ specs.zip values, FlagTyped field)
    (lookup : ∀ field ∈ specs.zip values, st.locals.lookup field.1.name = some field.2)
    (write : ctx.codec.write (.int (flagsWord (specs.zip values))) = .ok head) :
    execBlock ctx (addFlaggingSerializationLogic specs) st =
      .ok ((), { st with
        locals := (flagsPropertyName, .prim (.int (flagsWord (specs.zip values)))) :: st.locals
        output := st.output ++ head }) := by
  have hdeclare : Stmt.exec ctx .declareFlags st =
      .ok ((), { st with locals := (flagsPropertyName, .prim (.int 0)) :: st.locals }) := rfl
  have hflagging : execBlock ctx (flaggingStatements ((specs.zip values).map Prod.fst))
        { st with locals := (flagsPropertyName, .prim (.int 0)) :: st.locals } =
      .ok ((), { st with
        locals := (flagsPropertyName, .prim (.int (flagsWord (specs.zip values)))) ::
          st.locals }) :=
    exec_flagging other typed lookup
  rw [List.map_fst_zip (Nat.le_of_eq length)] at hflagging
  have hword : execBlock ctx (addLocalPropertySerializeStatement flagsPropertyName .int none)
        { st with
          locals := (flagsPropertyName, .prim (.int (flagsWord (specs.zip values)))) ::
            st.locals } =
      .ok ((), { st with
        locals := (flagsPropertyName, .prim (.int (flagsWord (specs.zip values)))) :: st.locals
        output := st.output ++ head }) :=
    exec_write (lookup_cons_self _) write
  rw [addFlaggingSerializationLogic, List.append_assoc, List.singleton_append,
    execBlock_cons hdeclare]
  exact (execBlock_append hflagging).trans hword

theorem runSerialize_eq {locals : List (String × Value)} {body : List Stmt} {st' : State}
    (h : execBlock ctx body ⟨locals, [], []⟩ = .ok ((), st')) :
    ctx.runSerialize locals body = .ok st'.output := by
  rw [Context.runSerialize, h]

end Writing

theorem addPropertySerializeStatement_content (name : String) (type : TLTypeSpec)
    (flag : Option ℤ) :
    addPropertySerializeStatement name type.content flag =
      addPropertySerializeStatement name type flag := by
  induction type using TLTypeSpec.content.induct with
  | case1 type ih =>
    rw [TLTypeSpec.content, ih]
    conv_rhs => rw [addPropertySerializeStatement]
  | case2 type => cases type <;> simp_all [TLTypeSpec.content]

theorem lookup_fieldLocals {specs : List TLPropertySpec} {values : List Value} {field : Field}
    (nodup : (specs.map TLPropertySpec.name).Nodup) (mem : field ∈ specs.zip values) :
    (fieldLocals specs values).lookup field.1.name = some field.2 := by
  induction specs generalizing values with
  | nil => simp at mem
  | cons spec specs ih =>
    cases values with
    | nil => simp at mem
    | cons value values =>
      rw [List.map_cons, List.nodup_cons] at nodup
      rcases List.mem_cons.1 mem with rfl | hmem
      · exact lookup_cons_self _
      · have hne : field.1.name ≠ spec.name := by
          intro h
          exact nodup.1 (h ▸ List.mem_map_of_mem (List.of_mem_zip hmem).1)
        exact (lookup_cons_of_ne _ hne).trans (ih nodup.2 hmem)

theorem exists_mem_zip {specs : List TLPropertySpec} {values : List Value}
    (length : specs.length = values.length) {spec : TLPropertySpec} (mem : spec ∈ specs) :
    ∃ value, (spec, value) ∈ specs.zip values := by
  rw [← List.map_fst_zip (Nat.le_of_eq length)] at mem
  obtain ⟨⟨_, value⟩, hmem, rfl⟩ := List.mem_map.1 mem
  exact ⟨value, hmem⟩

/-- When fields that share an index agree, every test finds the presence of its field. -/
theorem flagSet_flagsWord_of_agree {fields : List Field} {field : Field} {index : ℤ}
    (range : ∀ f ∈ fields, ∀ i ∈ f.1.flag, 0 ≤ i ∧ i ≤ 30)
    (agree : ∀ f ∈ fields, f.1.flag = some index → present f = present field)
    (mem : field ∈ fields) (flag : field.1.flag = some index) :
    flagSet (flagsWord fields) index = present field := by
  obtain ⟨nonneg, le⟩ := range field mem index flag
  have hcovers (f : Field) (hf : f ∈ fields) :
      covers index.toNat f = true ↔ f.1.flag = some index := by
    unfold covers
    cases hflag : f.1.flag with
    | none => simp
    | some i =>
      obtain ⟨nonneg', le'⟩ := range f hf i hflag
      simp only [getLsbD_flagPosition_of_le nonneg' le', decide_eq_true_eq, Option.some.injEq]
      omega
  rw [flagSet_of_le nonneg le, getLsbD_flagsWord fields (by omega), decidedBit]
  have hne : fields.filter (covers index.toNat) ≠ [] :=
    List.ne_nil_of_mem (List.mem_filter.2 ⟨mem, (hcovers field mem).2 flag⟩)
  obtain ⟨hlast, hlastCovers⟩ := List.mem_filter.1 (List.getLast_mem hne)
  rw [List.getLast?_eq_some_getLast hne]
  exact agree _ hlast ((hcovers _ hlast).1 hlastCovers)

/-! ## Encodings that are written -/

/-- The functions that a generated `serialize` uses. -/
def serializeContext (codec : Codec) (fuel : ℕ) : Context where
  codec := codec
  parse := fun _ _ _ => .error .unresolved
  parsers := []
  serialize := serialize codec fuel
  fuel := fuel

/-- What is encoded by the one is written as an encoding by the other. -/
def RewritesAs (codec : Codec) (target source : Encoding) : Prop :=
  ∀ fuel value bytes, source value bytes → sizeOf value ≤ fuel →
    ∃ written, (serializeContext codec fuel).written value = .ok written ∧ target value written

/-- The primitives, the instances and the values of type variables can be written again. -/
structure Rewrites (codec : Codec) (form form' : Prim → List UInt8 → Prop)
    (instances instances' : ParserClass → List Encoding → Encoding)
    (parsers parsers' : List (String × Encoding)) : Prop where
  prim : ∀ p bytes, form p bytes → ∃ written, codec.write p = .ok written ∧ form' p written
  int : ∀ n, ∃ written, codec.write (.int n) = .ok written ∧ form' (.int n) written
  records : ∀ type encodings value bytes, instances type encodings value bytes → value.IsRecord
  instances : ∀ type encodings encodings', List.Forall₂ (RewritesAs codec) encodings' encodings →
    RewritesAs codec (instances' type encodings') (instances type encodings)
  parsers : List.Forall₂ (fun a b => a.1 = b.1 ∧ RewritesAs codec a.2 b.2) parsers' parsers

section Encoded

variable {codec : Codec} {fuel : ℕ} {form form' : Prim → List UInt8 → Prop}
  {instances instances' : ParserClass → List Encoding → Encoding}
  {parsers parsers' : List (String × Encoding)} {type : TLTypeSpec} {value : Value}
  {bytes : List UInt8} {st : State} {name : String} {flags flags' : Option (BitVec 32)}

theorem rewritesAs_prim (rewrites : Rewrites codec form form' instances instances' parsers parsers')
    (clazz : PrimitiveClass) :
    RewritesAs codec (EncodesPrim form' clazz) (EncodesPrim form clazz) := by
  rintro fuel _ bytes ⟨p, rfl, rfl, hform⟩ -
  obtain ⟨written, hwrite, hform'⟩ := rewrites.prim p bytes hform
  exact ⟨written, hwrite, p, rfl, rfl, hform'⟩

theorem rewritesAs_variable
    (rewrites : Rewrites codec form form' instances instances' parsers parsers') (parser : String) :
    RewritesAs codec (EncodesVariable parsers' parser) (EncodesVariable parsers parser) := by
  rintro fuel value bytes ⟨encoding, hlookup, hencodes⟩ enough
  obtain ⟨encoding', hlookup', hrewrites⟩ := lookup_of_forall₂ rewrites.parsers hlookup
  obtain ⟨written, hwritten, hencodes'⟩ := hrewrites fuel value bytes hencodes enough
  exact ⟨written, hwritten, encoding', hlookup', hencodes'⟩

theorem exists_argumentEncoding
    (rewrites : Rewrites codec form form' instances instances' parsers parsers')
    {argument : ParserArgument} {encoding : Encoding}
    (h : argumentEncoding form instances parsers argument = some encoding) :
    ∃ encoding', argumentEncoding form' instances' parsers' argument = some encoding' ∧
      RewritesAs codec encoding' encoding := by
  cases argument with
  | parameter name => exact lookup_of_forall₂ rewrites.parsers h
  | read clazz =>
    obtain rfl := Option.some.inj h
    exact ⟨_, rfl, rewritesAs_prim rewrites clazz⟩
  | readBytes limit => cases h
  | companion type =>
    obtain rfl := Option.some.inj h
    exact ⟨_, rfl, rewrites.instances type [] [] .nil⟩

theorem rewritesAs_instance
    (rewrites : Rewrites codec form form' instances instances' parsers parsers')
    (type : ParserClass)
    (arguments : List ParserArgument) :
    RewritesAs codec (EncodesInstance form' instances' parsers' type arguments)
      (EncodesInstance form instances parsers type arguments) := by
  rintro fuel value bytes ⟨encodings, harguments, hinstance⟩ enough
  obtain ⟨encodings', harguments', hrewrites⟩ :=
    forall₂_exists harguments fun _ _ h => exists_argumentEncoding rewrites h
  obtain ⟨written, hwritten, hinstance'⟩ :=
    rewrites.instances type encodings encodings' hrewrites fuel value bytes hinstance enough
  exact ⟨written, hwritten, encodings', harguments', hinstance'⟩

theorem rewritesAs_scalar
    (rewrites : Rewrites codec form form' instances instances' parsers parsers')
    (type : TLTypeSpec) :
    RewritesAs codec (EncodesScalar form' instances' parsers' type)
      (EncodesScalar form instances parsers type) := by
  intro fuel value bytes encodes enough
  unfold EncodesScalar at encodes ⊢
  generalize type.content = content at encodes ⊢
  cases content with
  | primitive clazz => exact rewritesAs_prim rewrites clazz fuel value bytes encodes enough
  | bytes fixedSize =>
    cases fixedSize with
    | none => exact rewritesAs_prim rewrites .byteArray fuel value bytes encodes enough
    | some fixedSize => exact encodes.elim
  | object type generics | container type generics =>
    exact rewritesAs_instance rewrites _ _ fuel value bytes encodes enough
  | genericVariable name superType | superObject | superContainer =>
    obtain ⟨hvalue, hvariable⟩ := encodes
    obtain ⟨written, hwritten, hvariable'⟩ :=
      rewritesAs_variable rewrites _ fuel value bytes hvariable enough
    exact ⟨written, hwritten, hvalue, hvariable'⟩
  | any | flag | collection element | genericParameter type => exact encodes.elim

/-- A type can have the values that are encoded for it. -/
theorem conforms_of_encodes
    (rewrites : Rewrites codec form form' instances instances' parsers parsers')
    (encodes : EncodesScalar form instances parsers type value bytes) : type.Conforms value := by
  rw [← type.conforms_content]
  unfold EncodesScalar at encodes
  generalize type.content = content at encodes ⊢
  cases content with
  | primitive clazz =>
    obtain ⟨p, rfl, hclazz, -⟩ := encodes
    exact hclazz
  | bytes fixedSize =>
    cases fixedSize with
    | none =>
      obtain ⟨p, rfl, hclazz, -⟩ := encodes
      exact hclazz
    | some fixedSize => exact encodes.elim
  | object type generics | container type generics =>
    obtain ⟨encodings, -, hinstance⟩ := encodes
    exact rewrites.records _ _ _ _ hinstance
  | genericVariable name superType => exact encodes.1
  | superObject | superContainer => exact encodes.1
  | any | flag | collection element | genericParameter type => exact encodes.elim

theorem ne_null_of_encodesType
    (rewrites : Rewrites codec form form' instances instances' parsers parsers')
    (encodes : EncodesType form instances parsers type value bytes) : value ≠ .null := by
  rintro rfl
  by_cases hlist : ∃ element, type.content = .collection element
  · obtain ⟨element, hcontent⟩ := hlist
    obtain ⟨elements, head, tail, hvalue, -⟩ := (encodesType_of_collection hcontent).1 encodes
    cases hvalue
  · rw [encodesType_of_ne fun element hcontent => hlist ⟨element, hcontent⟩] at encodes
    rcases known_of_conforms (conforms_of_encodes rewrites encodes) with h | ⟨p, hp⟩
    · exact h
    · cases hp

/-! ## Fields -/

theorem exec_serialize_type
    (rewrites : Rewrites codec form form' instances instances' parsers parsers')
    (lookup : st.locals.lookup name = some value) (enough : sizeOf value ≤ fuel)
    (encodes : EncodesType form instances parsers type value bytes) :
    ∃ written, execBlock (serializeContext codec fuel)
        (addPropertySerializeStatement name type none) st =
        .ok ((), { st with output := st.output ++ written }) ∧
      EncodesType form' instances' parsers' type value written := by
  have hscalar {type : TLTypeSpec} {value : Value} {bytes : List UInt8} {st : State} {name : String}
      (lookup : st.locals.lookup name = some value) (enough : sizeOf value ≤ fuel)
      (encodes : EncodesScalar form instances parsers type value bytes) :
      ∃ written, execBlock (serializeContext codec fuel)
          (addPropertySerializeStatement name type none) st =
          .ok ((), { st with output := st.output ++ written }) ∧
        EncodesScalar form' instances' parsers' type value written := by
    obtain ⟨written, hwritten, hencodes⟩ :=
      rewritesAs_scalar rewrites type fuel value bytes encodes enough
    exact ⟨written,
      exec_serialize_conforming (conforms_of_encodes rewrites encodes) lookup hwritten, hencodes⟩
  by_cases hlist : ∃ element, type.content = .collection element
  · obtain ⟨element, hcontent⟩ := hlist
    simp only [encodesType_of_collection hcontent] at encodes ⊢
    obtain ⟨elements, head, tail, rfl, bound, -, htail, rfl⟩ := encodes
    obtain ⟨size, hsize, hform⟩ := rewrites.int (BitVec.ofNat 32 elements.length)
    have heach : ∀ value ∈ elements, ∀ st : State, st.locals.lookup itKeyword = some value →
        ∃ written, execBlock (serializeContext codec fuel)
            (addPropertySerializeStatement itKeyword element none) st =
            .ok ((), { st with output := st.output ++ written }) ∧
          EncodesScalar form' instances' parsers' element value written := by
      intro value hvalue st hit
      obtain ⟨part, hpart⟩ := htail.exists_of_mem hvalue
      have hlt := List.sizeOf_lt_of_mem hvalue
      simp only [Value.list.sizeOf_spec] at enough
      exact hscalar hit (by omega) hpart
    obtain ⟨rest, hexec, hrest⟩ := exec_serialize_elements lookup hsize heach
    rw [← addPropertySerializeStatement_content, hcontent]
    exact ⟨size ++ rest, hexec, elements, size, rest, rfl, bound, hform, hrest, rfl⟩
  · have hne : ∀ element, type.content ≠ .collection element :=
      fun element hcontent => hlist ⟨element, hcontent⟩
    rw [encodesType_of_ne hne] at encodes ⊢
    exact hscalar lookup enough encodes

/-- The written flags are tested like those that were read. -/
theorem exec_serialize_field {spec : TLPropertySpec}
    (rewrites : Rewrites codec form form' instances instances' parsers parsers')
    (lookup : st.locals.lookup spec.name = some value) (enough : sizeOf value ≤ fuel)
    (same : ∀ index ∈ spec.flag, ∀ word ∈ flags, ∃ word' ∈ flags',
      flagSet word' index = flagSet word index)
    (encodes : EncodesField form instances parsers flags spec value bytes) :
    ∃ written, execBlock (serializeContext codec fuel)
        (addPropertySerializeStatement spec.name spec.typeSpec spec.flag) st =
        .ok ((), { st with output := st.output ++ written }) ∧
      EncodesField form' instances' parsers' flags' spec value written := by
  cases hflag : spec.flag with
  | none =>
    rw [encodesField_none hflag] at encodes
    simp only [encodesField_none hflag]
    exact exec_serialize_type rewrites lookup enough encodes
  | some index =>
    by_cases htype : spec.typeSpec = .flag
    · rw [encodesField_flag hflag htype] at encodes
      simp only [encodesField_flag hflag htype]
      obtain ⟨word, hword, rfl, -⟩ := encodes
      obtain ⟨word', hword', hset⟩ := same index hflag word hword
      refine ⟨[], ?_, word', hword', by rw [hset], rfl⟩
      rw [htype, List.append_nil]
      exact execBlock_nil _
    · rw [encodesField_some hflag htype] at encodes
      simp only [encodesField_some hflag htype]
      obtain ⟨hnullable, word, hword, hencodes⟩ := encodes
      obtain ⟨word', hword', hset⟩ := same index hflag word hword
      cases hpresent : flagSet word index with
      | false =>
        rw [hpresent, if_neg Bool.false_ne_true] at hencodes
        rw [hpresent] at hset
        obtain ⟨rfl, -⟩ := hencodes
        refine ⟨[], ?_, hnullable, word', hword', ?_⟩
        · rw [List.append_nil]
          exact exec_serialize_null index lookup
        · rw [hset, if_neg Bool.false_ne_true]
          exact ⟨rfl, rfl⟩
      | true =>
        rw [hpresent, if_pos rfl] at hencodes
        rw [hpresent] at hset
        obtain ⟨written, hexec, hwritten⟩ := exec_serialize_type rewrites lookup enough hencodes
        refine ⟨written, ?_, hnullable, word', hword', ?_⟩
        · exact exec_serialize_present index (ne_null_of_encodesType rewrites hencodes) lookup hexec
        · rw [hset, if_pos rfl]
          exact hwritten

/-- The same field is the flags word behind it, or both words stay. -/
theorem same_flagsAfter {spec : TLPropertySpec} {index : ℤ}
    (same : ∀ word ∈ flags, ∃ word' ∈ flags', flagSet word' index = flagSet word index) :
    ∀ word ∈ flagsAfter flags spec value, ∃ word' ∈ flagsAfter flags' spec value,
      flagSet word' index = flagSet word index := by
  unfold flagsAfter
  split
  · exact fun word hword => ⟨word, hword, rfl⟩
  · exact same

theorem exec_serialize_fields {specs : List TLPropertySpec} {values : List Value}
    (rewrites : Rewrites codec form form' instances instances' parsers parsers')
    (lookup : ∀ field ∈ specs.zip values, st.locals.lookup field.1.name = some field.2)
    (enough : ∀ value ∈ values, sizeOf value ≤ fuel)
    (same : ∀ spec ∈ specs, ∀ index ∈ spec.flag, ∀ word ∈ flags, ∃ word' ∈ flags',
      flagSet word' index = flagSet word index)
    (encodes : EncodesFields form instances parsers flags specs values bytes) :
    ∃ written, execBlock (serializeContext codec fuel) (addPropertiesSerializationLogic specs) st =
        .ok ((), { st with output := st.output ++ written }) ∧
      EncodesFields form' instances' parsers' flags' specs values written := by
  induction specs generalizing values st bytes flags flags' with
  | nil =>
    cases values with
    | nil =>
      refine ⟨[], ?_, rfl⟩
      rw [List.append_nil]
      exact execBlock_nil _
    | cons value values => exact encodes.elim
  | cons spec specs ih =>
    cases values with
    | nil => exact encodes.elim
    | cons value values =>
      obtain ⟨head, tail, hhead, htail, rfl⟩ := encodes
      rw [List.forall_mem_cons] at same enough
      rw [List.zip_cons_cons, List.forall_mem_cons] at lookup
      obtain ⟨first, hfirst, hencodes⟩ :=
        exec_serialize_field rewrites lookup.1 enough.1 same.1 hhead
      obtain ⟨others, hothers, hfields⟩ : ∃ others,
          execBlock (serializeContext codec fuel) (addPropertiesSerializationLogic specs)
              { st with output := st.output ++ first } =
            .ok ((), { st with output := st.output ++ first ++ others }) ∧
          EncodesFields form' instances' parsers' (flagsAfter flags' spec value) specs values
            others :=
        ih lookup.2 enough.2 (fun s hs index hindex => same_flagsAfter (same.2 s hs index hindex))
          htail
      refine ⟨first ++ others, ?_, first, others, hencodes, hfields, rfl⟩
      rw [addPropertiesSerializationLogic] at hothers ⊢
      rw [List.flatMap_cons, execBlock_append hfirst, hothers, List.append_assoc]

/-! ## Records -/

theorem flagTyped_of_encodesField {spec : TLPropertySpec}
    (encodes : EncodesField form instances parsers flags spec value bytes) :
    FlagTyped (spec, value) := by
  intro htype
  cases hflag : spec.flag with
  | none =>
    rw [encodesField_none hflag, show spec.typeSpec = .flag from htype] at encodes
    exact encodes.elim
  | some index =>
    obtain ⟨word, -, hvalue, -⟩ := (encodesField_flag hflag htype).1 encodes
    exact ⟨_, hvalue⟩

/-- A flagged field is there just when its bit is set. -/
theorem present_of_encodesField {spec : TLPropertySpec}
    (rewrites : Rewrites codec form form' instances instances' parsers parsers')
    (encodes : EncodesField form instances parsers flags spec value bytes) {index : ℤ}
    (hflag : spec.flag = some index) :
    ∃ word ∈ flags, present (spec, value) = flagSet word index := by
  by_cases htype : spec.typeSpec = .flag
  · obtain ⟨word, hword, rfl, -⟩ := (encodesField_flag hflag htype).1 encodes
    refine ⟨word, hword, ?_⟩
    simp only [present, htype]
  · obtain ⟨-, word, hword, hencodes⟩ := (encodesField_some hflag htype).1 encodes
    refine ⟨word, hword, ?_⟩
    have hpresent : present (spec, value) = true ↔ value ≠ .null := by
      simp only [present]
      split <;> simp_all
    cases hset : flagSet word index with
    | false =>
      rw [hset, if_neg Bool.false_ne_true] at hencodes
      rw [← Bool.not_eq_true, hpresent]
      exact fun hne => hne hencodes.1
    | true =>
      rw [hset, if_pos rfl] at hencodes
      rw [hpresent]
      exact ne_null_of_encodesType rewrites hencodes

/-- What the fields of a record have in common. -/
theorem forall_of_encodesFields {specs : List TLPropertySpec} {values : List Value}
    (rewrites : Rewrites codec form form' instances instances' parsers parsers')
    (encodes : EncodesFields form instances parsers flags specs values bytes) :
    (∀ field ∈ specs.zip values, FlagTyped field) ∧
      ((∀ spec ∈ specs, spec.name ≠ flagsPropertyName) → ∀ field ∈ specs.zip values,
        ∀ index ∈ field.1.flag, ∃ word ∈ flags, present field = flagSet word index) := by
  induction specs generalizing values bytes flags with
  | nil => simp
  | cons spec specs ih =>
    cases values with
    | nil => exact encodes.elim
    | cons value values =>
      obtain ⟨head, tail, hhead, htail, -⟩ := encodes
      obtain ⟨htyped, hpresent⟩ := ih htail
      rw [List.zip_cons_cons, List.forall_mem_cons, List.forall_mem_cons, List.forall_mem_cons]
      refine ⟨⟨flagTyped_of_encodesField hhead, htyped⟩, fun hnames => ⟨?_, ?_⟩⟩
      · exact fun index hindex => present_of_encodesField rewrites hhead hindex
      · have hflags : flagsAfter flags spec value = flags := if_neg hnames.1
        rw [hflags] at hpresent
        exact hpresent hnames.2

/-- The body of a `serialize` after the constructor hash writes an encoding of the fields. -/
theorem exec_record {hasFlags : Bool} {specs : List TLPropertySpec} {values : List Value}
    (rewrites : Rewrites codec form form' instances instances' parsers parsers')
    (regular : Regular hasFlags specs) (enough : ∀ value ∈ values, sizeOf value ≤ fuel)
    (lookup : ∀ field ∈ specs.zip values, st.locals.lookup field.1.name = some field.2)
    (encodes : EncodesRecord form instances parsers hasFlags specs values bytes) :
    ∃ written st', execBlock (serializeContext codec fuel)
        (createContainerSerializeFunctionSpec hasFlags specs) st = .ok ((), st') ∧
      st'.output = st.output ++ written ∧
      EncodesRecord form' instances' parsers' hasFlags specs values written := by
  cases hasFlags with
  | false =>
    obtain ⟨written, hexec, hwritten⟩ :=
      exec_serialize_fields rewrites lookup enough (fun _ _ _ _ word hword => ⟨word, hword, rfl⟩)
        encodes
    exact ⟨written, _, hexec, rfl, hwritten⟩
  | true =>
    obtain ⟨word, _, _, -, hfields, -⟩ := encodes
    have hnames := (regular.nodup_names hfields).2 rfl
    have hother (field : Field) (h : field ∈ specs.zip values) : field.1.name ≠ flagsPropertyName :=
      hnames field.1 (List.of_mem_zip h).1
    obtain ⟨htyped, hpresent⟩ := forall_of_encodesFields rewrites hfields
    have hword (field : Field) (h : field ∈ specs.zip values) (index : ℤ)
        (hindex : index ∈ field.1.flag) : present field = flagSet word index := by
      obtain ⟨found, hfound, hset⟩ := hpresent hnames field h index hindex
      obtain rfl : word = found := Option.some.inj hfound
      exact hset
    have hlength := length_eq_of_encodesFields hfields
    have hset (field : Field) (h : field ∈ specs.zip values) (index : ℤ)
        (hindex : index ∈ field.1.flag) :
        flagSet (flagsWord (specs.zip values)) index = present field := by
      apply flagSet_flagsWord_of_agree _ _ h hindex
      · exact fun f hf i hi => regular.index f.1 (List.of_mem_zip hf).1 i hi
      · intro f hf hflag
        rw [hword f hf index hflag, hword field h index hindex]
    have hsame : ∀ spec ∈ specs, ∀ index ∈ spec.flag, ∀ read ∈ some word,
        ∃ word' ∈ some (flagsWord (specs.zip values)), flagSet word' index =
          flagSet read index := by
      intro spec hspec index hindex read hread
      obtain rfl : word = read := Option.some.inj hread
      obtain ⟨value, hfield⟩ := exists_mem_zip hlength hspec
      exact ⟨_, rfl, (hset _ hfield index hindex).trans (hword _ hfield index hindex)⟩
    obtain ⟨head, hhead, hform⟩ := rewrites.int (flagsWord (specs.zip values))
    have hlogic : execBlock (serializeContext codec fuel) (addFlaggingSerializationLogic specs) st =
        .ok ((), { st with
          locals := (flagsPropertyName, .prim (.int (flagsWord (specs.zip values)))) :: st.locals
          output := st.output ++ head }) :=
      exec_flaggingLogic hlength hother htyped lookup hhead
    obtain ⟨tail, htail, hencodes⟩ : ∃ tail, execBlock (serializeContext codec fuel)
          (addPropertiesSerializationLogic specs)
          { st with
            locals := (flagsPropertyName, .prim (.int (flagsWord (specs.zip values)))) :: st.locals
            output := st.output ++ head } =
        .ok ((), { st with
          locals := (flagsPropertyName, .prim (.int (flagsWord (specs.zip values)))) :: st.locals
          output := st.output ++ head ++ tail }) ∧
        EncodesFields form' instances' parsers' (some (flagsWord (specs.zip values))) specs values
          tail :=
      exec_serialize_fields rewrites
        (fun f hf => (lookup_cons_of_ne _ (hother f hf)).trans (lookup f hf)) enough hsame hfields
    refine ⟨head ++ tail, _, (execBlock_append hlogic).trans htail, List.append_assoc .., ?_⟩
    exact ⟨_, head, tail, hform, hencodes, rfl⟩

theorem fields_of_encodesRecord {hasFlags : Bool} {specs : List TLPropertySpec}
    {values : List Value}
    (encodes : EncodesRecord form instances parsers hasFlags specs values bytes) :
    ∃ flags part, EncodesFields form instances parsers flags specs values part := by
  cases hasFlags with
  | false => exact ⟨none, bytes, encodes⟩
  | true =>
    obtain ⟨word, head, tail, -, hfields, -⟩ := encodes
    exact ⟨some word, tail, hfields⟩

theorem runSerialize_container {hasFlags : Bool} {specs : List TLPropertySpec} {values : List Value}
    (rewrites : Rewrites codec form form' instances instances' parsers parsers')
    (regular : Regular hasFlags specs) (enough : ∀ value ∈ values, sizeOf value ≤ fuel)
    (encodes : EncodesRecord form instances parsers hasFlags specs values bytes) :
    ∃ written, (serializeContext codec fuel).runSerialize (fieldLocals specs values)
        (createContainerSerializeFunctionSpec hasFlags specs) = .ok written ∧
      EncodesRecord form' instances' parsers' hasFlags specs values written := by
  obtain ⟨_, _, hfields⟩ := fields_of_encodesRecord encodes
  obtain ⟨written, st', hexec, houtput, hencodes⟩ : ∃ written st',
      execBlock (serializeContext codec fuel) (createContainerSerializeFunctionSpec hasFlags specs)
        ⟨fieldLocals specs values, [], []⟩ = .ok ((), st') ∧ st'.output = [] ++ written ∧
      EncodesRecord form' instances' parsers' hasFlags specs values written :=
    exec_record rewrites regular enough
      (fun f hf => lookup_fieldLocals (regular.nodup_names hfields).1 hf) encodes
  refine ⟨written, ?_, hencodes⟩
  rw [runSerialize_eq hexec, houtput, List.nil_append]

theorem runSerialize_object {hash : BitVec 32} {hasFlags : Bool} {specs : List TLPropertySpec}
    {values : List Value}
    (rewrites : Rewrites codec form form' instances instances' parsers parsers')
    (regular : Regular hasFlags specs) (other : ∀ spec ∈ specs, spec.name ≠ hashParameterName)
    (enough : ∀ value ∈ values, sizeOf value ≤ fuel)
    (encodes : EncodesRecord form instances parsers hasFlags specs values bytes) :
    ∃ head tail, (serializeContext codec fuel).runSerialize
        ((hashParameterName, .prim (.int hash)) :: fieldLocals specs values)
        (createObjectSerializeFunctionSpec hasFlags specs) = .ok (head ++ tail) ∧
      form' (.int hash) head ∧
      EncodesRecord form' instances' parsers' hasFlags specs values tail := by
  obtain ⟨head, hhead, hform⟩ := rewrites.int hash
  have hhash : execBlock (serializeContext codec fuel)
        (addLocalPropertySerializeStatement hashParameterName .int none)
        ⟨(hashParameterName, .prim (.int hash)) :: fieldLocals specs values, [], []⟩ =
      .ok ((), ⟨(hashParameterName, .prim (.int hash)) :: fieldLocals specs values, [], head⟩) :=
    exec_write (p := .int hash) (lookup_cons_self _) hhead
  obtain ⟨_, _, hfields⟩ := fields_of_encodesRecord encodes
  have hlookup : ∀ field ∈ specs.zip values,
      List.lookup field.1.name ((hashParameterName, .prim (.int hash)) ::
        fieldLocals specs values) =
        some field.2 := by
    intro field h
    rw [lookup_cons_of_ne _ (other field.1 (List.of_mem_zip h).1)]
    exact lookup_fieldLocals (regular.nodup_names hfields).1 h
  obtain ⟨tail, st', hexec, houtput, hencodes⟩ : ∃ tail st',
      execBlock (serializeContext codec fuel) (createContainerSerializeFunctionSpec hasFlags specs)
        ⟨(hashParameterName, .prim (.int hash)) :: fieldLocals specs values, [], head⟩ =
          .ok ((), st') ∧ st'.output = head ++ tail ∧
      EncodesRecord form' instances' parsers' hasFlags specs values tail :=
    exec_record rewrites regular enough hlookup encodes
  have hbody : execBlock (serializeContext codec fuel)
      (createObjectSerializeFunctionSpec hasFlags specs)
      ⟨(hashParameterName, .prim (.int hash)) :: fieldLocals specs values, [], []⟩ =
        .ok ((), st') :=
    (execBlock_append hhash).trans hexec
  refine ⟨head, tail, ?_, hform, hencodes⟩
  rw [runSerialize_eq hbody, houtput]

end Encoded

/-! ## Instances -/

section Main

variable {scheme : Scheme} {codec : Codec} {form form' : Prim → List UInt8 → Prop}

theorem isRecord_of_encodes {depth : ℕ} {type : ParserClass} {encodings : List Encoding}
    {value : Value} {bytes : List UInt8}
    (h : Encodes scheme form depth type encodings value bytes) : value.IsRecord := by
  cases depth with
  | zero => exact h.elim
  | succ depth => cases type <;> cases value <;> first | exact trivial | exact h.elim

/-- A value that is encoded in any spelling is written as an encoding by the generated
`serialize`. -/
theorem serialize_of_encodes (regular : scheme.Regular)
    (prims : ∀ p bytes, form p bytes → ∃ written, codec.write p = .ok written ∧ form' p written)
    (ints : ∀ n, ∃ written, codec.write (.int n) = .ok written ∧ form' (.int n) written)
    (depth : ℕ) (type : ParserClass) {encodings encodings' : List Encoding}
    (arguments : List.Forall₂ (RewritesAs codec) encodings' encodings) :
    RewritesAs codec (Encodes scheme form' depth type encodings')
      (Encodes scheme form depth type encodings) := by
  induction depth generalizing type encodings encodings' with
  | zero => exact fun fuel value bytes encodes _ => encodes.elim
  | succ depth ih =>
    intro fuel value bytes encodes enough
    have hrewrites (names : List String) {encodings encodings' : List Encoding}
        (h : List.Forall₂ (RewritesAs codec) encodings' encodings) :
        Rewrites codec form form' (Encodes scheme form depth) (Encodes scheme form' depth)
          (names.zip encodings) (names.zip encodings') :=
      { prim := prims
        int := ints
        records := fun _ _ _ _ => isRecord_of_encodes
        instances := fun type _ _ => ih type
        parsers := forall₂_zip h names }
    have hfuel (fields : List Value) (h : sizeOf fields < fuel) :
        ∃ k, fuel = k + 1 ∧ ∀ field ∈ fields, sizeOf field ≤ k := by
      refine ⟨fuel - 1, by omega, fun field hfield => ?_⟩
      have hlt := List.sizeOf_lt_of_mem hfield
      omega
    cases type with
    | object type =>
      cases value with
      | object spec fields =>
        obtain ⟨superType, taken, head, tail, hscheme, hfind, hfields, htaken, hhead, htail, rfl⟩ :=
          encodes
        obtain ⟨hregular, hother⟩ :=
          regular.objects type superType hscheme spec (List.mem_of_find?_eq_some hfind)
        obtain ⟨taken', htaken', htakenRewrites⟩ := forall₂_exists htaken fun _ _ h =>
          lookup_of_forall₂
            (forall₂_zip arguments (superType.typeVariables.map createTypeParserParameterName)) h
        obtain ⟨fuel, rfl, hsizes⟩ := hfuel fields (by
          simp only [Value.object.sizeOf_spec] at enough
          omega)
        obtain ⟨head', tail', hserialize, hhead', htail'⟩ :=
          runSerialize_object (hrewrites _ htakenRewrites) hregular hother hsizes htail
        exact ⟨head' ++ tail', hserialize, superType, taken', head', tail', hscheme, hfind, hfields,
          htaken', hhead', htail', rfl⟩
      | null | prim p | list elements | container spec fields => exact encodes.elim
    | container type =>
      cases value with
      | container spec fields =>
        obtain ⟨hscheme, hrecord⟩ := encodes
        obtain ⟨fuel, rfl, hsizes⟩ := hfuel fields (by
          simp only [Value.container.sizeOf_spec] at enough
          omega)
        obtain ⟨written, hserialize, hwritten⟩ := runSerialize_container (hrewrites _ arguments)
          (regular.containers type spec hscheme) hsizes hrecord
        exact ⟨written, hserialize, hscheme, hwritten⟩
      | null | prim p | list elements | object spec fields => exact encodes.elim

end Main

end Mtproto.Generator
