import Mtproto.Generator.WireFormat

/-!
# Parsing an encoding

The generated `parse` functions on the wire format: a stream that reads every form of the primitives
reads every encoding of a value, and leaves what follows (`parse_of_encodes`).
-/

namespace Mtproto.Generator

/-! ## What a context reads -/

/-- A parser reads the values that are encoded. -/
def ReadsAs (parser : Parser) (encoding : Encoding) : Prop :=
  ∀ value bytes rest, encoding value bytes → parser (bytes ++ rest) = .ok (value, rest)

/-- What a context must be able to read. -/
structure Context.Reads (ctx : Context) (form : Prim → List UInt8 → Prop)
    (instances : ParserClass → List Encoding → Encoding) (parsers : List (String × Encoding)) :
    Prop where
  prim : ∀ p bytes rest, form p bytes → ctx.codec.read p.clazz (bytes ++ rest) = .ok (p, rest)
  parse : ∀ type arguments encodings, List.Forall₂ ReadsAs arguments encodings →
    ReadsAs (ctx.parse type arguments) (instances type encodings)
  parsers : List.Forall₂ (fun a b => a.1 = b.1 ∧ ReadsAs a.2 b.2) ctx.parsers parsers
  fuel : 2 ^ 31 ≤ ctx.fuel

section Reading

variable {ctx : Context} {form : Prim → List UInt8 → Prop}
  {instances : ParserClass → List Encoding → Encoding} {parsers : List (String × Encoding)}
  {st : State} {bytes rest : List UInt8} {value : Value} {type : TLTypeSpec}
  {flags : Option (BitVec 32)} {spec : TLPropertySpec}

theorem lookupParser_of_encoding (reads : ctx.Reads form instances parsers) {name : String}
    {encoding : Encoding} (lookup : parsers.lookup name = some encoding) :
    ∃ parser, ctx.lookupParser name = .ok parser ∧ ReadsAs parser encoding := by
  obtain ⟨parser, hparser, hreads⟩ := lookup_of_forall₂ reads.parsers lookup
  exact ⟨parser, by rw [Context.lookupParser, hparser], hreads⟩

theorem reader_readsAs (reads : ctx.Reads form instances parsers) (clazz : PrimitiveClass) :
    ReadsAs (ctx.codec.reader clazz) (EncodesPrim form clazz) := by
  rintro _ bytes rest ⟨p, rfl, rfl, hform⟩
  rw [Codec.reader, reads.prim p bytes rest hform]

theorem argument_of_encoding (reads : ctx.Reads form instances parsers) {argument : ParserArgument}
    {encoding : Encoding}
    (h : argumentEncoding form instances parsers argument = some encoding) :
    ∃ parser, ctx.argument argument = .ok parser ∧ ReadsAs parser encoding := by
  cases argument with
  | parameter name => exact lookupParser_of_encoding reads h
  | read clazz =>
    obtain rfl := Option.some.inj h
    exact ⟨_, rfl, reader_readsAs reads clazz⟩
  | readBytes limit => cases h
  | companion type =>
    obtain rfl := Option.some.inj h
    exact ⟨_, rfl, reads.parse type [] [] .nil⟩

theorem eval_parse_eq {type : ParserClass} {arguments : List ParserArgument} {given : List Parser}
    (h : arguments.mapM ctx.argument = .ok given) :
    ctx.eval (.parse type arguments) st = consume (ctx.parse type given) st := by
  rw [Context.eval, bind_ok (show ((arguments.mapM ctx.argument : Except Failure (List Parser)) :
    Kotlin (List Parser)) st = .ok (given, st) by rw [h]; rfl)]

theorem eval_invoke_eq {name : String} {parser : Parser} (h : ctx.lookupParser name = .ok parser) :
    ctx.eval (.invoke name) st = consume parser st := by
  rw [Context.eval, bind_ok (show ((ctx.lookupParser name : Except Failure Parser) :
    Kotlin Parser) st = .ok (parser, st) by rw [h]; rfl)]

theorem eval_of_encodesInstance (reads : ctx.Reads form instances parsers) {type : ParserClass}
    {arguments : List ParserArgument}
    (encodes : EncodesInstance form instances parsers type arguments value bytes)
    (input : st.input = bytes ++ rest) :
    ctx.eval (.parse type arguments) st = .ok (value, { st with input := rest }) := by
  obtain ⟨encodings, harguments, hinstance⟩ := encodes
  obtain ⟨given, hgiven, hreads⟩ :=
    forall₂_exists harguments fun _ _ h => argument_of_encoding reads h
  rw [eval_parse_eq (mapM_of_forall₂ hgiven)]
  apply consume_eq
  rw [input]
  exact reads.parse type given encodings hreads value bytes rest hinstance

theorem eval_of_encodesVariable (reads : ctx.Reads form instances parsers) {parser : String}
    (encodes : EncodesVariable parsers parser value bytes) (input : st.input = bytes ++ rest) :
    ctx.eval (.invoke parser) st = .ok (value, { st with input := rest }) := by
  obtain ⟨encoding, hlookup, hencoding⟩ := encodes
  obtain ⟨given, hgiven, hreads⟩ := lookupParser_of_encoding reads hlookup
  rw [eval_invoke_eq hgiven]
  apply consume_eq
  rw [input]
  exact hreads value bytes rest hencoding

theorem eval_of_encodesPrim (reads : ctx.Reads form instances parsers) {clazz : PrimitiveClass}
    (encodes : EncodesPrim form clazz value bytes) (input : st.input = bytes ++ rest) :
    ctx.eval (.read clazz) st = .ok (value, { st with input := rest }) := by
  apply consume_eq
  rw [input]
  exact reader_readsAs reads clazz value bytes rest encodes

/-- The expression of a type reads the encodings of its values. -/
theorem eval_of_encodes {e : Expr} (reads : ctx.Reads form instances parsers)
    (shape : type.shape = .value e)
    (encodes : EncodesScalar form instances parsers type value bytes)
    (input : st.input = bytes ++ rest) :
    ctx.eval e st = .ok (value, { st with input := rest }) := by
  rw [← type.shape_content] at shape
  unfold EncodesScalar at encodes
  generalize type.content = content at shape encodes
  cases content with
  | primitive clazz =>
    cases shape
    exact eval_of_encodesPrim reads encodes input
  | bytes fixedSize =>
    cases fixedSize with
    | none =>
      cases shape
      exact eval_of_encodesPrim reads encodes input
    | some fixedSize => exact encodes.elim
  | object type generics =>
    cases shape
    exact eval_of_encodesInstance reads encodes input
  | container type generics =>
    cases shape
    exact eval_of_encodesInstance reads encodes input
  | genericVariable name superType | superObject | superContainer =>
    cases shape
    exact eval_of_encodesVariable reads encodes.2 input
  | any | flag | collection element | genericParameter type => exact encodes.elim

/-! ## Fields -/

/-- The locals a field leaves behind. -/
def propertyLocals (spec : TLPropertySpec) (value : Value) : List (String × Value) :=
  match spec.typeSpec.content, value with
  | .collection _, .list elements => loopLocals spec.name elements elements.length []
  | _, _ => [(spec.name, value)]

theorem propertyLocals_of_ne (h : ∀ element, spec.typeSpec.content ≠ .collection element) :
    propertyLocals spec value = [(spec.name, value)] := by
  unfold propertyLocals
  split
  · next element _ hcontent => exact absurd hcontent (h element)
  · rfl

theorem propertyLocals_of_collection {element : TLTypeSpec} {elements : List Value}
    (h : spec.typeSpec.content = .collection element) :
    propertyLocals spec (.list elements) = loopLocals spec.name elements elements.length [] := by
  simp only [propertyLocals, h]

/-- A field that is read by one expression. -/
theorem exec_value {e : Expr} (reads : ctx.Reads form instances parsers)
    (shape : spec.typeSpec.shape = .value e)
    (other : spec.flag.isSome → flagsPropertyName ≠ spec.name)
    (hflags : ∀ word ∈ flags, st.locals.lookup flagsPropertyName = some (.prim (.int word)))
    (encodes : EncodesField form instances parsers flags spec value bytes)
    (input : st.input = bytes ++ rest) :
    execBlock ctx (addPropertyParseStatement spec.name spec.typeSpec spec.flag) st =
      .ok ((), { st with locals := (spec.name, value) :: st.locals, input := rest }) := by
  have hscalar : EncodesType form instances parsers spec.typeSpec =
      EncodesScalar form instances parsers spec.typeSpec := by
    apply encodesType_of_ne
    intro element hcontent
    rw [← TLTypeSpec.shape_content, hcontent] at shape
    cases shape
  rw [addPropertyParseStatement_of_value shape]
  cases hflag : spec.flag with
  | none =>
    rw [encodesField_none hflag, hscalar] at encodes
    exact exec_declare (eval_of_encodes reads shape encodes input)
  | some index =>
    have hne : spec.typeSpec ≠ .flag := by
      intro htype
      rw [htype] at shape
      cases shape
    rw [encodesField_some hflag hne] at encodes
    obtain ⟨-, word, hword, hencodes⟩ := encodes
    have hlookup : List.lookup flagsPropertyName ((spec.name, Value.null) :: st.locals) =
        some (.prim (.int word)) := by
      rw [lookup_cons_of_ne _ (other (by rw [hflag]; rfl))]
      exact hflags word hword
    rw [addParsedPropertyStatement, execBlock_cons
      (show Stmt.exec ctx (.declareNull spec.name) st =
        .ok ((), { st with locals := (spec.name, .null) :: st.locals }) from rfl)]
    apply execBlock_singleton
    rw [Stmt.exec, bind_ok (flagCheck_eq _ hlookup)]
    by_cases hset : flagSet word index = true
    · simp only [if_pos hset, hscalar] at hencodes
      have hassign : Stmt.exec ctx (.assign spec.name e)
          { st with locals := (spec.name, .null) :: st.locals } =
          .ok ((), { st with locals := (spec.name, value) :: st.locals, input := rest }) := by
        have heval : ctx.eval e { st with locals := (spec.name, .null) :: st.locals } =
            .ok (value, { st with locals := (spec.name, .null) :: st.locals, input := rest }) :=
          eval_of_encodes reads shape hencodes input
        rw [Stmt.exec, bind_ok heval]
        exact assignLocal_head ..
      rw [if_pos hset]
      exact inBlock_eq [] _ (execBlock_singleton hassign) rfl rfl
    · simp only [if_neg hset] at hencodes
      obtain ⟨rfl, rfl⟩ := hencodes
      rw [if_neg hset]
      rw [List.nil_append] at input
      rw [← input]
      rfl

/-- The loop reads the elements of a list. -/
theorem exec_concat {element : TLTypeSpec} {name : String} {elements values : List Value}
    {n fuel : ℕ} {locals : List (String × Value)} (reads : ctx.Reads form instances parsers)
    (fresh : arrayElementName ≠ name) (bound : n < 2 ^ 31)
    (length : elements.length + values.length = n) (enough : values.length < fuel)
    (hlocals : st.locals = loopLocals name elements n locals)
    (encodes : Concat (EncodesScalar form instances parsers element) values bytes)
    (input : st.input = bytes ++ rest) :
    whileLoop (shorter name (sizeFieldName name)) (elementBody ctx name element) fuel st =
      .ok ((), { st with
          locals := loopLocals name (elements ++ values) n locals, input := rest }) := by
  induction values generalizing st elements fuel bytes with
  | nil =>
    obtain rfl : bytes = [] := encodes
    obtain ⟨fuel, rfl⟩ : ∃ k, fuel = k + 1 := ⟨fuel - 1, by omega⟩
    have hdone : ¬ elements.length < n := by
      rw [List.length_nil] at length
      omega
    rw [whileLoop, bind_ok (shorter_eq bound (by omega) hlocals), if_neg (by simpa using hdone)]
    rw [List.nil_append] at input
    rw [List.append_nil, ← hlocals, ← input]
    rfl
  | cons value values ih =>
    obtain ⟨head, tail, hhead, htail, rfl⟩ := encodes
    obtain ⟨fuel, rfl⟩ : ∃ k, fuel = k + 1 := ⟨fuel - 1, by omega⟩
    rw [List.length_cons] at length enough
    have hmore : elements.length < n := by omega
    obtain ⟨e, shape⟩ := shape_of_encodesScalar hhead
    rw [List.append_assoc] at input
    have hread := eval_of_encodes reads shape hhead input
    have hlength : (elements ++ [value]).length + values.length = n := by
      rw [List.length_append, List.length_singleton]
      omega
    rw [whileLoop, bind_ok (shorter_eq bound (by omega) hlocals), if_pos (by simpa using hmore),
      bind_ok (exec_element shape fresh hlocals hread), ih hlength (by omega) rfl htail rfl]
    simp only [List.append_assoc, List.singleton_append]

theorem exec_collection {element : TLTypeSpec} {name : String} {elements : List Value}
    {head tail : List UInt8} (reads : ctx.Reads form instances parsers)
    (fresh : arrayElementName ≠ name) (bound : elements.length < 2 ^ 31)
    (size : form (.int (BitVec.ofNat 32 elements.length)) head)
    (encodes : Concat (EncodesScalar form instances parsers element) elements tail)
    (input : st.input = head ++ tail ++ rest) :
    execBlock ctx (addPropertyParseStatement name (.collection element) none) st =
      .ok ((), { st with
        locals := loopLocals name elements elements.length st.locals
        input := rest }) := by
  rw [List.append_assoc] at input
  have hsize : ctx.codec.read .int st.input =
      .ok (.int (BitVec.ofNat 32 elements.length), tail ++ rest) := by
    rw [input]
    exact reads.prim _ _ _ size
  have hloop : whileLoop (shorter name (sizeFieldName name)) (elementBody ctx name element) ctx.fuel
        { st with
          locals := loopLocals name [] elements.length st.locals
          input := tail ++ rest } =
      .ok ((), { st with
        locals := loopLocals name ([] ++ elements) elements.length st.locals
        input := rest }) :=
    exec_concat reads fresh bound (Nat.zero_add _) (Nat.lt_of_lt_of_le bound reads.fuel) rfl encodes
      rfl
  rw [exec_collection_loop bound hsize, hloop, List.nil_append]

/-- The statements of one field read its encoding. -/
theorem exec_property (reads : ctx.Reads form instances parsers)
    (fresh : ∀ element, spec.typeSpec.content = .collection element → spec.name ≠ arrayElementName)
    (unflagged : ∀ element, spec.typeSpec.content = .collection element → spec.flag = none)
    (other : spec.flag.isSome → flagsPropertyName ≠ spec.name)
    (hflags : ∀ word ∈ flags, st.locals.lookup flagsPropertyName = some (.prim (.int word)))
    (encodes : EncodesField form instances parsers flags spec value bytes)
    (input : st.input = bytes ++ rest) :
    execBlock ctx (addPropertyParseStatement spec.name spec.typeSpec spec.flag) st =
      .ok ((), { st with locals := propertyLocals spec value ++ st.locals, input := rest }) := by
  by_cases hlist : ∃ element, spec.typeSpec.content = .collection element
  · obtain ⟨element, hcontent⟩ := hlist
    have hnone := unflagged element hcontent
    rw [encodesField_none hnone, encodesType_of_collection hcontent] at encodes
    obtain ⟨elements, head, tail, rfl, bound, hhead, htail, rfl⟩ := encodes
    rw [propertyLocals_of_collection hcontent, hnone, ← addPropertyParseStatement_content, hcontent]
    exact exec_collection reads (fresh element hcontent).symm bound hhead htail input
  have hne : ∀ element, spec.typeSpec.content ≠ .collection element :=
    fun element hcontent => hlist ⟨element, hcontent⟩
  rw [propertyLocals_of_ne hne]
  cases hflag : spec.flag with
  | none =>
    rw [← hflag]
    have hscalar := encodes
    rw [encodesField_none hflag, encodesType_of_ne hne] at hscalar
    obtain ⟨e, shape⟩ := shape_of_encodesScalar hscalar
    exact exec_value reads shape other hflags encodes input
  | some index =>
    by_cases htype : spec.typeSpec = .flag
    · rw [encodesField_flag hflag htype] at encodes
      obtain ⟨word, hword, rfl, rfl⟩ := encodes
      have hcheck : ctx.eval (.flagCheck (flagPosition index)) st =
          .ok (.prim (.boolean (flagSet word index)), st) := by
        rw [Context.eval, bind_ok (flagCheck_eq _ (hflags word hword))]
        rfl
      rw [List.nil_append] at input
      rw [htype, ← input]
      exact exec_declare hcheck
    · rw [← hflag]
      have hnullable := ((encodesField_some hflag htype).1 encodes).1
      obtain ⟨e, shape⟩ := hnullable.shape_eq hne
      exact exec_value reads shape other hflags encodes input

/-! ## Records -/

/-- The locals after all fields, over those before them. -/
def recordLocals : List TLPropertySpec → List Value → List (String × Value) → List (String × Value)
  | spec :: specs, value :: values, locals =>
    recordLocals specs values (propertyLocals spec value ++ locals)
  | _, _, locals => locals

theorem propertyLocals_prim (spec : TLPropertySpec) (p : Prim) :
    propertyLocals spec (.prim p) = [(spec.name, .prim p)] := by
  unfold propertyLocals
  split
  · next hvalue => cases hvalue
  · rfl

theorem mem_propertyLocals {name : String} (h : name ∈ (propertyLocals spec value).map Prod.fst) :
    name = spec.name ∨ name = sizeFieldName spec.name := by
  unfold propertyLocals at h
  split at h
  · simpa [loopLocals] using h
  · exact .inl (by simpa using h)

theorem lookup_propertyLocals_self {locals : List (String × Value)} :
    (propertyLocals spec value ++ locals).lookup spec.name = some value := by
  unfold propertyLocals
  split <;> exact lookup_cons_self _

theorem name_mem_propertyLocals (spec : TLPropertySpec) (value : Value) :
    spec.name ∈ (propertyLocals spec value).map Prod.fst := by
  unfold propertyLocals
  split <;> exact List.mem_cons_self ..

theorem lookup_append_of_not_mem {name : String} {inner locals : List (String × Value)}
    (h : name ∉ inner.map Prod.fst) : (inner ++ locals).lookup name = locals.lookup name := by
  have hnone : inner.lookup name = none := by
    rw [List.lookup_eq_none_iff]
    intro p hp
    rw [bne_iff_ne]
    rintro rfl
    exact h (List.mem_map_of_mem hp)
  rw [List.lookup_append, hnone, Option.none_or]

/-- A field that is encoded declares its locals. -/
theorem map_fst_propertyLocals
    (unflagged : ∀ element, spec.typeSpec.content = .collection element → spec.flag = none)
    (encodes : EncodesField form instances parsers flags spec value bytes) :
    (propertyLocals spec value).map Prod.fst = spec.declaredNames := by
  by_cases hlist : ∃ element, spec.typeSpec.content = .collection element
  · obtain ⟨element, hcontent⟩ := hlist
    rw [encodesField_none (unflagged element hcontent), encodesType_of_collection hcontent]
      at encodes
    obtain ⟨elements, head, tail, rfl, -⟩ := encodes
    rw [propertyLocals_of_collection hcontent, TLPropertySpec.declaredNames, TLPropertySpec.locals,
      ← TLTypeSpec.shape_content, hcontent]
    rfl
  have hne : ∀ element, spec.typeSpec.content ≠ .collection element :=
    fun element hcontent => hlist ⟨element, hcontent⟩
  have hvalue (e : Expr) (shape : spec.typeSpec.shape = .value e) :
      [spec.name] = spec.declaredNames := by
    rw [TLPropertySpec.declaredNames, TLPropertySpec.locals, shape]
    rfl
  rw [propertyLocals_of_ne hne]
  cases hflag : spec.flag with
  | none =>
    rw [encodesField_none hflag, encodesType_of_ne hne] at encodes
    obtain ⟨e, shape⟩ := shape_of_encodesScalar encodes
    exact hvalue e shape
  | some index =>
    by_cases htype : spec.typeSpec = .flag
    · rw [TLPropertySpec.declaredNames, TLPropertySpec.locals, htype, hflag]
      rfl
    · obtain ⟨e, shape⟩ := ((encodesField_some hflag htype).1 encodes).1.shape_eq hne
      exact hvalue e shape

theorem isSome_of_encodesField (hflag : spec.flag.isSome)
    (encodes : EncodesField form instances parsers flags spec value bytes) : flags.isSome := by
  obtain ⟨index, hindex⟩ := Option.isSome_iff_exists.1 hflag
  by_cases htype : spec.typeSpec = .flag
  · obtain ⟨word, hword, -⟩ := (encodesField_flag hindex htype).1 encodes
    exact Option.isSome_of_mem hword
  · obtain ⟨-, word, hword, -⟩ := (encodesField_some hindex htype).1 encodes
    exact Option.isSome_of_mem hword

theorem sizeFieldName_ne_flags (name : String) : sizeFieldName name ≠ flagsPropertyName := by
  intro h
  have hlast := congrArg (fun s => s.toList.getLast?) h
  simp [sizeFieldName, flagsPropertyName] at hlast

/-- The local `flags` is the word that the fields behind are tested with. -/
theorem lookup_flags_propertyLocals {locals : List (String × Value)}
    (hflags : ∀ word ∈ flags, locals.lookup flagsPropertyName = some (.prim (.int word))) :
    ∀ word ∈ flagsAfter flags spec value,
      (propertyLocals spec value ++ locals).lookup flagsPropertyName =
        some (.prim (.int word)) := by
  intro word hword
  unfold flagsAfter at hword
  split at hword
  · next hname =>
    split at hword
    · obtain rfl := Option.some.inj hword
      rw [propertyLocals_prim, hname]
      exact lookup_cons_self _
    · cases hword
  · next hname =>
    rw [lookup_append_of_not_mem]
    · exact hflags word hword
    · intro hmem
      rcases mem_propertyLocals hmem with h | h
      · exact hname h.symm
      · exact sizeFieldName_ne_flags spec.name h.symm

theorem isSome_flagsAfter (h : (flagsAfter flags spec value).isSome) :
    flags.isSome ∨ spec.name = flagsPropertyName := by
  unfold flagsAfter at h
  split at h
  · next hname => exact .inr hname
  · exact .inl h

/-- The statements of all fields read the encoding of a record. -/
theorem exec_fields {specs : List TLPropertySpec} {values : List Value}
    (reads : ctx.Reads form instances parsers)
    (fresh : ∀ spec ∈ specs, ∀ element, spec.typeSpec.content = .collection element →
      spec.name ≠ arrayElementName)
    (unflagged : ∀ spec ∈ specs, ∀ element, spec.typeSpec.content = .collection element →
      spec.flag = none)
    (nodup : (specs.flatMap TLPropertySpec.declaredNames).Nodup)
    (other : flags.isSome → flagsPropertyName ∉ specs.flatMap TLPropertySpec.declaredNames)
    (hflags : ∀ word ∈ flags, st.locals.lookup flagsPropertyName = some (.prim (.int word)))
    (encodes : EncodesFields form instances parsers flags specs values bytes)
    (input : st.input = bytes ++ rest) :
    execBlock ctx (specs.flatMap fun spec =>
        addPropertyParseStatement spec.name spec.typeSpec spec.flag) st =
      .ok ((), { st with locals := recordLocals specs values st.locals, input := rest }) := by
  induction specs generalizing values st bytes flags with
  | nil =>
    cases values with
    | nil =>
      obtain rfl : bytes = [] := encodes
      rw [List.nil_append] at input
      rw [List.flatMap_nil, execBlock_nil, ← input]
      rfl
    | cons value values => exact encodes.elim
  | cons spec specs ih =>
    cases values with
    | nil => exact encodes.elim
    | cons value values =>
      obtain ⟨head, tail, hhead, htail, rfl⟩ := encodes
      rw [List.append_assoc] at input
      simp only [List.flatMap_cons, List.mem_append, not_or] at nodup other
      obtain ⟨-, hnodup, hdisjoint⟩ := List.nodup_append.1 nodup
      have hunflagged := unflagged spec (List.mem_cons_self ..)
      have hdeclared := name_mem_declaredNames hhead
      have hother (hflag : spec.flag.isSome) : flagsPropertyName ≠ spec.name := by
        intro hname
        exact (other (isSome_of_encodesField hflag hhead)).1 (hname ▸ hdeclared)
      have hspec :=
        exec_property reads (fresh spec (List.mem_cons_self ..)) hunflagged hother hflags
        hhead input
      rw [List.flatMap_cons, execBlock_append hspec]
      refine ih (fun s hs => fresh s (List.mem_cons_of_mem _ hs))
        (fun s hs => unflagged s (List.mem_cons_of_mem _ hs)) hnodup (fun hsome hmem => ?_)
        (lookup_flags_propertyLocals hflags) htail rfl
      rcases isSome_flagsAfter hsome with h | hname
      · exact (other h).2 hmem
      · exact hdisjoint _ hdeclared _ hmem hname

theorem constructorArguments_eq {specs : List TLPropertySpec} {values : List Value}
    (h : List.Forall₂ (fun spec value => st.locals.lookup spec.name = some value) specs values) :
    constructorArguments specs st = .ok (values, st) := by
  induction h with
  | nil => rfl
  | cons hspec _ ih =>
    rw [constructorArguments, List.mapM_cons, bind_ok (lookupLocal_eq hspec)]
    rw [constructorArguments] at ih
    rw [bind_ok ih]
    rfl

/-- The fields of a record declare their locals. -/
theorem declares_of_encodesFields {specs : List TLPropertySpec} {values : List Value}
    (unflagged : ∀ spec ∈ specs, ∀ element, spec.typeSpec.content = .collection element →
      spec.flag = none)
    (encodes : EncodesFields form instances parsers flags specs values bytes) :
    List.Forall₂ (fun spec value => (propertyLocals spec value).map Prod.fst = spec.declaredNames)
      specs values := by
  induction specs generalizing values bytes flags with
  | nil =>
    cases values with
    | nil => exact .nil
    | cons value values => exact encodes.elim
  | cons spec specs ih =>
    cases values with
    | nil => exact encodes.elim
    | cons value values =>
      obtain ⟨head, tail, hhead, htail, -⟩ := encodes
      exact .cons (map_fst_propertyLocals (unflagged spec (List.mem_cons_self ..)) hhead)
        (ih (fun s hs => unflagged s (List.mem_cons_of_mem _ hs)) htail)

theorem lookup_recordLocals_of_not_mem {specs : List TLPropertySpec} {values : List Value}
    {name : String} {locals : List (String × Value)}
    (declares : List.Forall₂
      (fun spec value => (propertyLocals spec value).map Prod.fst =
        spec.declaredNames) specs values)
    (h : name ∉ specs.flatMap TLPropertySpec.declaredNames) :
    (recordLocals specs values locals).lookup name = locals.lookup name := by
  induction declares generalizing locals with
  | nil => rfl
  | cons head _ ih =>
    rw [List.flatMap_cons, List.mem_append, not_or] at h
    rw [recordLocals, ih h.2, lookup_append_of_not_mem (head ▸ h.1)]

/-- Every field is found under its name. -/
theorem forall₂_lookup_recordLocals {specs : List TLPropertySpec} {values : List Value}
    {locals : List (String × Value)}
    (declares : List.Forall₂
      (fun spec value => (propertyLocals spec value).map Prod.fst =
        spec.declaredNames) specs values)
    (nodup : (specs.flatMap TLPropertySpec.declaredNames).Nodup) :
    List.Forall₂ (fun spec value =>
      (recordLocals specs values locals).lookup spec.name = some value) specs values := by
  induction declares generalizing locals with
  | nil => exact .nil
  | @cons spec value specs values head tail ih =>
    rw [List.flatMap_cons, List.nodup_append] at nodup
    refine .cons ?_ (ih nodup.2.1)
    rw [recordLocals, lookup_recordLocals_of_not_mem tail, lookup_propertyLocals_self]
    intro hmem
    exact nodup.2.2 spec.name (head ▸ name_mem_propertyLocals spec value) spec.name hmem rfl

/-- The generated `parse` of a variant or a container reads the encoding of a record. -/
theorem runParse_of_encodes {hasFlags : Bool} {specs : List TLPropertySpec} {values : List Value}
    (reads : ctx.Reads form instances parsers) (regular : Regular hasFlags specs)
    (encodes : EncodesRecord form instances parsers hasFlags specs values bytes) :
    ctx.runParse hasFlags specs (bytes ++ rest) = .ok (values, rest) := by
  obtain ⟨-, hnodup, hdisjoint⟩ := List.nodup_append.1 regular.nodup
  -- the flags word, where there is one, is a local before the first field
  obtain ⟨flags, locals, tail, hfront, hother, hlookup, htail⟩ : ∃ flags locals tail,
      execBlock ctx (if hasFlags then addLocalPropertyParseStatement flagsPropertyName .int none
        else []) ⟨[], bytes ++ rest, []⟩ = .ok ((), ⟨locals, tail ++ rest, []⟩) ∧
      (flags.isSome → flagsPropertyName ∉ specs.flatMap TLPropertySpec.declaredNames) ∧
      (∀ word ∈ flags, locals.lookup flagsPropertyName = some (.prim (.int word))) ∧
      EncodesFields form instances parsers flags specs values tail := by
    cases hasFlags with
    | false => exact ⟨none, [], bytes, execBlock_nil ctx, by simp, by simp, encodes⟩
    | true =>
      obtain ⟨word, head, tail, hhead, htail, rfl⟩ := encodes
      refine ⟨some word, [(flagsPropertyName, .prim (.int word))], tail, ?_, fun _ hmem => ?_, ?_,
        htail⟩
      · rw [List.append_assoc]
        exact exec_read (reads.prim _ _ _ hhead)
      · exact hdisjoint flagsPropertyName (List.mem_singleton_self _) _ hmem rfl
      · rintro _ ⟨⟩
        exact lookup_cons_self _
  have hfields : execBlock ctx (specs.flatMap fun spec =>
        addPropertyParseStatement spec.name spec.typeSpec spec.flag) ⟨locals, tail ++ rest, []⟩ =
      .ok ((), ⟨recordLocals specs values locals, rest, []⟩) :=
    exec_fields reads regular.fresh regular.unflagged hnodup hother hlookup htail rfl
  have harguments : constructorArguments specs ⟨recordLocals specs values locals, rest, []⟩ =
      .ok (values, ⟨recordLocals specs values locals, rest, []⟩) :=
    constructorArguments_eq
      (forall₂_lookup_recordLocals (declares_of_encodesFields regular.unflagged htail) hnodup)
  have hbody : execBlock ctx (addObjectParseFunction hasFlags specs) ⟨[], bytes ++ rest, []⟩ =
      .ok ((), ⟨recordLocals specs values locals, rest, []⟩) := by
    rw [addObjectParseFunction, execBlock_append hfront, hfields]
  rw [Context.runParse]
  simp only [bind_ok hbody, harguments]

end Reading

/-! ## Super types -/

/-- The branch of a variant. -/
def branchOf (variant : TLObjectSpec) : Branch :=
  if variant.propertiesSpecs.isEmpty then .singleton variant
  else .parse variant (variant.genericVariables.map createTypeParserParameterName)

theorem variant_branchOf (variant : TLObjectSpec) : (branchOf variant).variant = variant := by
  unfold branchOf
  split <;> rfl

/-- The `when` takes the branch of the first variant with the hash. -/
theorem find?_branch {variants : List TLObjectSpec} {spec : TLObjectSpec} {hash : BitVec 32}
    (h : (variants.find? fun variant => variant.constructorHash == hash) = some spec) :
    (addBaseObjectParseFunction variants).find?
        (fun branch => branch.variant.constructorHash == hash) = some (branchOf spec) := by
  change (variants.map branchOf).find? _ = _
  have hvariant : ((fun branch : Branch => branch.variant.constructorHash == hash) ∘ branchOf) =
      fun variant => variant.constructorHash == hash := by
    funext variant
    rw [Function.comp_apply, variant_branchOf]
  rw [List.find?_map, hvariant, h]
  rfl

section SuperTypes

variable {scheme : Scheme} {codec : Codec} {form : Prim → List UInt8 → Prop}

/-- The branch of a variant reads what follows its constructor hash. -/
theorem runBranch_of_encodes {ctx : Context} {instances : ParserClass → List Encoding → Encoding}
    {spec : TLObjectSpec} {given : List Parser} {encodings : List Encoding} {fields : List Value}
    {bytes rest : List UInt8}
    (reads : Context.Reads
      { ctx with
        parsers := (spec.genericVariables.map createTypeParserParameterName).zip given }
      form instances ((spec.genericVariables.map createTypeParserParameterName).zip encodings))
    (parameters : (spec.genericVariables.map createTypeParserParameterName).mapM ctx.lookupParser =
      .ok given)
    (regular : Regular spec.hasFlags spec.propertiesSpecs)
    (some_field : spec.hasFlags = true → spec.propertiesSpecs ≠ [])
    (encodes : EncodesRecord form instances
      ((spec.genericVariables.map createTypeParserParameterName).zip encodings) spec.hasFlags
      spec.propertiesSpecs fields bytes) :
    ctx.runBranch (branchOf spec) (bytes ++ rest) = .ok (.object spec fields, rest) := by
  unfold branchOf
  by_cases hempty : spec.propertiesSpecs = []
  · have hflags : spec.hasFlags = false := by
      rw [← Bool.not_eq_true]
      exact fun h => some_field h hempty
    rw [EncodesRecord, hflags, hempty] at encodes
    rw [if_pos (List.isEmpty_iff.2 hempty)]
    cases fields with
    | nil =>
      obtain rfl : bytes = [] := encodes
      rfl
    | cons field fields => exact encodes.elim
  · rw [if_neg (by simpa using hempty), Context.runBranch]
    simp only [parameters, bind, Except.bind]
    rw [runParse_of_encodes reads regular encodes]

/-- A stream that reads every form of the primitives reads every encoding of a value. -/
theorem parse_of_encodes (regular : scheme.Regular)
    (reads : ∀ p bytes rest, form p bytes → codec.read p.clazz (bytes ++ rest) = .ok (p, rest))
    {depth fuel : ℕ} (enough : depth + 2 ^ 31 ≤ fuel) {type : ParserClass} {given : List Parser}
    {encodings : List Encoding} (arguments : List.Forall₂ ReadsAs given encodings) :
    ReadsAs (parse scheme codec fuel type given) (Encodes scheme form depth type encodings) := by
  induction depth generalizing fuel type given encodings with
  | zero => exact fun value bytes rest encodes => encodes.elim
  | succ depth ih =>
    intro value bytes rest encodes
    obtain ⟨fuel, rfl⟩ : ∃ k, fuel = k + 1 := ⟨fuel - 1, by omega⟩
    have hcontext (names : List String) {given : List Parser} {encodings : List Encoding}
        (h : List.Forall₂ ReadsAs given encodings) :
        Context.Reads
          ⟨codec, parse scheme codec fuel, names.zip given, fun _ => .error .unresolved, fuel⟩
          form (Encodes scheme form depth) (names.zip encodings) :=
      { prim := reads
        parse := fun _ _ _ hgiven => ih (by omega) hgiven
        parsers := forall₂_zip h names
        fuel := by simp only; omega }
    cases type with
    | object type =>
      cases value with
      | object spec fields =>
        obtain ⟨superType, taken, head, tail, hscheme, hfind, hfields, hvariables, hhead, htail,
          rfl⟩ := encodes
        have hmem := List.mem_of_find?_eq_some hfind
        have hread := reads (.int spec.constructorHash) head (tail ++ rest) hhead
        rw [Prim.clazz] at hread
        have hbase := hcontext (superType.typeVariables.map createTypeParserParameterName) arguments
        obtain ⟨given', hgiven, hreads⟩ :=
          forall₂_exists hvariables fun _ _ h => lookupParser_of_encoding hbase h
        rw [parse, hscheme, List.append_assoc]
        simp only [Context.runBaseParse, hread]
        simp only [bind, Except.bind, find?_branch hfind]
        exact runBranch_of_encodes (hcontext _ hreads) (mapM_of_forall₂ hgiven)
          (regular.objects type superType hscheme spec hmem).1 hfields htail
      | null | prim p | list elements | container spec fields => exact encodes.elim
    | container type =>
      cases value with
      | container spec fields =>
        obtain ⟨hscheme, hrecord⟩ := encodes
        have hregular := regular.containers type spec hscheme
        rw [parse, hscheme]
        simp only [runParse_of_encodes (hcontext _ arguments) hregular hrecord]
        rfl
      | null | prim p | list elements | object spec fields => exact encodes.elim

end SuperTypes

end Mtproto.Generator
