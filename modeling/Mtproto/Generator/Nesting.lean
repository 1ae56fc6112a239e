import Mtproto.Generator.RoundTrip

/-!
# Bytes at every nesting

One property whose type is built from primitives, bytes and collections, written and read through
the Java buffer.  The two generators disagree in two places.  Fixed-size bytes are written with the
length prefix and the padding of `writeByteArray` and read without them, and the loop of a
collection inside a collection declares an `element` that hides the list it should add to, so that
it does not compile.  `roundTripsAt_iff` says that nothing else goes wrong.
-/

namespace Mtproto.Generator

/-! ## Compiling -/

/-- What the compiler knows of the locals: is this one a list? -/
abbrev Scope := List (String × Bool)

mutual

/-- The scope after a statement; `none` if it asks something else for a member of a list. -/
def Stmt.check : Stmt → Scope → Option Scope
  | .declare name _, scope => some ((name, false) :: scope)
  | .declareNull name, scope => some ((name, false) :: scope)
  | .ifFlag _ body, scope =>
    match checkBlock body scope with
    | some _ => some scope
    | none => none
  | .newArrayList name _, scope => some ((name, true) :: scope)
  | .whileShorter name _ body, scope =>
    if scope.lookup name = some true then
      match checkBlock body scope with
      | some _ => some scope
      | none => none
    else none
  | .add name _, scope => if scope.lookup name = some true then some scope else none
  | _, scope => some scope

def checkBlock : List Stmt → Scope → Option Scope
  | [], scope => some scope
  | stmt :: stmts, scope =>
    match stmt.check scope with
    | some scope => checkBlock stmts scope
    | none => none

end

/-- Do the parse statements of a property compile? -/
def Compiles (name : String) (type : TLTypeSpec) : Prop :=
  (checkBlock (addPropertyParseStatement name type none) []).isSome

/-! ## Running one property -/

/-- A function without calls to other generated functions. -/
def leafContext (codec : Codec) (fuel : ℕ) : Context :=
  ⟨codec, fun _ _ _ => .error .unresolved, [], fun _ => .error .unresolved, fuel⟩

/-- Run the parse statements of an unflagged property and look the property up. -/
def Context.parseProperty (ctx : Context) (name : String) (type : TLTypeSpec) : Parser :=
  fun input =>
  let body : Kotlin Value := do
    execBlock ctx (addPropertyParseStatement name type none)
    lookupLocal name
  match body ⟨[], input, []⟩ with
  | .ok (value, st) => .ok (value, st.input)
  | .error failure => .error failure

/-- Run the serialize statements of an unflagged property. -/
def Context.serializeProperty (ctx : Context) (name : String) (type : TLTypeSpec) (value : Value) :
    Except Failure (List UInt8) :=
  ctx.runSerialize [(name, value)] (addPropertySerializeStatement name type none)

/-- The parse code compiles and reads back what the serialize code writes, whatever follows and
whatever the platform makes of malformed strings. -/
def RoundTripsAt (name : String) (type : TLTypeSpec) (value : Value) : Prop :=
  Compiles name type ∧
    ∀ malformed, ∃ enough, ∀ fuel ≥ enough, ∃ bytes,
      (leafContext (Java.codec malformed) fuel).serializeProperty name type value = .ok bytes ∧
      ∀ rest, (leafContext (Java.codec malformed) fuel).parseProperty name type (bytes ++ rest) =
        .ok (value, rest)

/-! ## Types and values -/

/-- Built from primitives, bytes and collections. -/
def TLTypeSpec.IsData : TLTypeSpec → Prop
  | .primitive _ => True
  | .bytes _ => True
  | .collection element => element.IsData
  | .genericParameter type => type.IsData
  | _ => False

def TLTypeSpec.IsCollection : TLTypeSpec → Prop
  | .collection _ => True
  | .genericParameter type => type.IsCollection
  | _ => False

/-- The values that the serialize code of a type takes. -/
def Accepts : TLTypeSpec → Value → Prop
  | .primitive clazz, .prim p => p.clazz = clazz
  | .bytes none, .prim (.byteArray _) => True
  | .bytes (some fixedSize), .prim (.byteArray value) => value.length = fixedSize
  | .collection element, .list elements =>
    elements.length < 2 ^ 31 ∧ ∀ value ∈ elements, Accepts element value
  | .genericParameter type, value => Accepts type value
  | _, _ => False

/-- No collection in a collection, no fixed-size bytes, and nothing too long for a length prefix
or not to be spelled in UTF-8. -/
def Agrees : TLTypeSpec → Value → Prop
  | .primitive _, .prim p => Java.Fits p
  | .bytes none, .prim p => Java.Fits p
  | .bytes (some _), _ => False
  | .collection element, .list elements =>
    ¬ element.IsCollection ∧ ∀ value ∈ elements, Agrees element value
  | .genericParameter type, value => Agrees type value
  | _, _ => False

theorem TLTypeSpec.IsData.simple {type : TLTypeSpec} (data : type.IsData)
    (scalar : ¬ type.IsCollection) : type.Simple := by
  induction type using TLTypeSpec.IsData.induct with
  | case1 clazz => trivial
  | case2 fixedSize => trivial
  | case3 element ih => exact absurd trivial scalar
  | case4 type ih => exact ih data scalar
  | case5 type => cases type <;> simp_all [TLTypeSpec.IsData]

/-! ## What compiles -/

theorem checkBlock_append (stmts stmts' : List Stmt) (scope : Scope) :
    checkBlock (stmts ++ stmts') scope =
      match checkBlock stmts scope with
      | some scope => checkBlock stmts' scope
      | none => none := by
  induction stmts generalizing scope with
  | nil => rw [List.nil_append, checkBlock]
  | cons stmt stmts ih =>
    rw [List.cons_append, checkBlock, checkBlock]
    cases stmt.check scope with
    | none => rfl
    | some scope => exact ih scope

/-- The loop of a collection compiles when its body does. -/
theorem checkBlock_collection (name : String) (element : TLTypeSpec) (scope : Scope) :
    checkBlock (addPropertyParseStatement name (.collection element) none) scope =
      match checkBlock (addPropertyParseStatement arrayElementName element none ++
        [.add name arrayElementName]) ((name, true) :: (sizeFieldName name, false) :: scope) with
      | some _ => some ((name, true) :: (sizeFieldName name, false) :: scope)
      | none => none := by
  rw [addPropertyParseStatement, addCollectionParseStatement]
  change checkBlock [.declare (sizeFieldName name) (.read .int),
    .newArrayList name (sizeFieldName name), .whileShorter name (sizeFieldName name) _] scope = _
  simp only [checkBlock, Stmt.check, List.lookup_cons, beq_self_eq_true, if_true]
  split <;> simp_all

theorem checkBlock_simple {type : TLTypeSpec} (simple : type.Simple) (name : String)
    (scope : Scope) :
    checkBlock (addPropertyParseStatement name type none) scope =
      some ((name, false) :: scope) := by
  rw [addPropertyParseStatement_of_simple simple, addParsedPropertyStatement]
  simp only [checkBlock, Stmt.check]

/-- A list called `element` is hidden by the element that is read into it. -/
theorem checkBlock_element_collection {type : TLTypeSpec} (data : type.IsData)
    (collection : type.IsCollection) (scope : Scope) :
    checkBlock (addPropertyParseStatement arrayElementName type none) scope = none := by
  induction type using TLTypeSpec.IsData.induct generalizing scope with
  | case1 clazz => exact collection.elim
  | case2 fixedSize => exact collection.elim
  | case3 element ih =>
    have hdata : element.IsData := data
    rw [checkBlock_collection, checkBlock_append]
    by_cases hcollection : element.IsCollection
    · rw [ih hdata hcollection]
    · rw [checkBlock_simple (hdata.simple hcollection)]
      simp [checkBlock, Stmt.check]
  | case4 type ih =>
    rw [addPropertyParseStatement]
    exact ih data collection scope
  | case5 type => cases type <;> simp_all [TLTypeSpec.IsData]

theorem compiles_collection_iff {name : String} {element : TLTypeSpec} (data : element.IsData)
    (fresh : arrayElementName ≠ name) :
    Compiles name (.collection element) ↔ ¬ element.IsCollection := by
  rw [Compiles, checkBlock_collection, checkBlock_append]
  by_cases hcollection : element.IsCollection
  · rw [checkBlock_element_collection data hcollection]
    simp [hcollection]
  · have hne : (name == arrayElementName) = false := by simpa using fresh.symm
    rw [checkBlock_simple (data.simple hcollection)]
    simp [checkBlock, Stmt.check, List.lookup_cons, hne, hcollection]

/-! ## Writing -/

section Property

variable {malformed : List UInt8 → List UInt16} {fuel : ℕ} {name : String} {type : TLTypeSpec}
  {value : Value} {st : State}

/-- What the stream writes for a value that is written by one statement. -/
def WritesScalar (codec : Codec) (value : Value) (bytes : List UInt8) : Prop :=
  ∃ p, value = .prim p ∧ codec.write p = .ok bytes

theorem exec_requireSize {ctx : Context} {v : List UInt8}
    (lookup : st.locals.lookup name = some (.prim (.byteArray v))) :
    Stmt.exec ctx (.requireSize name v.length) st = .ok ((), st) := by
  rw [Stmt.exec, bind_ok (lookupLocal_eq lookup)]
  simp only [ne_eq, not_true, if_false]
  rfl

theorem byteArray_of_accepts {fixedSize : Option ℕ} (accepts : Accepts (.bytes fixedSize) value) :
    ∃ v, value = .prim (.byteArray v) := by
  cases value with
  | prim p =>
    cases p with
    | byteArray v => exact ⟨v, rfl⟩
    | boolean value | byte value | int value | long value | double bits | string units =>
      cases fixedSize <;> exact accepts.elim
  | null | list elements | object spec fields | container spec fields =>
    cases fixedSize <;> exact accepts.elim

theorem exec_serialize_scalar {ctx : Context} (writes : ∀ p, ∃ bytes, ctx.codec.write p = .ok bytes)
    (data : type.IsData) (scalar : ¬ type.IsCollection) (accepts : Accepts type value)
    (lookup : st.locals.lookup name = some value) :
    ∃ bytes, execBlock ctx (addPropertySerializeStatement name type none) st =
        .ok ((), { st with output := st.output ++ bytes }) ∧
      WritesScalar ctx.codec value bytes := by
  induction type using TLTypeSpec.IsData.induct with
  | case1 clazz =>
    cases value with
    | prim p =>
      obtain rfl : p.clazz = clazz := accepts
      obtain ⟨bytes, hwrite⟩ := writes p
      exact ⟨bytes, exec_write lookup hwrite, p, rfl, hwrite⟩
    | null | list elements | object spec fields | container spec fields => simp [Accepts] at accepts
  | case2 fixedSize =>
    obtain ⟨v, rfl⟩ := byteArray_of_accepts accepts
    obtain ⟨bytes, hwrite⟩ := writes (.byteArray v)
    refine ⟨bytes, ?_, .byteArray v, rfl, hwrite⟩
    cases fixedSize with
    | none => exact exec_write lookup hwrite
    | some n =>
      obtain rfl : v.length = n := accepts
      exact (execBlock_cons (exec_requireSize lookup)).trans (exec_write lookup hwrite)
  | case3 element ih => exact absurd trivial scalar
  | case4 type ih =>
    rw [addPropertySerializeStatement]
    exact ih data scalar (by simpa [Accepts] using accepts)
  | case5 type => cases type <;> simp_all [TLTypeSpec.IsData]

/-! ## Reading -/

/-- A scalar is read as raw bytes of a fixed size or through the method of a primitive class. -/
theorem reader_cases (ctx : Context) (data : type.IsData) (scalar : ¬ type.IsCollection) :
    (∃ n, type.reader ctx = ctx.codec.bytesReader n ∧ (∀ value, ¬ Agrees type value) ∧
      ∀ p, Accepts type (.prim p) → ∃ v, p = .byteArray v ∧ v.length = n) ∨
    (∃ clazz, type.reader ctx = ctx.codec.reader clazz ∧
      ∀ p, Accepts type (.prim p) → p.clazz = clazz ∧ (Agrees type (.prim p) ↔ Java.Fits p)) := by
  induction type using TLTypeSpec.IsData.induct with
  | case1 clazz => exact .inr ⟨clazz, rfl, fun p h => ⟨h, Iff.rfl⟩⟩
  | case2 fixedSize =>
    cases fixedSize with
    | none =>
      refine .inr ⟨.byteArray, rfl, fun p h => ⟨?_, Iff.rfl⟩⟩
      obtain ⟨v, hv⟩ := byteArray_of_accepts h
      rw [Value.prim.inj hv]
      rfl
    | some n =>
      refine .inl ⟨n, rfl, fun value h => h, fun p h => ?_⟩
      obtain ⟨v, hv⟩ := byteArray_of_accepts h
      obtain rfl := Value.prim.inj hv
      exact ⟨v, rfl, h⟩
  | case3 element ih => exact absurd trivial scalar
  | case4 type ih => simpa only [TLTypeSpec.reader, Agrees, Accepts] using ih data scalar
  | case5 type => cases type <;> simp_all [TLTypeSpec.IsData]

theorem parseProperty_simple {ctx : Context} (simple : type.Simple) (input : List UInt8) :
    ctx.parseProperty name type input = type.reader ctx input := by
  have heval : ctx.eval type.parseStatement ⟨[], input, []⟩ =
      consume (type.reader ctx) ⟨[], input, []⟩ := eval_parseStatement simple
  rw [Context.parseProperty, addPropertyParseStatement_of_simple simple, addParsedPropertyStatement]
  cases hread : type.reader ctx input with
  | error failure =>
    have herror : execBlock ctx [.declare name type.parseStatement] ⟨[], input, []⟩ =
        .error failure := by
      refine execBlock_cons_error ?_
      rw [Stmt.exec]
      refine bind_error ?_
      rw [heval, consume, hread]
    simp only [bind_error herror]
  | ok result =>
    obtain ⟨value, rest⟩ := result
    have hok : execBlock ctx [.declare name type.parseStatement] ⟨[], input, []⟩ =
        .ok ((), ⟨[(name, value)], rest, []⟩) :=
      exec_declare (heval.trans (consume_eq hread))
    have hlookup : lookupLocal name ⟨[(name, value)], rest, []⟩ =
        .ok (value, ⟨[(name, value)], rest, []⟩) :=
      lookupLocal_eq (lookup_cons_self _)
    simp only [bind_ok hok, hlookup]

theorem parseProperty_collection {ctx : Context} {element : TLTypeSpec} {n : ℕ}
    {input mid : List UInt8} (simple : element.Simple) (fresh : arrayElementName ≠ name)
    (bound : n < 2 ^ 31) (enough : n < ctx.fuel)
    (size : ctx.codec.read .int input = .ok (.int (BitVec.ofNat 32 n), mid)) :
    ctx.parseProperty name (.collection element) input =
      match readMany (element.reader ctx) n mid with
      | .error failure => .error failure
      | .ok (values, rest) => .ok (.list values, rest) := by
  have hexec := @exec_collection_eq ctx ⟨[], input, []⟩ name n element mid simple fresh bound enough
    size
  rw [Context.parseProperty]
  cases hread : readMany (element.reader ctx) n mid with
  | error failure =>
    rw [hread] at hexec
    simp only [bind_error hexec]
  | ok result =>
    rw [hread] at hexec
    have hlookup : lookupLocal name ⟨loopLocals name result.1 n [], result.2, []⟩ =
        .ok (.list result.1, ⟨loopLocals name result.1 n [], result.2, []⟩) :=
      lookupLocal_eq (lookup_loopLocals_name _)
    simp only [bind_ok hexec, hlookup]

theorem reader_of_agrees (data : type.IsData) (scalar : ¬ type.IsCollection)
    (accepts : Accepts type value) (agrees : Agrees type value) {bytes : List UInt8}
    (written : WritesScalar (Java.codec malformed) value bytes) (rest : List UInt8) :
    type.reader (leafContext (Java.codec malformed) fuel) (bytes ++ rest) = .ok (value, rest) := by
  obtain ⟨p, rfl, hwrite⟩ := written
  rcases reader_cases (leafContext (Java.codec malformed) fuel) data scalar with
    ⟨n, -, hnone, -⟩ | ⟨clazz, hreader, hclazz⟩
  · exact absurd agrees (hnone _)
  · obtain ⟨rfl, hfits⟩ := hclazz p accepts
    have hread := Java.read_of_spells (Java.spells_write (hfits.1 agrees) hwrite) rest
    rw [hreader]
    change (Java.codec malformed).reader p.clazz (bytes ++ rest) = _
    rw [Codec.reader, hread]

theorem readMany_of_agrees (data : type.IsData) (scalar : ¬ type.IsCollection)
    {values : List Value} (accepts : ∀ value ∈ values, Accepts type value)
    (agrees : ∀ value ∈ values, Agrees type value) {bytes : List UInt8}
    (written : Concat (WritesScalar (Java.codec malformed)) values bytes) (rest : List UInt8) :
    readMany (type.reader (leafContext (Java.codec malformed) fuel)) values.length (bytes ++ rest) =
      .ok (values, rest) := by
  induction values generalizing bytes with
  | nil =>
    obtain rfl : bytes = [] := written
    rfl
  | cons value values ih =>
    obtain ⟨head, tail, hhead, htail, rfl⟩ := written
    rw [List.append_assoc, List.length_cons, readMany, reader_of_agrees data scalar
      (accepts value (List.mem_cons_self ..)) (agrees value (List.mem_cons_self ..)) hhead]
    simp only [ih (fun v hv => accepts v (List.mem_cons_of_mem _ hv))
      (fun v hv => agrees v (List.mem_cons_of_mem _ hv)) htail]

/-! ## What a round trip needs -/

theorem length_lt_writeByteArray (v : List UInt8) : v.length < (Java.writeByteArray v).length := by
  unfold Java.writeByteArray
  split_ifs
  · simp only [List.length_append, List.length_cons]
    omega
  · simp only [List.length_append, List.length_cons]
    omega

/-- Frames of fixed-size bytes are longer than the bytes. -/
theorem length_of_concat_fixed {n : ℕ} {values : List Value} {bytes : List UInt8}
    (sizes : ∀ p, .prim p ∈ values → ∃ v, p = .byteArray v ∧ v.length = n)
    (written : Concat (WritesScalar (Java.codec malformed)) values bytes) :
    values.length * (n + 1) ≤ bytes.length := by
  induction values generalizing bytes with
  | nil => simp
  | cons value values ih =>
    obtain ⟨head, tail, ⟨p, rfl, hwrite⟩, htail, rfl⟩ := written
    obtain ⟨v, rfl, rfl⟩ := sizes p (List.mem_cons_self ..)
    cases hwrite
    have hhead := length_lt_writeByteArray v
    have hrest := ih (fun p hp => sizes p (List.mem_cons_of_mem _ hp)) htail
    rw [List.length_append, List.length_cons, Nat.succ_mul]
    omega

/-- Raw reads of a fixed size consume just that size. -/
theorem length_of_readMany_fixed {n k : ℕ} {input rest : List UInt8} {values : List Value}
    (enough : k * n ≤ input.length)
    (read : readMany ((Java.codec malformed).bytesReader n) k input = .ok (values, rest)) :
    rest.length + k * n = input.length := by
  induction k generalizing input values with
  | zero =>
    cases read
    simp
  | succ k ih =>
    rw [Nat.succ_mul] at enough ⊢
    have hfirst : (Java.codec malformed).bytesReader n input =
        .ok (.prim (.byteArray (input.take n)), input.drop n) := by
      have hbytes : Java.Buffer.getBytes n input = (some (input.take n), input.drop n) := by
        rw [Java.Buffer.getBytes, if_pos (by omega)]
      simp only [Codec.bytesReader, Java.codec, Java.readBytes, Java.Buffer.catching, hbytes]
    rw [readMany, hfirst] at read
    cases hmore : readMany ((Java.codec malformed).bytesReader n) k (input.drop n) with
    | error failure =>
      simp only [hmore] at read
      cases read
    | ok result =>
      simp only [hmore, Except.ok.injEq, Prod.mk.injEq] at read
      obtain ⟨-, rfl⟩ := read
      have hdrop := ih (by rw [List.length_drop]; omega) hmore
      rw [List.length_drop] at hdrop
      omega

/-- Values that are read back through the method of their class fit. -/
theorem fits_of_readMany {clazz : PrimitiveClass} {values : List Value}
    {bytes rest rest' : List UInt8}
    (classes : ∀ p, .prim p ∈ values → p.clazz = clazz)
    (written : Concat (WritesScalar (Java.codec fun _ => [])) values bytes)
    (read : readMany ((Java.codec fun _ => []).reader clazz) values.length (bytes ++ rest) =
      .ok (values, rest')) :
    ∀ p, .prim p ∈ values → Java.Fits p := by
  induction values generalizing bytes with
  | nil => simp
  | cons value values ih =>
    obtain ⟨head, tail, ⟨p, rfl, hwrite⟩, htail, rfl⟩ := written
    obtain rfl := classes p (List.mem_cons_self ..)
    rw [List.append_assoc, List.length_cons, readMany] at read
    -- The first value fits, or else it would have been read as another one.
    have hfits : Java.Fits p := by
      by_contra hnot
      have hne := Java.read_ne_of_not_fits hnot hwrite (tail ++ rest)
      rw [Codec.reader] at read
      cases hread : (Java.codec fun _ => []).read p.clazz (head ++ (tail ++ rest)) with
      | error failure => simp [hread] at read
      | ok result =>
        obtain ⟨q, rest₁⟩ := result
        simp only [hread] at read
        split at read
        · cases read
        · simp only [Except.ok.injEq, Prod.mk.injEq, List.cons.injEq, Value.prim.injEq] at read
          rw [read.1.1] at hread
          exact hne rest₁ hread
    have hread : (Java.codec fun _ => []).reader p.clazz (head ++ (tail ++ rest)) =
        .ok (.prim p, tail ++ rest) := by
      rw [Codec.reader, Java.read_of_spells (Java.spells_write hfits hwrite)]
    simp only [hread] at read
    split at read
    · cases read
    · rename_i values' rest'' hmore
      simp only [Except.ok.injEq, Prod.mk.injEq, List.cons.injEq, true_and] at read
      obtain ⟨rfl, rfl⟩ := read
      intro q hq
      rcases List.mem_cons.1 hq with hq | hq
      · rwa [Value.prim.inj hq]
      · exact ih (fun q hq => classes q (List.mem_cons_of_mem _ hq)) htail hmore q hq

/-- Scalars that are read back one after the other, with nothing left over, agree. -/
theorem agrees_of_readMany (data : type.IsData) (scalar : ¬ type.IsCollection) {values : List Value}
    (accepts : ∀ value ∈ values, Accepts type value) {bytes rest : List UInt8}
    (written : Concat (WritesScalar (Java.codec fun _ => [])) values bytes)
    (read : readMany (type.reader (leafContext (Java.codec fun _ => []) fuel)) values.length
      (bytes ++ rest) = .ok (values, rest)) :
    ∀ value ∈ values, Agrees type value := by
  rcases reader_cases (leafContext (Java.codec fun _ => []) fuel) data scalar with
    ⟨n, hreader, -, hsizes⟩ | ⟨clazz, hreader, hclazz⟩
  · rw [hreader] at read
    have hwritten := length_of_concat_fixed (fun p hp => hsizes p (accepts _ hp)) written
    rw [Nat.mul_succ] at hwritten
    have hread := length_of_readMany_fixed (by rw [List.length_append]; omega) read
    rw [List.length_append] at hread
    -- Every element would leave at least a byte unread.
    have hnil : values.length = 0 := by omega
    intro value hvalue
    rw [List.length_eq_zero_iff.1 hnil] at hvalue
    exact absurd hvalue List.not_mem_nil
  · rw [hreader] at read
    have hfits := fits_of_readMany (fun p hp => (hclazz p (accepts _ hp)).1) written read
    intro value hvalue
    obtain ⟨bytes, p, rfl, -⟩ := written.exists_of_mem hvalue
    exact (hclazz p (accepts _ hvalue)).2.2 (hfits p hvalue)

/-! ## Exactly when the two generators agree -/

theorem roundTripsAt_scalar_iff (data : type.IsData) (scalar : ¬ type.IsCollection)
    (accepts : Accepts type value) : RoundTripsAt name type value ↔ Agrees type value := by
  have hwrites (malformed : List UInt8 → List UInt16) (fuel : ℕ) : ∃ bytes,
      (leafContext (Java.codec malformed) fuel).serializeProperty name type value = .ok bytes ∧
      WritesScalar (Java.codec malformed) value bytes := by
    obtain ⟨bytes, hexec, hwritten⟩ : ∃ bytes,
        execBlock (leafContext (Java.codec malformed) fuel)
          (addPropertySerializeStatement name type none) ⟨[(name, value)], [], []⟩ =
            .ok ((), ⟨[(name, value)], [], [] ++ bytes⟩) ∧
        WritesScalar (Java.codec malformed) value bytes :=
      exec_serialize_scalar (fun p => Java.write_eq_ok p) data scalar accepts (lookup_cons_self _)
    exact ⟨bytes, runSerialize_eq hexec, hwritten⟩
  constructor
  · rintro ⟨-, h⟩
    obtain ⟨fuel, hfuel⟩ := h fun _ => []
    obtain ⟨bytes, hserialize, hparse⟩ := hfuel fuel (Nat.le_refl _)
    obtain ⟨bytes', hserialize', hwritten⟩ := hwrites (fun _ => []) fuel
    obtain rfl : bytes' = bytes := Except.ok.inj (hserialize'.symm.trans hserialize)
    have hread := hparse []
    rw [parseProperty_simple (data.simple scalar)] at hread
    have hmany : readMany (type.reader (leafContext (Java.codec fun _ => []) fuel)) [value].length
        (bytes' ++ [] ++ []) = .ok ([value], []) := by
      rw [List.append_nil, List.length_singleton, readMany, hread]
      rfl
    have hconcat : Concat (WritesScalar (Java.codec fun _ => [])) [value] (bytes' ++ []) :=
      ⟨bytes', [], hwritten, rfl, rfl⟩
    exact agrees_of_readMany data scalar (by simpa using accepts) hconcat hmany value
      (List.mem_singleton_self _)
  · intro agrees
    refine ⟨?_, fun malformed => ⟨0, fun fuel _ => ?_⟩⟩
    · rw [Compiles, checkBlock_simple (data.simple scalar)]
      rfl
    · obtain ⟨bytes, hserialize, hwritten⟩ := hwrites malformed fuel
      refine ⟨bytes, hserialize, fun rest => ?_⟩
      rw [parseProperty_simple (data.simple scalar)]
      exact reader_of_agrees data scalar accepts agrees hwritten rest

theorem roundTripsAt_collection_iff {element : TLTypeSpec} (data : element.IsData)
    (accepts : Accepts (.collection element) value) (fresh : arrayElementName ≠ name) :
    RoundTripsAt name (.collection element) value ↔ Agrees (.collection element) value := by
  cases value with
  | null | prim p | object spec fields | container spec fields => exact accepts.elim
  | list elements =>
    obtain ⟨bound, helements⟩ := accepts
    by_cases hcollection : element.IsCollection
    · refine ⟨fun h => ?_, fun h => absurd hcollection h.1⟩
      exact absurd hcollection ((compiles_collection_iff data fresh).1 h.1)
    have hwrites (malformed : List UInt8 → List UInt16) (fuel : ℕ) : ∃ tail,
        (leafContext (Java.codec malformed) fuel).serializeProperty name (.collection element)
          (.list elements) = .ok (Java.writeInt (BitVec.ofNat 32 elements.length) ++ tail) ∧
        Concat (WritesScalar (Java.codec malformed)) elements tail := by
      obtain ⟨tail, hexec, hwritten⟩ : ∃ tail,
          execBlock (leafContext (Java.codec malformed) fuel)
            (addPropertySerializeStatement name (.collection element) none)
              ⟨[(name, .list elements)], [], []⟩ =
            .ok ((), ⟨[(name, .list elements)], [],
              [] ++ (Java.writeInt (BitVec.ofNat 32 elements.length) ++ tail)⟩) ∧
          Concat (WritesScalar (Java.codec malformed)) elements tail :=
        exec_serialize_elements (lookup_cons_self _) rfl fun value hvalue st hit =>
          exec_serialize_scalar (fun p => Java.write_eq_ok p) data hcollection
            (helements value hvalue) hit
      exact ⟨tail, runSerialize_eq hexec, hwritten⟩
    have hparse (malformed : List UInt8 → List UInt16) {fuel : ℕ} (enough : elements.length < fuel)
        (tail : List UInt8) :
        (leafContext (Java.codec malformed) fuel).parseProperty name (.collection element)
            (Java.writeInt (BitVec.ofNat 32 elements.length) ++ tail) =
          match readMany (element.reader (leafContext (Java.codec malformed) fuel))
            elements.length tail with
          | .error failure => .error failure
          | .ok (values, rest) => .ok (.list values, rest) :=
      parseProperty_collection (data.simple hcollection) fresh bound enough
        (Java.read_of_spells (p := .int _) rfl tail)
    constructor
    · rintro ⟨-, h⟩
      obtain ⟨enough, hfuel⟩ := h fun _ => []
      obtain ⟨bytes, hserialize, hread⟩ :=
        hfuel (max enough (elements.length + 1)) (Nat.le_max_left _ _)
      obtain ⟨tail, hserialize', hwritten⟩ :=
        hwrites (fun _ => []) (max enough (elements.length + 1))
      obtain rfl := Except.ok.inj (hserialize'.symm.trans hserialize)
      have hloop := hread []
      rw [List.append_assoc, hparse _ (by omega)] at hloop
      split at hloop
      · cases hloop
      · rename_i values rest hmany
        simp only [Except.ok.injEq, Prod.mk.injEq, Value.list.injEq] at hloop
        obtain ⟨rfl, rfl⟩ := hloop
        exact ⟨hcollection, agrees_of_readMany data hcollection helements hwritten hmany⟩
    · rintro ⟨-, agrees⟩
      refine ⟨(compiles_collection_iff data fresh).2 hcollection, fun malformed =>
        ⟨elements.length + 1, fun fuel enough => ?_⟩⟩
      obtain ⟨tail, hserialize, hwritten⟩ := hwrites malformed fuel
      refine ⟨_, hserialize, fun rest => ?_⟩
      rw [List.append_assoc, hparse _ (by omega),
        readMany_of_agrees data hcollection helements agrees hwritten]

end Property

/-- The parse code of a type reads back what its serialize code writes exactly when there is no
collection in a collection, no fixed-size bytes, and nothing that its spelling cannot hold. -/
theorem roundTripsAt_iff {name : String} {type : TLTypeSpec} {value : Value} (data : type.IsData)
    (accepts : Accepts type value) (fresh : arrayElementName ≠ name) :
    RoundTripsAt name type value ↔ Agrees type value := by
  induction type using TLTypeSpec.IsData.induct with
  | case1 clazz => exact roundTripsAt_scalar_iff data (fun h => h) accepts
  | case2 fixedSize => exact roundTripsAt_scalar_iff data (fun h => h) accepts
  | case3 element ih => exact roundTripsAt_collection_iff data accepts fresh
  | case4 type ih =>
    rw [Accepts] at accepts
    have hsame : RoundTripsAt name (.genericParameter type) value ↔
        RoundTripsAt name type value := by
      unfold RoundTripsAt Compiles Context.parseProperty Context.serializeProperty
      rw [addPropertyParseStatement, addPropertySerializeStatement]
    rw [hsame, Agrees]
    exact ih data accepts
  | case5 type => cases type <;> simp_all [TLTypeSpec.IsData]

/-- A list of byte arrays is read back. -/
theorem roundTripsAt_byteArrays :
    RoundTripsAt "hashes" (.collection (.genericParameter (.bytes none)))
      (.list [.prim (.byteArray [1, 2, 3]), .prim (.byteArray [])]) := by
  refine (roundTripsAt_iff ?_ ?_ (by decide)).2 ?_
  · simp [TLTypeSpec.IsData]
  · simp [Accepts]
  · simp [Agrees, TLTypeSpec.IsCollection, Java.Fits]

/-- A nonce of sixteen bytes is not. -/
theorem not_roundTripsAt_nonce :
    TLTypeSpec.IsData (.bytes (some 16)) ∧
      Accepts (.bytes (some 16)) (.prim (.byteArray (List.replicate 16 7))) ∧
      ¬ RoundTripsAt "nonce" (.bytes (some 16)) (.prim (.byteArray (List.replicate 16 7))) := by
  have hdata : TLTypeSpec.IsData (.bytes (some 16)) := trivial
  have hscalar : ¬ TLTypeSpec.IsCollection (.bytes (some 16)) := fun h => h
  have haccepts : Accepts (.bytes (some 16)) (.prim (.byteArray (List.replicate 16 7))) :=
    List.length_replicate
  refine ⟨hdata, haccepts, ?_⟩
  rw [roundTripsAt_scalar_iff hdata hscalar haccepts]
  exact fun h => h

end Mtproto.Generator
