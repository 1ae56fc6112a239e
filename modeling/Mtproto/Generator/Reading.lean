import Mtproto.Generator.Exec
import Mtproto.Generator.Names

/-!
# What the parse statements of a type read

A type whose values are read by one expression has a `reader`: the parser that this expression runs
on the input.  The loop of a collection runs the reader of its element as often as the declared
size says (`exec_collection_eq`), whether the reads succeed or not.
-/

namespace Mtproto.Generator

/-! ## One expression -/

/-- A type whose values are read by one expression: a primitive, bytes, an object or a container
without generics. -/
def TLTypeSpec.Simple : TLTypeSpec → Prop
  | .primitive _ => True
  | .bytes _ => True
  | .object _ [] => True
  | .container _ [] => True
  | .genericParameter type => type.Simple
  | _ => False

/-- The expression that reads a value of a simple type. -/
def TLTypeSpec.parseStatement : TLTypeSpec → Expr
  | .primitive clazz => .read clazz
  | .bytes (some fixedSize) => .readBytes fixedSize
  | .object type _ => .parse (.object type) []
  | .container type _ => .parse (.container type) []
  | .genericParameter type => type.parseStatement
  | _ => .read .byteArray

/-- The parser that this expression runs. -/
def TLTypeSpec.reader (ctx : Context) : TLTypeSpec → Parser
  | .primitive clazz => ctx.codec.reader clazz
  | .bytes (some fixedSize) => ctx.codec.bytesReader fixedSize
  | .object type _ => ctx.parse (.object type) []
  | .container type _ => ctx.parse (.container type) []
  | .genericParameter type => type.reader ctx
  | _ => ctx.codec.reader .byteArray

theorem TLTypeSpec.Simple.shape_eq {type : TLTypeSpec} (simple : type.Simple) :
    type.shape = .value type.parseStatement := by
  induction type using TLTypeSpec.Simple.induct with
  | case1 clazz => rfl
  | case2 fixedSize => cases fixedSize <;> rfl
  | case3 type => rfl
  | case4 type => rfl
  | case5 type ih => exact ih simple
  | case6 type => cases type <;> simp_all [TLTypeSpec.Simple]

theorem addPropertyParseStatement_of_value {type : TLTypeSpec} {e : Expr}
    (shape : type.shape = .value e) (name : String) (flag : Option ℤ) :
    addPropertyParseStatement name type flag = addParsedPropertyStatement name e flag := by
  induction type using TLTypeSpec.shape.induct with
  | case3 type ih =>
    rw [addPropertyParseStatement]
    exact ih shape
  | case1 | case2 | case4 | case5 | case6 | case7 | case9 | case10 =>
    cases shape
    rfl
  | case8 | case11 | case12 => cases shape

theorem addPropertyParseStatement_of_simple {type : TLTypeSpec} (simple : type.Simple)
    (name : String) (flag : Option ℤ) :
    addPropertyParseStatement name type flag =
      addParsedPropertyStatement name type.parseStatement flag :=
  addPropertyParseStatement_of_value simple.shape_eq name flag

section Reading

variable {ctx : Context} {st : State}

theorem eval_parse (type : ParserClass) :
    ctx.eval (.parse type []) st = consume (ctx.parse type []) st := by
  rw [Context.eval, bind_ok (show ((([] : List ParserArgument).mapM ctx.argument :
    Except Failure (List Parser)) : Kotlin (List Parser)) st = .ok ([], st) from rfl)]

theorem eval_parseStatement {type : TLTypeSpec} (simple : type.Simple) :
    ctx.eval type.parseStatement st = consume (type.reader ctx) st := by
  induction type using TLTypeSpec.Simple.induct with
  | case1 clazz => rfl
  | case2 fixedSize => cases fixedSize <;> rfl
  | case3 type => exact eval_parse _
  | case4 type => exact eval_parse _
  | case5 type ih => exact ih simple
  | case6 type => cases type <;> simp_all [TLTypeSpec.Simple]

theorem exec_declare {name : String} {e : Expr} {value : Value} {st' : State}
    (run : ctx.eval e st = .ok (value, st')) :
    execBlock ctx [.declare name e] st =
      .ok ((), { st' with locals := (name, value) :: st'.locals }) := by
  refine execBlock_singleton ?_
  rw [Stmt.exec, bind_ok run]
  rfl

/-- An unflagged primitive is read into its local. -/
theorem exec_read {name : String} {clazz : PrimitiveClass} {p : Prim} {rest : List UInt8}
    (read : ctx.codec.read clazz st.input = .ok (p, rest)) :
    execBlock ctx (addLocalPropertyParseStatement name clazz none) st =
      .ok ((), { st with locals := (name, .prim p) :: st.locals, input := rest }) := by
  have hreader : ctx.codec.reader clazz st.input = .ok (.prim p, rest) := by
    rw [Codec.reader, read]
  have heval : ctx.eval (.read clazz) st = .ok (.prim p, { st with input := rest }) :=
    consume_eq hreader
  exact exec_declare heval

/-! ## The loop of a collection -/

/-- Run a parser a number of times. -/
def readMany (parser : Parser) : ℕ → List UInt8 → Except Failure (List Value × List UInt8)
  | 0, input => .ok ([], input)
  | n + 1, input =>
    match parser input with
    | .error failure => .error failure
    | .ok (value, rest) =>
      match readMany parser n rest with
      | .error failure => .error failure
      | .ok (values, rest) => .ok (value :: values, rest)

theorem toInt_ofNat_of_lt {n : ℕ} (h : n < 2 ^ 31) : (BitVec.ofNat 32 n).toInt = n := by
  rw [BitVec.toInt_eq_toNat_cond, BitVec.toNat_ofNat]
  have hmod : n % 2 ^ 32 = n := by omega
  rw [hmod, if_pos (by omega)]

variable {name : String} {locals : List (String × Value)} {n : ℕ}

/-- The locals of a `parse` function inside the loop of a collection. -/
def loopLocals (name : String) (elements : List Value) (n : ℕ) (locals : List (String × Value)) :
    List (String × Value) :=
  (name, .list elements) :: (sizeFieldName name, .prim (.int (BitVec.ofNat 32 n))) :: locals

theorem lookup_loopLocals_name (elements : List Value) :
    (loopLocals name elements n locals).lookup name = some (.list elements) :=
  lookup_cons_self _

theorem ne_sizeFieldName (name : String) : sizeFieldName name ≠ name := by
  intro h
  have := congrArg String.length h
  rw [sizeFieldName, String.length_append] at this
  simp at this

theorem lookup_loopLocals_size (elements : List Value) :
    (loopLocals name elements n locals).lookup (sizeFieldName name) =
      some (.prim (.int (BitVec.ofNat 32 n))) := by
  rw [loopLocals, lookup_cons_of_ne _ (ne_sizeFieldName name), lookup_cons_self]

theorem shorter_eq {elements : List Value} (bound : n < 2 ^ 31) (le : elements.length ≤ n)
    (hlocals : st.locals = loopLocals name elements n locals) :
    shorter name (sizeFieldName name) st = .ok (decide (elements.length < n), st) := by
  have hslt : (BitVec.ofNat 32 elements.length).slt (BitVec.ofNat 32 n) =
      decide (elements.length < n) := by
    rw [BitVec.slt_eq_decide, toInt_ofNat_of_lt bound, toInt_ofNat_of_lt (by omega)]
    simp
  rw [shorter, bind_ok (lookupList_eq (by rw [hlocals, lookup_loopLocals_name])),
    bind_ok (lookupInt_eq (by rw [hlocals, lookup_loopLocals_size])), hslt]
  rfl

/-- The body of the loop. -/
def elementBody (ctx : Context) (name : String) (element : TLTypeSpec) : Kotlin Unit :=
  inBlock (execBlock ctx (addPropertyParseStatement arrayElementName element none ++
    [.add name arrayElementName]))

/-- A round of the loop that reads an element appends it. -/
theorem exec_element {element : TLTypeSpec} {e : Expr} {elements : List Value} {value : Value}
    {rest : List UInt8} (shape : element.shape = .value e) (fresh : arrayElementName ≠ name)
    (hlocals : st.locals = loopLocals name elements n locals)
    (read : ctx.eval e st = .ok (value, { st with input := rest })) :
    elementBody ctx name element st =
      .ok ((), { st with
        locals := loopLocals name (elements ++ [value]) n locals
        input := rest }) := by
  have hdeclare : Stmt.exec ctx (.declare arrayElementName e) st =
      .ok ((), { st with locals := (arrayElementName, value) :: st.locals, input := rest }) := by
    rw [Stmt.exec, bind_ok read]
    rfl
  have hadd : Stmt.exec ctx (.add name arrayElementName)
      { st with locals := (arrayElementName, value) :: st.locals, input := rest } =
      .ok ((), { st with
        locals := (arrayElementName, value) :: loopLocals name (elements ++ [value]) n locals
        input := rest }) := by
    have hlist : List.lookup name ((arrayElementName, value) :: st.locals) =
        some (.list elements) := by
      rw [lookup_cons_of_ne _ fresh.symm, hlocals, lookup_loopLocals_name]
    rw [Stmt.exec, bind_ok (lookupList_eq hlist), bind_ok (lookupLocal_eq (lookup_cons_self _))]
    have hupdate : updateLocal name (.list (elements ++ [value]))
        ((arrayElementName, value) :: st.locals) =
        (arrayElementName, value) :: loopLocals name (elements ++ [value]) n locals := by
      rw [updateLocal_cons_of_ne _ _ fresh, hlocals, loopLocals, updateLocal_cons_self]
      rfl
    simp only [assignLocal, modify, modifyGet, MonadStateOf.modifyGet, StateT.modifyGet, hupdate]
    rfl
  rw [elementBody, addPropertyParseStatement_of_value shape]
  exact inBlock_eq [(arrayElementName, value)] _
    ((execBlock_cons hdeclare).trans (execBlock_singleton hadd)) rfl (by rw [hlocals]; rfl)

/-- A round of the loop fails when its read fails. -/
theorem exec_element_error {element : TLTypeSpec} {failure : Failure} (simple : element.Simple)
    (read : element.reader ctx st.input = .error failure) :
    elementBody ctx name element st = .error failure := by
  have hdeclare : Stmt.exec ctx (.declare arrayElementName element.parseStatement) st =
      .error failure := by
    rw [Stmt.exec]
    refine bind_error ?_
    rw [eval_parseStatement simple, consume, read]
  rw [elementBody, addPropertyParseStatement_of_simple simple, inBlock,
    bind_ok (show (get : Kotlin State) st = .ok (st, st) from rfl)]
  exact bind_error (execBlock_cons_error hdeclare)

/-- The loop reads the elements that are missing. -/
theorem exec_elements {element : TLTypeSpec} {elements : List Value} {k fuel : ℕ}
    (simple : element.Simple) (fresh : arrayElementName ≠ name) (bound : n < 2 ^ 31)
    (length : elements.length + k = n) (enough : k < fuel)
    (hlocals : st.locals = loopLocals name elements n locals) :
    whileLoop (shorter name (sizeFieldName name)) (elementBody ctx name element) fuel st =
      match readMany (element.reader ctx) k st.input with
      | .error failure => .error failure
      | .ok (values, rest) => .ok ((), { st with
          locals := loopLocals name (elements ++ values) n locals
          input := rest }) := by
  induction k generalizing st elements fuel with
  | zero =>
    obtain ⟨fuel, rfl⟩ : ∃ k, fuel = k + 1 := ⟨fuel - 1, by omega⟩
    have hdone : ¬ elements.length < n := by omega
    rw [whileLoop, bind_ok (shorter_eq bound (by omega) hlocals), if_neg (by simpa using hdone),
      readMany]
    simp only [List.append_nil, ← hlocals]
    rfl
  | succ k ih =>
    obtain ⟨fuel, rfl⟩ : ∃ k, fuel = k + 1 := ⟨fuel - 1, by omega⟩
    have hmore : elements.length < n := by omega
    rw [whileLoop, bind_ok (shorter_eq bound (by omega) hlocals), if_pos (by simpa using hmore),
      readMany]
    cases hread : element.reader ctx st.input with
    | error failure => exact bind_error (exec_element_error simple hread)
    | ok result =>
      obtain ⟨value, rest⟩ := result
      have hlength : (elements ++ [value]).length + k = n := by
        rw [List.length_append, List.length_singleton]
        omega
      have heval : ctx.eval element.parseStatement st = .ok (value, { st with input := rest }) :=
        (eval_parseStatement simple).trans (consume_eq hread)
      rw [bind_ok (exec_element simple.shape_eq fresh hlocals heval), ih hlength (by omega) rfl]
      simp only
      cases readMany (element.reader ctx) k rest with
      | error failure => rfl
      | ok result => simp only [List.append_assoc, List.singleton_append]

/-- The statements of a collection read its size and enter the loop, whatever its flag. -/
theorem exec_collection_loop {element : TLTypeSpec} {flag : Option ℤ} {mid : List UInt8}
    (bound : n < 2 ^ 31)
    (size : ctx.codec.read .int st.input = .ok (.int (BitVec.ofNat 32 n), mid)) :
    execBlock ctx (addPropertyParseStatement name (.collection element) flag) st =
      whileLoop (shorter name (sizeFieldName name)) (elementBody ctx name element) ctx.fuel
        { st with locals := loopLocals name [] n st.locals, input := mid } := by
  have hsize : execBlock ctx (addLocalPropertyParseStatement (sizeFieldName name) .int none) st =
      .ok ((), { st with
        locals := (sizeFieldName name, .prim (.int (BitVec.ofNat 32 n))) :: st.locals
        input := mid }) :=
    exec_read size
  have hlist : Stmt.exec ctx (.newArrayList name (sizeFieldName name))
      { st with
        locals := (sizeFieldName name, .prim (.int (BitVec.ofNat 32 n))) :: st.locals
        input := mid } =
      .ok ((), { st with locals := loopLocals name [] n st.locals, input := mid }) := by
    have hpos : ¬ (BitVec.ofNat 32 n).toInt < 0 := by
      rw [toInt_ofNat_of_lt bound]
      omega
    rw [Stmt.exec, bind_ok (lookupInt_eq (lookup_cons_self _)), if_neg hpos]
    rfl
  rw [addPropertyParseStatement, addCollectionParseStatement, execBlock_append hsize,
    execBlock_cons hlist, execBlock]
  change (whileLoop (shorter name (sizeFieldName name)) (elementBody ctx name element) ctx.fuel >>=
    fun _ => execBlock ctx []) _ = _
  generalize hloop : whileLoop (shorter name (sizeFieldName name)) (elementBody ctx name element)
    ctx.fuel { st with locals := loopLocals name [] n st.locals, input := mid } = result
  cases result with
  | error failure => exact bind_error hloop
  | ok result =>
    obtain ⟨_, st'⟩ := result
    rw [bind_ok hloop, execBlock_nil]

/-- The statements of a collection read its size and then as many elements. -/
theorem exec_collection_eq {element : TLTypeSpec} {mid : List UInt8} (simple : element.Simple)
    (fresh : arrayElementName ≠ name) (bound : n < 2 ^ 31) (enough : n < ctx.fuel)
    (size : ctx.codec.read .int st.input = .ok (.int (BitVec.ofNat 32 n), mid)) :
    execBlock ctx (addPropertyParseStatement name (.collection element) none) st =
      match readMany (element.reader ctx) n mid with
      | .error failure => .error failure
      | .ok (values, rest) => .ok ((), { st with
          locals := loopLocals name values n st.locals
          input := rest }) := by
  have hlength : ([] : List Value).length + n = n := Nat.zero_add n
  rw [exec_collection_loop bound size]
  exact exec_elements simple fresh bound hlength enough rfl

end Reading

end Mtproto.Generator
