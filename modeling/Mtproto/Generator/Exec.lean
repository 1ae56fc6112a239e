import Mtproto.Generator.Semantics

/-!
# Running emitted statements

One lemma for each operation of the interpreter, in the form in which the proofs about generated
functions use it: from what the parts return on a state to what the whole returns on it.
-/

namespace Mtproto.Generator

/-! ## Sequencing -/

section Bind

variable {α β : Type} {st st' : State} {failure : Failure}

theorem bind_ok {x : Kotlin α} {f : α → Kotlin β} {a : α} (h : x st = .ok (a, st')) :
    (x >>= f) st = f a st' := by
  change (x st >>= fun p => f p.1 p.2) = _
  rw [h]
  rfl

theorem bind_error {x : Kotlin α} {f : α → Kotlin β} (h : x st = .error failure) :
    (x >>= f) st = .error failure := by
  change (x st >>= fun p => f p.1 p.2) = _
  rw [h]
  rfl

/-- A sequence ends well only if both parts do. -/
theorem bind_eq_ok {x : Kotlin α} {f : α → Kotlin β} {b : β} (h : (x >>= f) st = .ok (b, st')) :
    ∃ a mid, x st = .ok (a, mid) ∧ f a mid = .ok (b, st') := by
  rcases hx : x st with failure | ⟨a, mid⟩
  · rw [bind_error hx] at h
    exact absurd h (by simp)
  · exact ⟨a, mid, rfl, by rwa [bind_ok hx] at h⟩

theorem execBlock_cons {ctx : Context} {stmt : Stmt} {stmts : List Stmt}
    (h : stmt.exec ctx st = .ok ((), st')) :
    execBlock ctx (stmt :: stmts) st = execBlock ctx stmts st' := by
  rw [execBlock]
  exact bind_ok h

theorem execBlock_cons_error {ctx : Context} {stmt : Stmt} {stmts : List Stmt}
    (h : stmt.exec ctx st = .error failure) :
    execBlock ctx (stmt :: stmts) st = .error failure := by
  rw [execBlock]
  exact bind_error h

@[simp] theorem execBlock_nil (ctx : Context) : execBlock ctx [] st = .ok ((), st) := by
  rw [execBlock]
  rfl

theorem execBlock_singleton {ctx : Context} {stmt : Stmt} (h : stmt.exec ctx st = .ok ((), st')) :
    execBlock ctx [stmt] st = .ok ((), st') := by
  rw [execBlock_cons h, execBlock_nil]

theorem execBlock_append {ctx : Context} {stmts stmts' : List Stmt}
    (h : execBlock ctx stmts st = .ok ((), st')) :
    execBlock ctx (stmts ++ stmts') st = execBlock ctx stmts' st' := by
  induction stmts generalizing st with
  | nil =>
    rw [execBlock_nil] at h
    cases h
    rfl
  | cons stmt stmts ih =>
    rw [execBlock] at h
    obtain ⟨_, mid, first, rest⟩ := bind_eq_ok h
    rw [List.cons_append, execBlock_cons first]
    exact ih rest

end Bind

/-! ## Locals -/

section Locals

variable {st : State} {name : String} {value : Value}

theorem lookupLocal_eq (h : st.locals.lookup name = some value) :
    lookupLocal name st = .ok (value, st) := by
  simp only [lookupLocal, bind, StateT.bind, get, getThe, MonadStateOf.get, StateT.get, pure,
    Except.pure, Except.bind, h]
  rfl

theorem lookupInt_eq {n : BitVec 32} (h : st.locals.lookup name = some (.prim (.int n))) :
    lookupInt name st = .ok (n, st) := by
  rw [lookupInt, bind_ok (lookupLocal_eq h)]
  rfl

theorem lookupList_eq {elements : List Value} (h : st.locals.lookup name = some (.list elements)) :
    lookupList name st = .ok (elements, st) := by
  rw [lookupList, bind_ok (lookupLocal_eq h)]
  rfl

/-- Is the bit of an index set in the flags word? -/
def flagSet (flags : BitVec 32) (index : ℤ) : Bool := flags &&& flagPosition index ≠ 0

theorem flagCheck_eq {flags : BitVec 32} (index : ℤ)
    (h : st.locals.lookup flagsPropertyName = some (.prim (.int flags))) :
    flagCheck (flagPosition index) st = .ok (flagSet flags index, st) := by
  rw [flagCheck, bind_ok (lookupInt_eq h)]
  rfl

theorem assignLocal_head (value' : Value) (locals : List (String × Value))
    (input output : List UInt8) :
    assignLocal name value' ⟨(name, value) :: locals, input, output⟩ =
      .ok ((), ⟨(name, value') :: locals, input, output⟩) := by
  have hupdate : updateLocal name value' ((name, value) :: locals) = (name, value') :: locals := by
    simp [updateLocal]
  simp only [assignLocal, modify, modifyGet, MonadStateOf.modifyGet, StateT.modifyGet, hupdate]
  rfl

theorem lookup_cons_self (locals : List (String × Value)) :
    List.lookup name ((name, value) :: locals) = some value := List.lookup_cons_self

theorem lookup_cons_of_ne {other : String} (locals : List (String × Value)) (h : name ≠ other) :
    List.lookup name ((other, value) :: locals) = List.lookup name locals := by
  have hne : (name == other) = false := by simpa using h
  rw [List.lookup_cons, hne]

theorem updateLocal_cons_self (old : Value) (locals : List (String × Value)) :
    updateLocal name value ((name, old) :: locals) = (name, value) :: locals := by
  simp [updateLocal]

theorem updateLocal_cons_of_ne {other : String} (old : Value) (locals : List (String × Value))
    (h : other ≠ name) :
    updateLocal name value ((other, old) :: locals) =
      (other, old) :: updateLocal name value locals := by
  simp [updateLocal, h]

/-- A block leaves the locals it found, as far as it has not assigned to them. -/
theorem inBlock_eq {body : Kotlin Unit} {st' : State} (inner outer : List (String × Value))
    (run : body st = .ok ((), st')) (locals : st'.locals = inner ++ outer)
    (length : outer.length = st.locals.length) :
    inBlock body st = .ok ((), { st' with locals := outer }) := by
  have hdrop : st'.locals.drop (st'.locals.length - st.locals.length) = outer := by
    rw [locals, List.length_append, length, Nat.add_sub_cancel, List.drop_left]
  rw [inBlock, bind_ok (show (get : Kotlin State) st = .ok (st, st) from rfl)]
  rw [bind_ok run]
  rw [← hdrop]
  rfl

end Locals

/-! ## Streams -/

theorem consume_eq {st : State} {parser : Parser} {value : Value} {rest : List UInt8}
    (h : parser st.input = .ok (value, rest)) :
    consume parser st = .ok (value, { st with input := rest }) := by
  rw [consume, h]

end Mtproto.Generator
