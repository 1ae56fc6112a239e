import Mtproto.Generator.Exec

/-!
# The flags word

The generated `serialize` folds over the flagged fields, each setting or clearing the bits of its
mask; the generated `parse` tests the same masks.  `flagsWord` is the fold, `exec_flagging` says
that the emitted statements compute it, and `getLsbD_flagsWord` that the last field whose mask has a
bit decides that bit.  A mask is one bit for the indices `0` to `30`, and all of these bits from
index `31` on.
-/

namespace Mtproto.Generator

/-- A field of an instance. -/
abbrev Field := TLPropertySpec × Value

/-- Does a field count as present when its flag is computed? -/
def present (field : Field) : Bool :=
  match field.1.typeSpec, field.2 with
  | .flag, .prim (.boolean value) => value
  | .flag, _ => false
  | _, .null => false
  | _, _ => true

/-- A true-flag is a boolean; any other field may have any value. -/
def FlagTyped (field : Field) : Prop :=
  field.1.typeSpec = .flag → ∃ value, field.2 = .prim (.boolean value)

/-- The effect of one field on the flags word. -/
def addFlag (flags : BitVec 32) (field : Field) : BitVec 32 :=
  match field.1.flag with
  | some index =>
    if present field then flags ||| flagPosition index else flags &&& ~~~flagPosition index
  | none => flags

/-- The flags word of an instance. -/
def flagsWord (fields : List Field) : BitVec 32 := fields.foldl addFlag 0

/-! ## The emitted statements compute it -/

/-- The statements that fold over the fields. -/
def flaggingStatements (specs : List TLPropertySpec) : List Stmt :=
  specs.flatMap fun spec =>
    match spec.flag with
    | some flag => addFlaggingStatement spec flag
    | none => []

section Exec

variable {ctx : Context} {locals : List (String × Value)} {input output : List UInt8}

/-- The condition of a flagging statement is the presence of its field. -/
theorem eval_flagCondition {field : Field} {flags : BitVec 32} {index : ℤ}
    {condition : FlagCondition}
    (other : field.1.name ≠ flagsPropertyName) (typed : FlagTyped field)
    (lookup : locals.lookup field.1.name = some field.2)
    (emitted : addFlaggingStatement field.1 index = [.flagging condition (flagPosition index)]) :
    condition.eval ⟨(flagsPropertyName, .prim (.int flags)) :: locals, input, output⟩ =
      .ok (present field, ⟨(flagsPropertyName, .prim (.int flags)) :: locals, input, output⟩) := by
  obtain ⟨⟨name, flag, type⟩, value⟩ := field
  have hlookup : lookupLocal name
      ⟨(flagsPropertyName, .prim (.int flags)) :: locals, input, output⟩ =
      .ok (value, ⟨(flagsPropertyName, .prim (.int flags)) :: locals, input, output⟩) :=
    lookupLocal_eq (by rw [lookup_cons_of_ne _ other]; exact lookup)
  cases type with
  | flag =>
    obtain ⟨b, rfl⟩ : ∃ b, value = .prim (.boolean b) := typed rfl
    obtain rfl : FlagCondition.holds name =
      condition := by simpa [addFlaggingStatement] using emitted
    rw [FlagCondition.eval, bind_ok hlookup]
    rfl
  | any | primitive clazz | superObject | superContainer | object type generics
  | container type generics | collection element | bytes fixedSize
  | genericVariable variableName superType | genericParameter type =>
    obtain rfl : FlagCondition.notNull name = condition := by
      simpa [addFlaggingStatement] using emitted
    rw [FlagCondition.eval, bind_ok hlookup]
    cases value <;> rfl

theorem exec_addFlaggingStatement {field : Field} {flags : BitVec 32}
    (other : field.1.name ≠ flagsPropertyName) (typed : FlagTyped field)
    (lookup : locals.lookup field.1.name = some field.2) :
    execBlock ctx (flaggingStatements [field.1])
        ⟨(flagsPropertyName, .prim (.int flags)) :: locals, input, output⟩ =
      .ok ((), ⟨(flagsPropertyName, .prim (.int (addFlag flags field))) :: locals, input,
        output⟩) := by
  rw [flaggingStatements, List.flatMap_singleton]
  cases hflag : field.1.flag with
  | none => rw [execBlock_nil, addFlag, hflag]
  | some index =>
    obtain ⟨condition, emitted⟩ : ∃ condition,
        addFlaggingStatement field.1 index = [.flagging condition (flagPosition index)] := ⟨_, rfl⟩
    simp only [emitted]
    refine execBlock_singleton ?_
    rw [Stmt.exec, bind_ok (eval_flagCondition other typed lookup emitted),
      bind_ok (lookupInt_eq (lookup_cons_self _)), assignLocal_head, addFlag, hflag]

/-- The emitted statements leave the fold in the local `flags`. -/
theorem exec_flagging {fields : List Field} {flags : BitVec 32}
    (other : ∀ field ∈ fields, field.1.name ≠ flagsPropertyName)
    (typed : ∀ field ∈ fields, FlagTyped field)
    (lookup : ∀ field ∈ fields, locals.lookup field.1.name = some field.2) :
    execBlock ctx (flaggingStatements (fields.map Prod.fst))
        ⟨(flagsPropertyName, .prim (.int flags)) :: locals, input, output⟩ =
      .ok ((), ⟨(flagsPropertyName, .prim (.int (fields.foldl addFlag flags))) :: locals, input,
        output⟩) := by
  induction fields generalizing flags with
  | nil => exact execBlock_nil ctx
  | cons field fields ih =>
    have hfield : execBlock ctx (flaggingStatements [field.1])
          ⟨(flagsPropertyName, .prim (.int flags)) :: locals, input, output⟩ =
        .ok ((), ⟨(flagsPropertyName, .prim (.int (addFlag flags field))) :: locals, input,
          output⟩) :=
      exec_addFlaggingStatement (other field (List.mem_cons_self ..))
        (typed field (List.mem_cons_self ..)) (lookup field (List.mem_cons_self ..))
    have hsplit : flaggingStatements ((field :: fields).map Prod.fst) =
        flaggingStatements [field.1] ++ flaggingStatements (fields.map Prod.fst) := by
      simp [flaggingStatements]
    rw [hsplit, execBlock_append hfield]
    exact ih (fun f hf => other f (List.mem_cons_of_mem _ hf))
      (fun f hf => typed f (List.mem_cons_of_mem _ hf))
      (fun f hf => lookup f (List.mem_cons_of_mem _ hf))

end Exec

/-! ## The bits of the word -/

/-- Is a bit in the mask of a field? -/
def covers (b : ℕ) (field : Field) : Bool :=
  match field.1.flag with
  | some index => (flagPosition index).getLsbD b
  | none => false

/-- The last field whose mask has a bit decides it. -/
def decidedBit (b : ℕ) (fields : List Field) : Bool :=
  ((fields.filter (covers b)).getLast?.map present).getD false

theorem getLsbD_addFlag (flags : BitVec 32) (field : Field) {b : ℕ} (hb : b < 32) :
    (addFlag flags field).getLsbD b =
      if covers b field then present field else flags.getLsbD b := by
  unfold addFlag covers
  cases field.1.flag with
  | none => simp
  | some index =>
    cases hpresent : present field with
    | true =>
      simp only [if_true, BitVec.getLsbD_or]
      by_cases hmask : (flagPosition index).getLsbD b = true
      · rw [if_pos hmask, hmask, Bool.or_true]
      · rw [if_neg hmask, Bool.eq_false_iff.2 hmask, Bool.or_false]
    | false =>
      simp only [Bool.false_eq_true, if_false, BitVec.getLsbD_and, BitVec.getLsbD_not, hb,
        decide_true, Bool.true_and]
      by_cases hmask : (flagPosition index).getLsbD b = true
      · rw [if_pos hmask, hmask, Bool.not_true, Bool.and_false]
      · rw [if_neg hmask, Bool.eq_false_iff.2 hmask, Bool.not_false, Bool.and_true]

theorem getLsbD_foldl_addFlag (fields : List Field) (flags : BitVec 32) {b : ℕ} (hb : b < 32) :
    (fields.foldl addFlag flags).getLsbD b =
      ((fields.filter (covers b)).getLast?.map present).getD (flags.getLsbD b) := by
  induction fields generalizing flags with
  | nil => rfl
  | cons field fields ih =>
    rw [List.foldl_cons, ih, getLsbD_addFlag flags field hb, List.filter_cons]
    by_cases hcovers : covers b field = true
    · rw [if_pos hcovers, if_pos hcovers, List.getLast?_cons]
      cases (fields.filter (covers b)).getLast? <;> rfl
    · rw [if_neg hcovers, if_neg hcovers]

theorem getLsbD_flagsWord (fields : List Field) {b : ℕ} (hb : b < 32) :
    (flagsWord fields).getLsbD b = decidedBit b fields := by
  have hzero : (0 : BitVec 32).getLsbD b = false := BitVec.getLsbD_zero
  rw [flagsWord, getLsbD_foldl_addFlag fields 0 hb, hzero]
  rfl

/-! ## Masks -/

theorem flagPosition_of_le {index : ℤ} (nonneg : 0 ≤ index) (le : index ≤ 30) :
    flagPosition index = BitVec.twoPow 32 index.toNat := by
  rw [flagPosition, if_neg (by omega), if_pos (by omega)]

theorem getLsbD_flagPosition_of_le {index : ℤ} (nonneg : 0 ≤ index) (le : index ≤ 30) (b : ℕ) :
    (flagPosition index).getLsbD b = decide (index = b) := by
  rw [flagPosition_of_le nonneg le, BitVec.getLsbD_twoPow]
  have : index.toNat < 32 := by omega
  by_cases h : index = b
  · simp [h]
    omega
  · have hne : index.toNat ≠ b := by omega
    simp [h, hne]

/-- Index `31` and above share one mask. -/
theorem getLsbD_flagPosition_of_lt {index : ℤ} (lt : 30 < index) (b : ℕ) :
    (flagPosition index).getLsbD b = decide (b < 31) := by
  rw [flagPosition, if_neg (by omega), if_neg (by omega)]
  by_cases hb : b < 32
  · have hall : ∀ n : Fin 32, (0x7fffffff : BitVec 32).getLsbD n = decide (n.val < 31) := by decide
    exact hall ⟨b, hb⟩
  · rw [BitVec.getLsbD_of_ge _ _ (by omega)]
    simp
    omega

/-- A test finds the bits of its mask. -/
theorem flagSet_iff (flags : BitVec 32) (index : ℤ) :
    flagSet flags index = true ↔
      ∃ b < 32, flags.getLsbD b = true ∧ (flagPosition index).getLsbD b = true := by
  rw [flagSet, decide_eq_true_eq]
  constructor
  · intro h
    by_contra hnone
    refine h (BitVec.eq_of_getLsbD_eq fun b hb => ?_)
    have hzero : (0 : BitVec 32).getLsbD b = false := BitVec.getLsbD_zero
    rw [BitVec.getLsbD_and, hzero, Bool.and_eq_false_iff]
    by_contra hboth
    rw [not_or, Bool.not_eq_false, Bool.not_eq_false] at hboth
    exact hnone ⟨b, hb, hboth.1, hboth.2⟩
  · rintro ⟨b, -, hflags, hmask⟩ h
    have := congrArg (fun w => BitVec.getLsbD w b) h
    simp [hflags, hmask] at this

theorem flagSet_of_le {index : ℤ} (nonneg : 0 ≤ index) (le : index ≤ 30) (flags : BitVec 32) :
    flagSet flags index = flags.getLsbD index.toNat := by
  rw [Bool.eq_iff_iff, flagSet_iff]
  constructor
  · rintro ⟨b, -, hflags, hmask⟩
    rw [getLsbD_flagPosition_of_le nonneg le, decide_eq_true_eq] at hmask
    rwa [hmask, Int.toNat_natCast]
  · intro h
    refine ⟨index.toNat, by omega, h, ?_⟩
    rw [getLsbD_flagPosition_of_le nonneg le, decide_eq_true_eq]
    omega

end Mtproto.Generator
