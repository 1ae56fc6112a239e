import Mtproto.Generator.Nesting

/-!
# When the flags word is right

A declaration with flags writes one word in front of its fields.  Its bits should be those of the
present fields, and the tests of the generated `parse` should find just these bits.  They do,
unless fields that share an index disagree, or index `31` is used: its mask is saturated to the bits
`0` to `30`.  A variant without fields is a singleton whose `parse` does not read the word that its
`serialize` writes.
-/

namespace Mtproto.Generator

/-! ## Declarations -/

/-- A declaration of a scheme. -/
inductive Declaration where
  | variant (spec : TLObjectSpec)
  | container (spec : TLContainerSpec)

namespace Declaration

def hasFlags : Declaration → Bool
  | variant spec => spec.hasFlags
  | container spec => spec.hasFlags

def propertiesSpecs : Declaration → List TLPropertySpec
  | variant spec => spec.propertiesSpecs
  | container spec => spec.propertiesSpecs

/-- The statements that the branch of a constructor hash runs. -/
def branchStatements : Branch → List Stmt
  | .parse spec _ => addObjectParseFunction spec.hasFlags spec.propertiesSpecs
  | .singleton _ => []

def parseStatements : Declaration → List Stmt
  | variant spec => (addBaseObjectParseFunction [spec]).flatMap branchStatements
  | container spec => addObjectParseFunction spec.hasFlags spec.propertiesSpecs

def serializeStatements : Declaration → List Stmt
  | variant spec => createObjectSerializeFunctionSpec spec.hasFlags spec.propertiesSpecs
  | container spec => createContainerSerializeFunctionSpec spec.hasFlags spec.propertiesSpecs

/-- `val flags = inputStream.readInt()` -/
def ReadsFlags (declaration : Declaration) : Prop :=
  .declare flagsPropertyName (.read .int) ∈ declaration.parseStatements

/-- `outputStream.writeInt(flags)` -/
def WritesFlags (declaration : Declaration) : Prop :=
  .write .int (.name flagsPropertyName) ∈ declaration.serializeStatements

end Declaration

/-! ## Tests of the word -/

/-- The masks that a statement tests. -/
def Stmt.masks : Stmt → List (BitVec 32)
  | .declare _ (.flagCheck flagPosition) => [flagPosition]
  | .ifFlag flagPosition _ => [flagPosition]
  | _ => []

/-- The masks that the parse statements of a property test. -/
def TLPropertySpec.masks (spec : TLPropertySpec) : List (BitVec 32) :=
  (addPropertyParseStatement spec.name spec.typeSpec spec.flag).flatMap Stmt.masks

/-- Everything but a collection and an `Any` tests its flag. -/
def TLTypeSpec.TestsFlag : TLTypeSpec → Prop
  | .collection _ => False
  | .any => False
  | .genericParameter type => type.TestsFlag
  | _ => True

theorem masks_addParsedPropertyStatement (name : String) (e : Expr) (index : ℤ) :
    (addParsedPropertyStatement name e (some index)).flatMap Stmt.masks = [flagPosition index] :=
      rfl

theorem mem_masks_iff {spec : TLPropertySpec} {index : ℤ} (flag : spec.flag = some index)
    {mask : BitVec 32} :
    mask ∈ spec.masks ↔ spec.typeSpec.TestsFlag ∧ mask = flagPosition index := by
  obtain ⟨name, flag', type⟩ := spec
  obtain rfl : flag' = some index := flag
  rw [TLPropertySpec.masks]
  induction type using TLTypeSpec.TestsFlag.induct with
  | case1 element =>
    simp [addPropertyParseStatement, addCollectionParseStatement, addLocalPropertyParseStatement,
      addParsedPropertyStatement, Stmt.masks, TLTypeSpec.TestsFlag]
  | case2 => simp [addPropertyParseStatement, TLTypeSpec.TestsFlag]
  | case3 type ih => simpa [addPropertyParseStatement, TLTypeSpec.TestsFlag] using ih
  | case4 type =>
    cases type <;>
      simp_all [addPropertyParseStatement, addObjectParseStatement, addContainerParseStatement,
        addTypeParseStatement, addLocalPropertyParseStatement, addBytesParseStatement,
        addFlagParseStatement, masks_addParsedPropertyStatement, TLTypeSpec.TestsFlag, Stmt.masks]

/-! ## Correct words -/

/-- A word has the bits of the present fields and no others. -/
def WordOf (fields : List Field) (flags : BitVec 32) : Prop :=
  ∀ i < 32, flags.getLsbD i = true ↔
    ∃ field ∈ fields, field.1.flag = some (i : ℤ) ∧ present field = true

/-- Every test that is emitted for a property finds the bit of its index. -/
def TestsRecover (specs : List TLPropertySpec) (flags : BitVec 32) : Prop :=
  ∀ spec ∈ specs, ∀ index ∈ spec.flag, ∀ mask ∈ spec.masks, ∀ st : State,
    st.locals.lookup flagsPropertyName = some (.prim (.int flags)) →
      flagCheck mask st = .ok (flags.getLsbD index.toNat, st)

/-- The word that `serialize` writes is the word of the fields, the tests of `parse` recover it,
and `parse` reads a word if `serialize` writes one. -/
def FlagsCorrect (declaration : Declaration) (values : List Value) : Prop :=
  (∃ flags, (leafContext (Java.codec fun _ => []) 0).runSerialize
        (fieldLocals declaration.propertiesSpecs values)
        (addFlaggingSerializationLogic declaration.propertiesSpecs) = .ok (Java.writeInt flags) ∧
      WordOf (declaration.propertiesSpecs.zip values) flags ∧
      TestsRecover declaration.propertiesSpecs flags) ∧
    (declaration.ReadsFlags ↔ declaration.WritesFlags)

/-- Does a field write the bit of an index: its own, or every bit from index `31` on? -/
def sharesBit (index : ℤ) (field : Field) : Bool :=
  match field.1.flag with
  | some i => i = index ∨ 31 ≤ i
  | none => false

/-- Is the last field that writes the bit of an index present? -/
def lastPresent (index : ℤ) (fields : List Field) : Bool :=
  ((fields.filter (sharesBit index)).getLast?.map present).getD false

/-- Fields whose flags do not get into each other's way. -/
structure FlagsAgree (fields : List Field) : Prop where
  /-- There is no mask for bit `31`. -/
  top : ∀ field ∈ fields, field.1.flag = some 31 → present field = false
  /-- A field that shares its index is not cleared by a later one. -/
  last : ∀ field ∈ fields, ∀ index ∈ field.1.flag, index ≤ 30 → present field = true →
    lastPresent index fields = true
  /-- The test for index `31` finds every other flag. -/
  tested : ∀ field ∈ fields, field.1.flag = some 31 → field.1.typeSpec.TestsFlag →
    ∀ other ∈ fields, other.1.flag.isSome → present other = false

section Bits

variable {fields : List Field}

theorem covers_eq_sharesBit {b : ℕ} (hb : b ≤ 30) (field : Field) :
    covers b field = sharesBit b field := by
  unfold covers sharesBit
  cases field.1.flag with
  | none => rfl
  | some i =>
    rw [Bool.eq_iff_iff]
    by_cases hneg : i < 0
    · simp only [flagPosition, if_pos hneg, decide_eq_true_eq]
      have hzero : (0 : BitVec 32).getLsbD b = false := BitVec.getLsbD_zero
      rw [hzero]
      simp only [Bool.false_eq_true, false_iff]
      omega
    by_cases htop : i ≤ 30
    · simp only [getLsbD_flagPosition_of_le (Int.not_lt.1 hneg) htop, decide_eq_true_eq]
      omega
    · simp only [getLsbD_flagPosition_of_lt (Int.not_le.1 htop), decide_eq_true_eq]
      omega

/-- No mask has the top bit. -/
theorem getLsbD_flagsWord_top (fields : List Field) : (flagsWord fields).getLsbD 31 = false := by
  have hnil : fields.filter (covers 31) = [] := by
    refine List.filter_eq_nil_iff.2 fun field _ => ?_
    unfold covers
    cases field.1.flag with
    | none => simp
    | some i =>
      by_cases hneg : i < 0
      · simp [flagPosition, hneg]
      by_cases htop : i ≤ 30
      · simp only [getLsbD_flagPosition_of_le (Int.not_lt.1 hneg) htop, decide_eq_true_eq]
        omega
      · simp only [getLsbD_flagPosition_of_lt (Int.not_le.1 htop), decide_eq_true_eq]
        omega
  rw [getLsbD_flagsWord fields (by omega), decidedBit, hnil]
  rfl

theorem getLsbD_flagsWord_of_le {b : ℕ} (hb : b ≤ 30) :
    (flagsWord fields).getLsbD b = lastPresent b fields := by
  have hcovers : covers b = sharesBit b := funext (covers_eq_sharesBit hb)
  rw [getLsbD_flagsWord fields (by omega), decidedBit, lastPresent, hcovers]

/-- A field that decides a bit is one of the fields that write it. -/
theorem exists_of_lastPresent {index : ℤ} (h : lastPresent index fields = true) :
    ∃ field ∈ fields, sharesBit index field = true ∧ present field = true := by
  unfold lastPresent at h
  cases hlast : (fields.filter (sharesBit index)).getLast? with
  | none =>
    rw [hlast] at h
    exact absurd h Bool.false_ne_true
  | some field =>
    rw [hlast] at h
    obtain ⟨hmem, hshares⟩ := List.mem_filter.1 (List.mem_of_getLast? hlast)
    exact ⟨field, hmem, hshares, h⟩

theorem wordOf_flagsWord_iff (range : ∀ field ∈ fields, ∀ i ∈ field.1.flag, 0 ≤ i ∧ i ≤ 31) :
    WordOf fields (flagsWord fields) ↔
      (∀ field ∈ fields, field.1.flag = some 31 → present field = false) ∧
      ∀ field ∈ fields, ∀ index ∈ field.1.flag, index ≤ 30 → present field = true →
        lastPresent index fields = true := by
  constructor
  · intro h
    refine ⟨fun field hfield hflag => ?_, fun field hfield index hindex hle hpresent => ?_⟩
    · rw [← Bool.not_eq_true]
      intro hpresent
      have hbit := (h 31 (by omega)).2 ⟨field, hfield, hflag, hpresent⟩
      rw [getLsbD_flagsWord_top] at hbit
      exact Bool.false_ne_true hbit
    · obtain ⟨nonneg, -⟩ := range field hfield index hindex
      obtain ⟨i, rfl⟩ := Int.eq_ofNat_of_zero_le nonneg
      have hbit := (h i (by omega)).2 ⟨field, hfield, hindex, hpresent⟩
      rwa [getLsbD_flagsWord_of_le (by omega)] at hbit
  · rintro ⟨top, last⟩ i hi
    by_cases htop : i = 31
    · subst htop
      rw [getLsbD_flagsWord_top]
      refine ⟨fun h => absurd h Bool.false_ne_true, ?_⟩
      rintro ⟨field, hfield, hflag, hpresent⟩
      rw [← hpresent, top field hfield hflag]
    · rw [getLsbD_flagsWord_of_le (by omega)]
      constructor
      · intro h
        obtain ⟨field, hfield, hshares, hpresent⟩ := exists_of_lastPresent h
        refine ⟨field, hfield, ?_, hpresent⟩
        unfold sharesBit at hshares
        cases hflag : field.1.flag with
        | none => simp [hflag] at hshares
        | some j =>
          simp only [hflag, decide_eq_true_eq] at hshares
          rcases hshares with rfl | hle
          · rfl
          · obtain rfl : j = 31 := Int.le_antisymm (range field hfield j hflag).2 hle
            rw [top field hfield hflag] at hpresent
            exact absurd hpresent Bool.false_ne_true
      · rintro ⟨field, hfield, hflag, hpresent⟩
        exact last field hfield i hflag (by omega) hpresent

/-- A test for index `31` finds every bit of a word. -/
theorem flagSet_top_iff {flags : BitVec 32} (top : flags.getLsbD 31 = false) :
    flagSet flags 31 = true ↔ ∃ b < 32, flags.getLsbD b = true := by
  rw [flagSet_iff]
  constructor
  · rintro ⟨b, hb, hset, -⟩
    exact ⟨b, hb, hset⟩
  · rintro ⟨b, hb, hset⟩
    refine ⟨b, hb, hset, ?_⟩
    rw [getLsbD_flagPosition_of_lt (by omega), decide_eq_true_eq]
    have hne : b ≠ 31 := by
      rintro rfl
      rw [top] at hset
      exact Bool.false_ne_true hset
    omega

end Bits

/-! ## The emitted code -/

section Emitted

variable {specs : List TLPropertySpec} {values : List Value}

theorem writeInt_injective {x y : BitVec 32} (h : Java.writeInt x = Java.writeInt y) : x = y := by
  have hread : Java.readInt (Java.writeInt x ++ []) = (x, []) := Java.readInt_writeInt x
  rw [h, Java.readInt_writeInt] at hread
  exact (Prod.mk.inj hread).1.symm

/-- `serialize` writes the fold of the fields. -/
theorem runSerialize_flagging (length : specs.length = values.length)
    (names : (flagsPropertyName :: specs.map TLPropertySpec.name).Nodup)
    (typed : ∀ field ∈ specs.zip values, FlagTyped field) :
    (leafContext (Java.codec fun _ => []) 0).runSerialize (fieldLocals specs values)
        (addFlaggingSerializationLogic specs) =
      .ok (Java.writeInt (flagsWord (specs.zip values))) := by
  rw [List.nodup_cons] at names
  have hother (field : Field) (h : field ∈ specs.zip values) :
      field.1.name ≠ flagsPropertyName := fun hname =>
    names.1 (hname ▸ List.mem_map_of_mem (List.of_mem_zip h).1)
  have hexec : execBlock (leafContext (Java.codec fun _ => []) 0)
      (addFlaggingSerializationLogic specs) ⟨fieldLocals specs values, [], []⟩ =
      .ok ((), ⟨(flagsPropertyName, .prim (.int (flagsWord (specs.zip values)))) ::
        fieldLocals specs values, [], [] ++ Java.writeInt (flagsWord (specs.zip values))⟩) :=
    exec_flaggingLogic length hother typed (fun f hf => lookup_fieldLocals names.2 hf) rfl
  exact runSerialize_eq hexec

/-- The emitted tests recover a word if the mask test of every tested index does. -/
theorem testsRecover_iff (flags : BitVec 32) :
    TestsRecover specs flags ↔ ∀ spec ∈ specs, ∀ index ∈ spec.flag, spec.typeSpec.TestsFlag →
      flagSet flags index = flags.getLsbD index.toNat := by
  constructor
  · intro h spec hspec index hindex htests
    have hlookup : List.lookup flagsPropertyName [(flagsPropertyName, Value.prim (.int flags))] =
        some (.prim (.int flags)) := lookup_cons_self _
    have hcheck := h spec hspec index hindex _ ((mem_masks_iff hindex).2 ⟨htests, rfl⟩)
      ⟨[(flagsPropertyName, .prim (.int flags))], [], []⟩ hlookup
    rw [flagCheck_eq index hlookup] at hcheck
    exact (Prod.mk.inj (Except.ok.inj hcheck)).1
  · intro h spec hspec index hindex mask hmask st hlookup
    obtain ⟨htests, rfl⟩ := (mem_masks_iff hindex).1 hmask
    rw [flagCheck_eq index hlookup, h spec hspec index hindex htests]

theorem Declaration.writesFlags {declaration : Declaration}
    (declared : declaration.hasFlags = true) :
    declaration.WritesFlags := by
  cases declaration with
  | variant spec =>
    have hflags : spec.hasFlags = true := declared
    simp [WritesFlags, serializeStatements, createObjectSerializeFunctionSpec,
      createContainerSerializeFunctionSpec, hflags, addFlaggingSerializationLogic,
      addLocalPropertySerializeStatement, addSerializeFlagCheckStatement]
  | container spec =>
    have hflags : spec.hasFlags = true := declared
    simp [WritesFlags, serializeStatements, createContainerSerializeFunctionSpec, hflags,
      addFlaggingSerializationLogic, addLocalPropertySerializeStatement,
      addSerializeFlagCheckStatement]

/-- A declaration that is a singleton object. -/
def Declaration.IsSingleton : Declaration → Prop
  | variant spec => spec.propertiesSpecs = []
  | container _ => False

theorem Declaration.readsFlags_iff {declaration : Declaration}
    (declared : declaration.hasFlags = true) :
    declaration.ReadsFlags ↔ ¬ declaration.IsSingleton := by
  cases declaration with
  | variant spec =>
    have hflags : spec.hasFlags = true := declared
    by_cases hempty : spec.propertiesSpecs = []
    · simp [ReadsFlags, parseStatements, addBaseObjectParseFunction, branchStatements, hempty,
        IsSingleton]
    · simp [ReadsFlags, parseStatements, addBaseObjectParseFunction, branchStatements, hempty,
        IsSingleton, addObjectParseFunction, hflags, addLocalPropertyParseStatement,
        addParsedPropertyStatement]
  | container spec =>
    have hflags : spec.hasFlags = true := declared
    simp [ReadsFlags, parseStatements, IsSingleton, addObjectParseFunction, hflags,
      addLocalPropertyParseStatement, addParsedPropertyStatement]

end Emitted

/-- The flags word of a declaration with flags is right exactly if its fields agree and it is no
singleton. -/
theorem flagsCorrect_iff {declaration : Declaration} {values : List Value}
    (declared : declaration.hasFlags = true)
    (length : declaration.propertiesSpecs.length = values.length)
    (names : (flagsPropertyName :: declaration.propertiesSpecs.map TLPropertySpec.name).Nodup)
    (typed : ∀ field ∈ declaration.propertiesSpecs.zip values, FlagTyped field)
    (range : ∀ spec ∈ declaration.propertiesSpecs, ∀ i ∈ spec.flag, 0 ≤ i ∧ i ≤ 31) :
    FlagsCorrect declaration values ↔
      ¬ declaration.IsSingleton ∧ FlagsAgree (declaration.propertiesSpecs.zip values) := by
  have hrange : ∀ field ∈ declaration.propertiesSpecs.zip values, ∀ i ∈ field.1.flag,
      0 ≤ i ∧ i ≤ 31 := fun field hfield => range field.1 (List.of_mem_zip hfield).1
  have hspecs (spec : TLPropertySpec) (hspec : spec ∈ declaration.propertiesSpecs) :
      ∃ value, (spec, value) ∈ declaration.propertiesSpecs.zip values := by
    rw [← List.map_fst_zip (Nat.le_of_eq length)] at hspec
    obtain ⟨⟨spec, value⟩, hmem, rfl⟩ := List.mem_map.1 hspec
    exact ⟨value, hmem⟩
  have hwritten := runSerialize_flagging length names typed
  have htop := getLsbD_flagsWord_top (declaration.propertiesSpecs.zip values)
  have hreads : (declaration.ReadsFlags ↔ declaration.WritesFlags) ↔ ¬ declaration.IsSingleton := by
    rw [Declaration.readsFlags_iff declared, iff_true_right (Declaration.writesFlags declared)]
  rw [FlagsCorrect, hreads, and_comm, and_congr_right_iff]
  intro _
  constructor
  · rintro ⟨flags, hflags, hword, htests⟩
    obtain rfl := writeInt_injective (Except.ok.inj (hwritten.symm.trans hflags))
    obtain ⟨top, last⟩ := (wordOf_flagsWord_iff hrange).1 hword
    refine ⟨top, last, fun field hfield hflag htest other hother hsome => ?_⟩
    obtain ⟨j, hj⟩ := Option.isSome_iff_exists.1 hsome
    rw [← Bool.not_eq_true]
    intro hpresent
    obtain ⟨nonneg, le⟩ := hrange other hother j hj
    -- The bit of the other field answers the test of index `31`.
    have hbit := (hword j.toNat (by omega)).2
      ⟨other, hother, by rw [hj, Int.toNat_of_nonneg nonneg], hpresent⟩
    have hset := (flagSet_top_iff htop).2 ⟨j.toNat, by omega, hbit⟩
    have hrecovered :=
      (testsRecover_iff _).1 htests field.1 (List.of_mem_zip hfield).1 31 hflag htest
    rw [hset] at hrecovered
    exact Bool.false_ne_true (htop.symm.trans hrecovered.symm)
  · rintro ⟨top, last, tested⟩
    have hword := (wordOf_flagsWord_iff hrange).2 ⟨top, last⟩
    refine ⟨_, hwritten, hword, (testsRecover_iff _).2 fun spec hspec index hindex htest => ?_⟩
    obtain ⟨nonneg, le⟩ := range spec hspec index hindex
    by_cases hle : index ≤ 30
    · exact flagSet_of_le nonneg hle _
    obtain rfl : index = 31 := by omega
    obtain ⟨value, hfield⟩ := hspecs spec hspec
    rw [show ((31 : ℤ).toNat) = 31 from rfl, htop, ← Bool.not_eq_true, flagSet_top_iff htop]
    rintro ⟨b, hb, hbit⟩
    obtain ⟨other, hother, hflag, hpresent⟩ := (hword b hb).1 hbit
    have habsent := tested _ hfield hindex htest other hother (by rw [hflag]; rfl)
    rw [hpresent] at habsent
    exact Bool.false_ne_true habsent.symm

/-- The flags of a bot without a photo. -/
theorem flagsCorrect_user :
    FlagsCorrect (.variant user)
      [.prim (.boolean true), .object userEmpty [.prim (.long 7)], .null,
        .list [.prim (.int 1)]] := by
  refine (flagsCorrect_iff rfl rfl (by decide) ?_ ?_).2
    ⟨by simp [Declaration.IsSingleton, user], ?_⟩
  · simp [Declaration.propertiesSpecs, user, FlagTyped]
  · simp [Declaration.propertiesSpecs, user]
  · refine ⟨?_, ?_, ?_⟩ <;>
      simp [Declaration.propertiesSpecs, user, present, lastPresent, sharesBit, List.filter]

/-- Two fields on one index. -/
def sharedIndex : TLObjectSpec where
  name := "sharedIndex"
  constructorHash := 1
  hasFlags := true
  propertiesSpecs := [⟨"first", some 0, .primitive .int⟩, ⟨"second", some 0, .primitive .int⟩]
  genericVariables := []

/-- The second field is absent and clears the flag of the first. -/
theorem not_flagsCorrect_sharedIndex :
    ¬ FlagsCorrect (.variant sharedIndex) [.prim (.int 5), .null] := by
  have hwritten := @runSerialize_flagging sharedIndex.propertiesSpecs [.prim (.int 5), .null] rfl
    (by decide) (by simp [sharedIndex, FlagTyped])
  have hzero : flagsWord (sharedIndex.propertiesSpecs.zip [.prim (.int 5), .null]) = 0 := by decide
  rw [hzero] at hwritten
  rintro ⟨⟨flags, hflags, hword, -⟩, -⟩
  obtain rfl := writeInt_injective (Except.ok.inj (hwritten.symm.trans hflags))
  have hbit := (hword 0 (by decide)).2
    ⟨(⟨"first", some 0, .primitive .int⟩, .prim (.int 5)), List.mem_cons_self .., rfl, rfl⟩
  exact absurd hbit (by decide)

end Mtproto.Generator
