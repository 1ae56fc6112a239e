import Mtproto.Generator.RoundTrip

/-!
# Decoding through the Java buffer

The readers of the Java buffer turn what is missing into zeros, `false` or empty arrays, and the
generated `parse` takes these for values.  `faithful_iff` says when a value that `parse` returns is
really in the input: exactly if the input begins with an encoding of some value of the type.
-/

namespace Mtproto.Generator

/-! ## Values that are in the input -/

section Faithful

variable (scheme : Scheme)

/-- What a call from outside of the generated code can use: it has got no parsers to pass on. -/
def callContext (codec : Codec) (fuel : ℕ) : Context where
  codec := codec
  parse := parse scheme codec fuel
  parsers := []
  serialize := fun _ => .error .unresolved
  fuel := fuel

/-- `T.parse(inputStream, arguments)` with calls nested at most `fuel` deep. -/
def call (codec : Codec) (fuel : ℕ) (type : ParserClass) (arguments : List ParserArgument) :
    Parser := fun input => do
  let given ← arguments.mapM (callContext scheme codec fuel).argument
  parse scheme codec fuel type given input

/-- The encodings of what a call reads. -/
def EncodesCall (form : Prim → List UInt8 → Prop) (depth : ℕ) (type : ParserClass)
    (arguments : List ParserArgument) : Encoding :=
  EncodesInstance form (Encodes scheme form depth) [] type arguments

variable (malformed : List UInt8 → List UInt16) (type : ParserClass)
  (arguments : List ParserArgument)

/-- `parse` returns a value and leaves the rest of the input. -/
def Returns (input : List UInt8) (value : Value) (rest : List UInt8) : Prop :=
  ∃ enough, ∀ fuel ≥ enough,
    call scheme (Java.codec malformed) fuel type arguments input = .ok (value, rest)

/-- Two encodings of one value: the first as it is written, the second with any padding bytes,
length prefixes, invalid UTF-8 and unused bits of flags words. -/
def SameUpToSpelling (value : Value) (written consumed : List UInt8) : Prop :=
  ∃ depth,
    EncodesCall scheme (fun p bytes => (Java.codec malformed).write p = .ok bytes) depth type
      arguments value written ∧
    EncodesCall scheme (Java.Spells malformed) depth type arguments value consumed

/-- What `serialize` writes for a value is what was consumed of the input, up to its spelling. -/
def Faithful (input : List UInt8) (value : Value) (rest : List UInt8) : Prop :=
  ∃ consumed, input = consumed ++ rest ∧
    ∃ enough, ∀ fuel ≥ enough, ∃ written,
      serialize (Java.codec malformed) fuel value = .ok written ∧
      SameUpToSpelling scheme malformed type arguments value written consumed

/-- The input begins with an encoding of some value of the type. -/
def BeginsWithEncoding (input : List UInt8) : Prop :=
  ∃ depth value consumed rest, input = consumed ++ rest ∧
    EncodesCall scheme (Java.Spells malformed) depth type arguments value consumed

end Faithful

section Main

variable {scheme : Scheme} {malformed : List UInt8 → List UInt16} {type : ParserClass}
  {arguments : List ParserArgument} {input rest : List UInt8} {value : Value}

/-- A call reads an encoding. -/
theorem returns_of_encodes (regular : scheme.Regular) {depth : ℕ} {consumed : List UInt8}
    (h : EncodesCall scheme (Java.Spells malformed) depth type arguments value consumed)
    (rest : List UInt8) :
    Returns scheme malformed type arguments (consumed ++ rest) value rest := by
  refine ⟨depth + 2 ^ 31, fun fuel enough => ?_⟩
  have hprims (p : Prim) (bytes rest : List UInt8) (hspells : Java.Spells malformed p bytes) :
      (Java.codec malformed).read p.clazz (bytes ++ rest) = .ok (p, rest) :=
    Java.read_of_spells hspells rest
  have reads : (callContext scheme (Java.codec malformed) fuel).Reads (Java.Spells malformed)
      (Encodes scheme (Java.Spells malformed) depth) [] :=
    { prim := hprims
      parse := fun _ _ _ hgiven => parse_of_encodes regular hprims enough hgiven
      parsers := .nil
      fuel := Nat.le_trans (Nat.le_add_left _ _) enough }
  obtain ⟨encodings, harguments, hinstance⟩ := h
  obtain ⟨given, hgiven, hreads⟩ :=
    forall₂_exists harguments fun _ _ hargument => argument_of_encoding reads hargument
  unfold call
  rw [mapM_of_forall₂ hgiven]
  exact reads.parse type given encodings hreads value consumed rest hinstance

/-- One input gives one result. -/
theorem Returns.unique {value' : Value} {rest' : List UInt8}
    (h : Returns scheme malformed type arguments input value rest)
    (h' : Returns scheme malformed type arguments input value' rest') :
    value = value' ∧ rest = rest' := by
  obtain ⟨enough, hfuel⟩ := h
  obtain ⟨enough', hfuel'⟩ := h'
  have hsame := (hfuel (max enough enough') (Nat.le_max_left _ _)).symm.trans
    (hfuel' (max enough enough') (Nat.le_max_right _ _))
  exact Prod.mk.inj (Except.ok.inj hsame)

/-- What is encoded is written again as an encoding of the same value. -/
theorem exists_written (regular : scheme.Regular) {depth fuel : ℕ} {consumed : List UInt8}
    (h : EncodesCall scheme (Java.Spells malformed) depth type arguments value consumed)
    (enough : sizeOf value ≤ fuel) :
    ∃ written, serialize (Java.codec malformed) fuel value = .ok written ∧
      EncodesCall scheme (fun p bytes => (Java.codec malformed).write p = .ok bytes) depth type
        arguments value written := by
  have hwrites (p : Prim) : ∃ bytes, (Java.codec malformed).write p = .ok bytes ∧
      (Java.codec malformed).write p = .ok bytes := by
    obtain ⟨bytes, hbytes⟩ := Java.write_eq_ok p
    exact ⟨bytes, hbytes, hbytes⟩
  have rewrites : Rewrites (Java.codec malformed) (Java.Spells malformed)
      (fun p bytes => (Java.codec malformed).write p = .ok bytes)
      (Encodes scheme (Java.Spells malformed) depth)
      (Encodes scheme (fun p bytes => (Java.codec malformed).write p = .ok bytes) depth) [] [] :=
    { prim := fun p _ _ => hwrites p
      int := fun n => hwrites (.int n)
      records := fun _ _ _ _ => isRecord_of_encodes
      instances := fun type _ _ hencodings =>
        serialize_of_encodes regular (fun p _ _ => hwrites p) (fun n => hwrites (.int n)) depth
          type hencodings
      parsers := .nil }
  obtain ⟨written, hwritten, hencodes⟩ :=
    rewritesAs_instance rewrites type arguments fuel value consumed h enough
  refine ⟨written, ?_, hencodes⟩
  obtain ⟨encodings, -, hinstance⟩ := h
  have hrecord := isRecord_of_encodes hinstance
  cases value with
  | object spec fields | container spec fields => exact hwritten
  | null | prim p | list elements => exact hrecord.elim

/-- A value that `parse` returns is in the input exactly if the input begins with an encoding of
some value. -/
theorem faithful_iff (regular : scheme.Regular)
    (returns : Returns scheme malformed type arguments input value rest) :
    Faithful scheme malformed type arguments input value rest ↔
      BeginsWithEncoding scheme malformed type arguments input := by
  constructor
  · rintro ⟨consumed, rfl, enough, hfuel⟩
    obtain ⟨written, -, depth, -, hconsumed⟩ := hfuel enough (Nat.le_refl _)
    exact ⟨depth, value, consumed, rest, rfl, hconsumed⟩
  · rintro ⟨depth, value', consumed, rest', rfl, hencodes⟩
    obtain ⟨rfl, rfl⟩ := returns.unique (returns_of_encodes regular hencodes rest')
    refine ⟨consumed, rfl, sizeOf value, fun fuel enough => ?_⟩
    obtain ⟨written, hserialize, hwritten⟩ := exists_written regular hencodes enough
    exact ⟨written, hserialize, depth, hwritten, hencodes⟩

end Main

/-- The bytes of an empty user with the identifier `7`. -/
def userEmptyBytes : List UInt8 := [0x7a, 0x4b, 0xbc, 0xd3, 7, 0, 0, 0, 0, 0, 0, 0]

theorem encodes_userEmptyBytes :
    EncodesCall userScheme (Java.Spells fun _ => []) 1 (.object userType) []
      (.object userEmpty [.prim (.long 7)]) userEmptyBytes := by
  refine ⟨[], .nil, ⟨[], [userEmpty, user]⟩, [], [0x7a, 0x4b, 0xbc, 0xd3],
    [7, 0, 0, 0, 0, 0, 0, 0], by simp [userScheme], by simp, by decide, .nil, rfl, ?_, rfl⟩
  exact ⟨[7, 0, 0, 0, 0, 0, 0, 0], [], ⟨_, rfl, rfl, rfl⟩, rfl, rfl⟩

/-- A complete message is decoded to what it says, with two bytes left. -/
theorem faithful_userEmpty :
    Faithful userScheme (fun _ => []) (.object userType) [] (userEmptyBytes ++ [1, 2])
      (.object userEmpty [.prim (.long 7)]) [1, 2] :=
  (faithful_iff userScheme_plain.toRegular
    (returns_of_encodes userScheme_plain.toRegular encodes_userEmptyBytes [1, 2])).2
    ⟨1, _, userEmptyBytes, [1, 2], rfl, encodes_userEmptyBytes⟩

/-- A message that breaks off in its identifier is decoded to the identifier `0`. -/
theorem not_faithful_truncated :
    Returns userScheme (fun _ => []) (.object userType) [] (userEmptyBytes.take 7)
        (.object userEmpty [.prim (.long 0)]) [7, 0, 0] ∧
      ¬ Faithful userScheme (fun _ => []) (.object userType) [] (userEmptyBytes.take 7)
        (.object userEmpty [.prim (.long 0)]) [7, 0, 0] := by
  constructor
  · refine ⟨1, fun fuel hfuel => ?_⟩
    obtain ⟨fuel, rfl⟩ : ∃ k, fuel = k + 1 := ⟨fuel - 1, by omega⟩
    rfl
  · rintro ⟨consumed, hinput, enough, hfuel⟩
    obtain ⟨written, -, depth, -, encodings, -, hconsumed⟩ := hfuel enough (Nat.le_refl _)
    have hlength := congrArg List.length hinput
    rw [List.length_append] at hlength
    cases depth with
    | zero => exact hconsumed
    | succ depth =>
      obtain ⟨superType, taken, head, tail, -, -, -, -, hhead, htail, rfl⟩ := hconsumed
      obtain ⟨first, others, ⟨p, hp, -, hfirst⟩, -, rfl⟩ := htail
      obtain rfl : Prim.long 0 = p := Value.prim.inj hp
      obtain rfl : head = Java.writeInt userEmpty.constructorHash := hhead
      obtain rfl : first = Java.writeLong 0 := hfirst
      simp [Java.writeInt, Java.writeLong, userEmptyBytes] at hlength

end Mtproto.Generator
