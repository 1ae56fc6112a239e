import Mtproto.Handshake.Prime
import Mtproto.Handshake.Rounds
import Mtproto.Scheme.Confined

/-!
# Hostile replies

`processHandshakeResponse` for the two replies whose byte arrays it reads at fixed places:
`TL_resPQ`, of whose `pq` it takes eight bytes, and `TL_server_DH_params_ok`, whose
`encrypted_answer` it decrypts, searches for the length that fits its hash, and parses.  What the
code reads beyond an array, and what it divides or shifts by, are outcomes of their own.  The hash
and the cipher are parameters, as are the random numbers, the test for primes and whether `assert`
is compiled in.
-/

namespace Mtproto.Handshake

open Mtproto.Bytes Mtproto.Lib Mtproto.Lib.Interruptible Mtproto.Tgnet Mtproto.Scheme
  Mtproto.Scheme.Scan

/-! ## Messages -/

/-- A byte array that a deserializer makes. -/
structure FramedArray where
  bytes : List UInt8
  short : bytes.length < 2 ^ 24

/-- The two replies.  The nonces have been read, so that there are no null pointers. -/
inductive Reply
  | resPQ (nonce server_nonce : List UInt8) (pq : FramedArray)
      (server_public_key_fingerprints : List Int64)
  | server_DH_params_ok (nonce server_nonce : List UInt8) (encrypted_answer : FramedArray)

/-- The decrypted answer; a null pointer is nothing. -/
structure TL_server_DH_inner_data where
  nonce : Option (List UInt8)
  server_nonce : Option (List UInt8)
  g : ℕ
  dh_prime : Option (List UInt8)
  g_a : Option (List UInt8)
  server_time : BitVec 32

def TL_server_DH_inner_data.readParams : Scan TL_server_DH_inner_data := do
  let nonce ← Scan.readBytes 16
  let server_nonce ← Scan.readBytes 16
  let g ← readUint32
  let dh_prime ← readByteArray
  let g_a ← readByteArray
  let server_time ← readInt32
  pure { nonce, server_nonce, g, dh_prime, g_a, server_time }

/-- The null pointer of another constructor is a result that is missing. -/
def TL_server_DH_inner_data.TLdeserialize (constructor : ℕ) : Scan TL_server_DH_inner_data :=
  if constructor = 0xb5890dba then readParams else failed

/-- The constructor and the object of `answerWithHash`. -/
def answerWithHash : Scan TL_server_DH_inner_data := do
  let constructor ← readUint32
  TL_server_DH_inner_data.TLdeserialize constructor

/-! ## The handshake -/

/-- What `processHandshakeResponse` reads of a handshake.  The two later nonces are null until a
`TL_resPQ` has been answered. -/
structure HandshakeFields where
  handshakeState : ℕ
  authNonce : List UInt8
  authServerNonce : Option (List UInt8)
  authNewNonce : Option (List UInt8)
  isCdnDatacenter : Bool
  datacenterId : ℤ
  publicKey : String
  serverKeys : ServerKeys
  cdnKeys : CdnKeys

/-- The functions of the library. -/
structure Crypto where
  sha1 : List UInt8 → List UInt8
  aesIge : List UInt8 → List UInt8 → List UInt8 → List UInt8
  length_aesIge : ∀ key iv bytes, (aesIge key iv bytes).length = bytes.length
  checkPrime : ℕ → Bool

/-- What a reply leads to. -/
inductive Outcome
  | ignored
  | acknowledged
  | loadsCdnConfig
  | restarted
  | proceeded
  | aborted
  | nullPointer
  | readOutside
  | keyOutside
  | remainderByZero
  | shiftByWidth
  | unfinished
deriving DecidableEq, Repr

/-- The handshake proceeds or restarts. -/
def Outcome.orderly : Outcome → Bool
  | .ignored | .acknowledged | .loadsCdnConfig | .restarted | .proceeded => true
  | _ => false

/-- The eight bytes of `pq`. -/
def pqOf (bytes : List UInt8) : Option ℕ :=
  if 8 ≤ bytes.length then some (beNat (bytes.take 8)) else none

/-- What `processHandshakeResponse` makes of the search for a factor. -/
def afterFactors : Factorization → Outcome
  | .found _ _ => .proceeded
  | .failed => .restarted
  | .remainderByZero => .remainderByZero
  | .shiftByWidth => .shiftByWidth
  | .unfinished => .unfinished

/-- The branch for `TL_resPQ`; the search for the key may read past the end of its list. -/
def processResPQ (draws : ℕ → ℕ) (h : HandshakeFields) (nonce pq : List UInt8)
    (fingerprints : List Int64) : Outcome :=
  if h.handshakeState ≠ 1 then .acknowledged
  else if h.authNonce ≠ nonce then .restarted
  else
    match selectKey h.isCdnDatacenter h.datacenterId h.publicKey h.serverKeys h.cdnKeys
        fingerprints with
    | none => .keyOutside
    | some selection =>
        if selection.keyFingerprint = 0 then
          if h.isCdnDatacenter then .loadsCdnConfig else .restarted
        else
          match pqOf pq with
          | none => .readOutside
          | some what => afterFactors (factorizeValue shiftOne draws what 15)

/-- `tmpAesKeyAndIv` before the hash of the answer is put behind it. -/
def tmpAesKeyAndIv (sha1 : List UInt8 → List UInt8) (authNewNonce authServerNonce : List UInt8) :
    List UInt8 :=
  sha1 (authNewNonce ++ authServerNonce) ++ sha1 (authServerNonce ++ authNewNonce) ++
    sha1 (authNewNonce ++ authNewNonce) ++ authNewNonce.take 4

/-- The decrypted bytes of the answer. -/
def Crypto.decrypt (crypto : Crypto) (authNewNonce authServerNonce answer : List UInt8) :
    List UInt8 :=
  let tmp := tmpAesKeyAndIv crypto.sha1 authNewNonce authServerNonce
  crypto.aesIge (tmp.take 32) ((tmp.drop 32).take 32) answer

/-- The loop over `i`: has one of the lengths that are left the hash in front?  The lengths are
differences of `uint32_t`, and bytes that the array does not have give no result. -/
def hashVerified (sha1 : List UInt8 → List UInt8) (answer : List UInt8) : ℕ → ℕ → Option Bool
  | 0, _ => some false
  | n + 1, i =>
      let length := sub32 (sub32 answer.length i) 20
      if 20 + length ≤ answer.length then
        if sha1 ((answer.drop 20).take length) = answer.take 20 then some true
        else hashVerified sha1 answer n (i + 1)
      else none

/-- `isGoodGaAndGb`. -/
def isGoodGaAndGb (g_a p : ℕ) : Bool :=
  if bnNumBytes g_a > 256 ∨ bnNumBits g_a < 2048 - 64 ∨ p ≤ g_a then false
  else if bnNumBits (p - g_a) < 2048 - 64 then false
  else true

/-- What is checked of the parsed answer. -/
def checkInner (crypto : Crypto) (authNonce authServerNonce : List UInt8)
    (inner : TL_server_DH_inner_data) :
    Outcome :=
  match inner.nonce with
  | none => .nullPointer
  | some nonce =>
      if authNonce ≠ nonce then .restarted
      else
        match inner.server_nonce with
        | none => .nullPointer
        | some server_nonce =>
            if authServerNonce ≠ server_nonce then .restarted
            else
              match inner.dh_prime, inner.g_a with
              | some dh_prime, some g_a =>
                  if !isGoodPrime crypto.checkPrime goodPrime (beNat dh_prime) inner.g then
                    .restarted
                  else if !isGoodGaAndGb (beNat g_a) (beNat dh_prime) then .restarted
                  else .proceeded
              | _, _ => .nullPointer

/-- The answer without its hash is parsed; a parser that looks behind its buffer looks behind the
array. -/
def parseAnswer (crypto : Crypto) (authNonce authServerNonce answer : List UInt8) : Outcome :=
  let start : Stream := { buffer := .sliced (answer.drop 20) }
  let (inner, stream) := answerWithHash start
  if stream.reach > start.buffer.limit then .readOutside
  else if stream.error then .restarted
  else
    match inner with
    | none => .nullPointer
    | some inner => checkInner crypto authNonce authServerNonce inner

/-- The branch for `TL_server_DH_params_ok`; the cipher asserts that it is given whole blocks. -/
def processDhParams (crypto : Crypto) (assertions : Bool) (h : HandshakeFields)
    (answer : List UInt8) : Outcome :=
  if h.handshakeState ≠ 2 then .acknowledged
  else
    match h.authNewNonce, h.authServerNonce with
    | some authNewNonce, some authServerNonce =>
        if assertions ∧ answer.length % 16 ≠ 0 then .aborted
        else
          let answer := crypto.decrypt authNewNonce authServerNonce answer
          match hashVerified crypto.sha1 answer 16 0 with
          | none => .readOutside
          | some false => .restarted
          | some true => parseAnswer crypto h.authNonce authServerNonce answer
    | _, _ => .nullPointer

/-- `processHandshakeResponse` for the two replies. -/
def processHandshakeResponse (crypto : Crypto) (assertions : Bool) (draws : ℕ → ℕ)
    (h : HandshakeFields) :
    Reply → Outcome
  | .resPQ nonce _ pq fingerprints =>
      if h.handshakeState = 0 then .ignored else processResPQ draws h nonce pq.bytes fingerprints
  | .server_DH_params_ok _ _ encrypted_answer =>
      if h.handshakeState = 0 then .ignored else
        processDhParams crypto assertions h encrypted_answer.bytes

/-! ## Parsing the answer -/

section Parsing

variable {α β : Type}

instance : Moves Stream.Confined TL_server_DH_inner_data.readParams := by
  unfold TL_server_DH_inner_data.readParams
  infer_instance

instance (constructor : ℕ) :
    Moves Stream.Confined (TL_server_DH_inner_data.TLdeserialize constructor) := by
  unfold TL_server_DH_inner_data.TLdeserialize
  infer_instance

instance : Moves Stream.Confined answerWithHash := by
  unfold answerWithHash
  infer_instance

instance : Moves Stream.Onward longVector := Plain.moves

theorem sound_of_onward {m : Scan α} [moves : Moves Stream.Onward m] {s : Stream} (hs : s.Sound) :
    (m s).2.Sound := (moves.moves s hs).toInside.sound hs

/-- A read is followed by the rest of the parser. -/
theorem total_bind {m : Scan α} [Moves Stream.Onward m] (total : ∀ s, (m s).1 ≠ none)
    {f : α → Scan β}
    {s : Stream} {r : Option β × Stream} (hs : s.Sound) (run : (m >>= f) s = r) :
    ∃ a t, t.Sound ∧ f a t = r := by
  have sound := sound_of_onward (m := m) hs
  have total := total s
  rcases first : m s with ⟨_ | a, t⟩
  · rw [first] at total
    exact absurd rfl total
  · rw [first] at sound
    rw [bind_of_some first] at run
    exact ⟨a, t, sound, run⟩

/-- Without an error at the end a pointer that was read is not null. -/
theorem pointer_bind {m : Scan (Option α)} [reports : Reports m] [Moves Stream.Onward m]
    {f : Option α → Scan β} [rest : ∀ a, Moves Stream.Onward (f a)] {s : Stream}
    {r : Option β × Stream} (hs : s.Sound) (run : (m >>= f) s = r) (fine : r.2.error = false) :
    ∃ a t, m s = (some (some a), t) ∧ t.Sound ∧ f (some a) t = r := by
  have sound := sound_of_onward (m := m) hs
  have total := reports.some_value s
  have null := reports.reports s
  rcases first : m s with ⟨_ | value, t⟩
  · rw [first] at total
    exact absurd rfl total
  · rw [first] at sound null
    rw [bind_of_some first] at run
    rcases value with _ | a
    · have kept := ((rest none).moves t sound).error (null rfl)
      rw [run, fine] at kept
      cases kept
    · exact ⟨a, t, rfl, sound, run⟩

theorem readUint32_total (s : Stream) : (readUint32 s).1 ≠ none := Option.some_ne_none _

theorem readInt32_total (s : Stream) : (readInt32 s).1 ≠ none := Option.some_ne_none _

theorem readParams_fine {s : Stream} {r : Option TL_server_DH_inner_data × Stream} (hs : s.Sound)
    (run : TL_server_DH_inner_data.readParams s = r) (fine : r.2.error = false) :
    ∃ nonce server_nonce g dh_prime g_a server_time,
      r.1 = some ⟨some nonce, some server_nonce, g, some dh_prime, some g_a, server_time⟩ := by
  unfold TL_server_DH_inner_data.readParams at run
  obtain ⟨nonce, t, -, ht, run⟩ := pointer_bind hs run fine
  obtain ⟨server_nonce, u, -, hu, run⟩ := pointer_bind ht run fine
  obtain ⟨g, v, hv, run⟩ := total_bind readUint32_total hu run
  obtain ⟨dh_prime, w, -, hw, run⟩ := pointer_bind hv run fine
  obtain ⟨g_a, x, -, hx, run⟩ := pointer_bind hw run fine
  obtain ⟨server_time, y, -, run⟩ := total_bind readInt32_total hx run
  rw [← run]
  exact ⟨nonce, server_nonce, g, dh_prime, g_a, server_time, rfl⟩

/-- Without an error no pointer of the answer is null. -/
theorem answerWithHash_fine {s : Stream} {r : Option TL_server_DH_inner_data × Stream}
    (hs : s.Sound)
    (run : answerWithHash s = r) (fine : r.2.error = false) :
    ∃ nonce server_nonce g dh_prime g_a server_time,
      r.1 = some ⟨some nonce, some server_nonce, g, some dh_prime, some g_a, server_time⟩ := by
  unfold answerWithHash at run
  obtain ⟨constructor, t, ht, run⟩ := total_bind readUint32_total hs run
  unfold TL_server_DH_inner_data.TLdeserialize at run
  by_cases expected : constructor = 0xb5890dba
  · rw [if_pos expected] at run
    exact readParams_fine ht run fine
  · rw [if_neg expected] at run
    rw [← run] at fine
    cases fine

theorem checkInner_orderly (crypto : Crypto)
    (authNonce authServerNonce nonce server_nonce : List UInt8) (g : ℕ)
    (dh_prime g_a : List UInt8) (server_time : BitVec 32) :
    (checkInner crypto authNonce authServerNonce
      ⟨some nonce, some server_nonce, g, some dh_prime, some g_a, server_time⟩).orderly = true := by
  rw [checkInner]
  dsimp only
  split
  · rfl
  · split
    · rfl
    · split
      · rfl
      · split <;> rfl

/-- Parsing the answer stays inside it and ends well. -/
theorem parseAnswer_orderly (crypto : Crypto) (authNonce authServerNonce : List UInt8)
    {answer : List UInt8}
    (short : answer.length < 2 ^ 24) :
    (parseAnswer crypto authNonce authServerNonce answer).orderly = true := by
  have length : (answer.drop 20).length < 2 ^ 24 := by
    rw [List.length_drop]
    omega
  have hs : Stream.Sound { buffer := .sliced (answer.drop 20) } :=
    ⟨NativeByteBuffer.wf_sliced (by omega), by
      show (answer.drop 20).length + 2 ^ 24 + 8 ≤ 2 ^ 32
      omega⟩
  have moves : Moves Stream.Confined answerWithHash := inferInstance
  have inside := (moves.moves _ hs).2 (Nat.zero_le _)
  have fields := answerWithHash_fine hs rfl
  rw [parseAnswer]
  dsimp only
  rw [if_neg (Nat.not_lt.2 inside)]
  split
  · rfl
  · rename_i fine
    obtain ⟨nonce, server_nonce, g, dh_prime, g_a, server_time, value⟩ :=
      fields (Bool.eq_false_of_not_eq_true fine)
    rw [value]
    exact checkInner_orderly crypto authNonce authServerNonce nonce server_nonce g dh_prime g_a
      server_time

/-! ## What the deserializers make -/

/-- The object with a reply in it. -/
def Reply.record : Reply → Record
  | .resPQ nonce server_nonce pq server_public_key_fingerprints =>
      .resPQ (some nonce) (some server_nonce) (some pq.bytes)
        (server_public_key_fingerprints.map Int64.toBitVec)
  | .server_DH_params_ok nonce server_nonce encrypted_answer =>
      .server_DH_params_ok (some nonce) (some server_nonce) (some encrypted_answer.bytes)

theorem exists_framedArray {s t : Stream} {bytes : List UInt8}
    (run : readByteArray s = (some (some bytes), t)) : ∃ a : FramedArray, a.bytes = bytes := by
  have read : (Input.readByteArray s.toInput).1 = some bytes :=
    Option.some.inj (congrArg Prod.fst run)
  exact ⟨⟨bytes, readByteArray_length read⟩, rfl⟩

theorem exists_fingerprints (words : List (BitVec 64)) :
    ∃ fingerprints : List Int64, fingerprints.map Int64.toBitVec = words :=
  ⟨words.map Int64.ofBitVec, by rw [List.map_map]; exact List.map_id _⟩

theorem resPQ_record {s t : Stream} (hs : s.Sound) {record : Record}
    (run : TL_resPQ.readParams s = (some record, t)) (fine : t.error = false) :
    ∃ reply : Reply, reply.record = record := by
  rw [TL_resPQ.readParams] at run
  obtain ⟨nonce, t, -, ht, run⟩ := pointer_bind hs run fine
  obtain ⟨server_nonce, u, -, hu, run⟩ := pointer_bind ht run fine
  obtain ⟨pq, v, read, -, run⟩ := pointer_bind hu run fine
  obtain ⟨pq, rfl⟩ := exists_framedArray read
  rcases vector : longVector v with ⟨_ | words, w⟩
  · rw [bind_of_none vector] at run
    cases run
  · rw [bind_of_some vector] at run
    obtain ⟨fingerprints, rfl⟩ := exists_fingerprints words
    exact ⟨.resPQ nonce server_nonce pq fingerprints, Option.some.inj (congrArg Prod.fst run)⟩

theorem server_DH_params_ok_record {s t : Stream} (hs : s.Sound) {record : Record}
    (run : TL_server_DH_params_ok.readParams s = (some record, t)) (fine : t.error = false) :
    ∃ reply : Reply, reply.record = record := by
  unfold TL_server_DH_params_ok.readParams at run
  obtain ⟨nonce, t, -, ht, run⟩ := pointer_bind hs run fine
  obtain ⟨server_nonce, u, -, hu, run⟩ := pointer_bind ht run fine
  obtain ⟨answer, v, read, -, run⟩ := pointer_bind hu run fine
  obtain ⟨answer, rfl⟩ := exists_framedArray read
  exact ⟨.server_DH_params_ok nonce server_nonce answer, Option.some.inj (congrArg Prod.fst run)⟩

end Parsing

/-! ## The search for the hash -/

section HashSearch

variable {sha1 : List UInt8 → List UInt8} {answer : List UInt8} {n i : ℕ}

/-- The hash in front is that of the rest less `i` bytes. -/
def HashAt (sha1 : List UInt8 → List UInt8) (answer : List UInt8) (i : ℕ) : Prop :=
  i + 20 ≤ answer.length ∧ sha1 ((answer.drop 20).take (answer.length - 20 - i)) = answer.take 20

theorem hash_length (short : answer.length < 2 ^ 24) (few : i < 16)
    (fits : i + 20 ≤ answer.length) :
    sub32 (sub32 answer.length i) 20 = answer.length - 20 - i := by
  rw [sub32, sub32, u32, u32]
  omega

theorem hash_length_beyond (short : answer.length < 2 ^ 24) (few : i < 16)
    (beyond : answer.length < i + 20) :
    answer.length < 20 + sub32 (sub32 answer.length i) 20 := by
  rw [sub32, sub32, u32, u32]
  omega

theorem hashVerified_succ (sha1 : List UInt8 → List UInt8) (n : ℕ) (short : answer.length < 2 ^ 24)
    (few : i < 16) :
    (HashAt sha1 answer i ∧ hashVerified sha1 answer (n + 1) i = some true) ∨
      (¬ HashAt sha1 answer i ∧ i + 20 ≤ answer.length ∧
        hashVerified sha1 answer (n + 1) i = hashVerified sha1 answer n (i + 1)) ∨
      (answer.length < i + 20 ∧ hashVerified sha1 answer (n + 1) i = none) := by
  rw [hashVerified]
  by_cases fits : i + 20 ≤ answer.length
  · rw [hash_length short few fits, if_pos (by omega)]
    by_cases found : sha1 ((answer.drop 20).take (answer.length - 20 - i)) = answer.take 20
    · rw [if_pos found]
      exact .inl ⟨⟨fits, found⟩, rfl⟩
    · rw [if_neg found]
      exact .inr (.inl ⟨fun h => found h.2, fits, rfl⟩)
  · have beyond := hash_length_beyond short few (Nat.lt_of_not_le fits)
    rw [if_neg (by omega)]
    exact .inr (.inr ⟨Nat.lt_of_not_le fits, rfl⟩)

/-- The search stays inside when all its lengths are there, or the hash is found before one is
not. -/
theorem hashVerified_inside_iff (short : answer.length < 2 ^ 24) (left : i + n = 16) :
    hashVerified sha1 answer n i ≠ none ↔ n = 0 ∨ 35 ≤ answer.length ∨ ∃ k, i ≤ k ∧
      HashAt sha1 answer k := by
  induction n generalizing i with
  | zero => exact iff_of_true (Option.some_ne_none _) (.inl rfl)
  | succ n ih =>
      rcases hashVerified_succ sha1 n short (by omega : i < 16) with
        ⟨found, run⟩ | ⟨other, fits, run⟩ | ⟨beyond, run⟩
      · rw [run]
        exact iff_of_true (Option.some_ne_none _) (.inr (.inr ⟨i, le_refl i, found⟩))
      · rw [run, ih (by omega)]
        refine ⟨?_, ?_⟩
        · rintro (last | long | ⟨k, le, found⟩)
          · exact .inr (.inl (by omega))
          · exact .inr (.inl long)
          · exact .inr (.inr ⟨k, by omega, found⟩)
        · rintro (last | long | ⟨k, le, found⟩)
          · omega
          · exact .inr (.inl long)
          · have later : k ≠ i := by
              rintro rfl
              exact other found
            exact .inr (.inr ⟨k, by omega, found⟩)
      · rw [run]
        refine iff_of_false (fun inside => inside rfl) ?_
        rintro (last | long | ⟨k, le, fits, -⟩)
        · omega
        · omega
        · omega

end HashSearch

/-! ## Which replies are harmless -/

section Replies

variable (crypto : Crypto) (assertions : Bool) (draws : ℕ → ℕ) (h : HandshakeFields)

/-- A `TL_resPQ` that is taken up at all: the search for the key stays in its lists and, if it finds
one, `pq` has eight bytes with a number of at least 2 whose first thirteen walks are not all
fruitless within a thousand steps. -/
def HarmlessPQ (nonce pq : List UInt8) (fingerprints : List Int64) : Prop :=
  h.handshakeState = 1 → h.authNonce = nonce →
    ∃ selection,
        selectKey h.isCdnDatacenter h.datacenterId h.publicKey h.serverKeys h.cdnKeys fingerprints =
        some selection ∧
      (selection.keyFingerprint ≠ 0 → 8 ≤ pq.length ∧ 2 ≤ beNat (pq.take 8) ∧
        ¬ FruitlessFrom draws (beNat (pq.take 8)) 0 0)

/-- A `TL_server_DH_params_ok` that is taken up at all: the nonces are there, the answer has whole
blocks if that is asserted, and it has 35 bytes or, with fewer, has a hash in front that is found in
time. -/
def HarmlessAnswer (answer : List UInt8) : Prop :=
  h.handshakeState = 2 →
    ∃ authNewNonce authServerNonce, h.authNewNonce = some authNewNonce ∧
      h.authServerNonce = some authServerNonce ∧
      (assertions = true → answer.length % 16 = 0) ∧
      (35 ≤ answer.length ∨
        ∃ i, HashAt crypto.sha1 (crypto.decrypt authNewNonce authServerNonce answer) i)

/-- The replies after which the handshake goes on as it should. -/
def Harmless : Reply → Prop
  | .resPQ nonce _ pq fingerprints => HarmlessPQ draws h nonce pq.bytes fingerprints
  | .server_DH_params_ok _ _ encrypted_answer =>
      HarmlessAnswer crypto assertions h encrypted_answer.bytes

variable {crypto assertions draws h}

theorem afterFactors_orderly_iff (out : Factorization) :
    (afterFactors out).orderly = true ↔ out.IsAnswer := by
  cases out <;> simp [afterFactors, Outcome.orderly, Factorization.IsAnswer]

theorem harmlessPQ_iff {nonce pq : List UInt8} {fingerprints : List Int64} {selection : Selection}
    (state : h.handshakeState = 1) (same : h.authNonce = nonce)
    (selected : selectKey h.isCdnDatacenter h.datacenterId h.publicKey h.serverKeys h.cdnKeys
      fingerprints =
      some selection) :
    HarmlessPQ draws h nonce pq fingerprints ↔ (selection.keyFingerprint ≠ 0 →
      8 ≤ pq.length ∧ 2 ≤ beNat (pq.take 8) ∧ ¬ FruitlessFrom draws (beNat (pq.take 8)) 0 0) := by
  refine ⟨?_, fun all _ _ => ⟨selection, selected, all⟩⟩
  intro harmless
  obtain ⟨other, eq, all⟩ := harmless state same
  rw [selected] at eq
  obtain rfl := Option.some.inj eq
  exact all

theorem processResPQ_orderly_iff (nonce pq : List UInt8) (fingerprints : List Int64) :
    (processResPQ draws h nonce pq fingerprints).orderly = true ↔
      HarmlessPQ draws h nonce pq fingerprints := by
  rw [processResPQ]
  by_cases state : h.handshakeState = 1
  · rw [if_neg (not_not.2 state)]
    by_cases same : h.authNonce = nonce
    · rw [if_neg (not_not.2 same)]
      cases selected :
        selectKey h.isCdnDatacenter h.datacenterId h.publicKey h.serverKeys h.cdnKeys fingerprints
          with
      | none =>
          refine iff_of_false Bool.false_ne_true fun harmless => ?_
          obtain ⟨selection, found, -⟩ := harmless state same
          rw [selected] at found
          cases found
      | some selection =>
          rw [harmlessPQ_iff state same selected]
          dsimp only
          by_cases zero : selection.keyFingerprint = 0
          · rw [if_pos zero]
            refine iff_of_true ?_ fun found => absurd zero found
            split <;> rfl
          · rw [if_neg zero, pqOf]
            by_cases eight : 8 ≤ pq.length
            · rw [if_pos eight]
              dsimp only
              rw [afterFactors_orderly_iff, factorizeValue_isAnswer_iff]
              exact ⟨fun answers _ => ⟨eight, answers⟩, fun all => (all zero).2⟩
            · rw [if_neg eight]
              exact iff_of_false Bool.false_ne_true fun all => eight (all zero).1
    · rw [if_pos same]
      exact iff_of_true rfl fun _ eq => absurd eq same
  · rw [if_pos state]
    exact iff_of_true rfl fun eq => absurd eq state

theorem harmlessAnswer_iff {new server answer : List UInt8} (state : h.handshakeState = 2)
    (new_eq : h.authNewNonce = some new) (server_eq : h.authServerNonce = some server) :
    HarmlessAnswer crypto assertions h answer ↔ (assertions = true → answer.length % 16 = 0) ∧
      (35 ≤ answer.length ∨ ∃ i, HashAt crypto.sha1 (crypto.decrypt new server answer) i) := by
  refine ⟨?_, fun all _ => ⟨new, server, new_eq, server_eq, all⟩⟩
  intro harmless
  obtain ⟨n, s, eq, eq', all⟩ := harmless state
  rw [new_eq] at eq
  rw [server_eq] at eq'
  obtain rfl := Option.some.inj eq
  obtain rfl := Option.some.inj eq'
  exact all

theorem processDhParams_orderly_iff {answer : List UInt8} (short : answer.length < 2 ^ 24) :
    (processDhParams crypto assertions h answer).orderly = true ↔
      HarmlessAnswer crypto assertions h answer := by
  rw [processDhParams]
  by_cases state : h.handshakeState = 2
  · rw [if_neg (not_not.2 state)]
    cases new_eq : h.authNewNonce with
    | none =>
        refine iff_of_false Bool.false_ne_true fun harmless => ?_
        obtain ⟨new, _, eq, -⟩ := harmless state
        rw [new_eq] at eq
        cases eq
    | some new =>
        cases server_eq : h.authServerNonce with
        | none =>
            refine iff_of_false Bool.false_ne_true fun harmless => ?_
            obtain ⟨_, server, -, eq, -⟩ := harmless state
            rw [server_eq] at eq
            cases eq
        | some server =>
            rw [harmlessAnswer_iff state new_eq server_eq]
            dsimp only
            have length : (crypto.decrypt new server answer).length = answer.length :=
              crypto.length_aesIge _ _ _
            have inside : hashVerified crypto.sha1 (crypto.decrypt new server answer) 16 0 ≠ none ↔
                35 ≤ answer.length ∨
                  ∃ i, HashAt crypto.sha1 (crypto.decrypt new server answer) i := by
              rw [hashVerified_inside_iff (length ▸ short) (rfl : 0 + 16 = 16), length]
              simp
            by_cases ragged : assertions = true ∧ answer.length % 16 ≠ 0
            · rw [if_pos ragged]
              exact iff_of_false Bool.false_ne_true fun all => ragged.2 (all.1 ragged.1)
            · have whole : assertions = true → answer.length % 16 = 0 := by
                intro on
                by_contra other
                exact ragged ⟨on, other⟩
              rw [if_neg ragged, ← inside]
              cases hashVerified crypto.sha1 (crypto.decrypt new server answer) 16 0 with
              | none => exact iff_of_false Bool.false_ne_true fun all => all.2 rfl
              | some verified =>
                  refine iff_of_true ?_ ⟨whole, Option.some_ne_none _⟩
                  cases verified with
                  | false => rfl
                  | true => exact parseAnswer_orderly crypto h.authNonce server (length ▸ short)
  · rw [if_pos state]
    exact iff_of_true rfl fun eq => absurd eq state

theorem orderly_iff_harmless (crypto : Crypto) (assertions : Bool) (draws : ℕ → ℕ)
    (h : HandshakeFields) (reply : Reply) :
    (processHandshakeResponse crypto assertions draws h reply).orderly = true ↔
      Harmless crypto assertions draws h reply := by
  cases reply with
  | resPQ nonce server_nonce pq fingerprints =>
      rw [processHandshakeResponse, Harmless]
      by_cases zero : h.handshakeState = 0
      · rw [if_pos zero]
        refine iff_of_true rfl fun one => ?_
        omega
      · rw [if_neg zero]
        exact processResPQ_orderly_iff nonce pq.bytes fingerprints
  | server_DH_params_ok nonce server_nonce answer =>
      rw [processHandshakeResponse, Harmless]
      by_cases zero : h.handshakeState = 0
      · rw [if_pos zero]
        refine iff_of_true rfl fun two => ?_
        omega
      · rw [if_neg zero]
        exact processDhParams_orderly_iff answer.short

/-- A reply is followed by the handshake going on or restarting exactly when it is harmless; and
what the deserializers make without an error is a reply. -/
theorem processHandshakeResponse_orderly_iff (crypto : Crypto) (assertions : Bool) (draws : ℕ → ℕ)
    (h : HandshakeFields) :
    (∀ reply : Reply, (processHandshakeResponse crypto assertions draws h reply).orderly = true ↔
      Harmless crypto assertions draws h reply) ∧
    ∀ (s t : Stream) (record : Record), s.Sound → t.error = false →
      TL_resPQ.readParams s = (some record, t) ∨
        TL_server_DH_params_ok.readParams s = (some record, t) →
      ∃ reply : Reply, reply.record = record := by
  refine ⟨orderly_iff_harmless crypto assertions draws h, ?_⟩
  rintro s t record hs fine (run | run)
  · exact resPQ_record hs run fine
  · exact server_DH_params_ok_record hs run fine

/-- A cipher that changes nothing and a hash that is empty. -/
def plain : Crypto := ⟨fun _ => [], fun _ _ bytes => bytes, fun _ _ _ => rfl, fun _ => false⟩

/-- A client that knows one key, in the given state. -/
def waiting (handshakeState : ℕ) : HandshakeFields where
  handshakeState := handshakeState
  authNonce := List.replicate 16 1
  authServerNonce := some (List.replicate 16 2)
  authNewNonce := some (List.replicate 32 3)
  isCdnDatacenter := false
  datacenterId := 2
  publicKey := ""
  serverKeys := ⟨["key"], [1], rfl⟩
  cdnKeys := ⟨[], []⟩

/-- A `pq` that is cut off, one that is 0, one that is 3 and an answer that is empty. -/
theorem not_orderly_short :
    processHandshakeResponse plain false (fun _ => 0) (waiting 1)
        (.resPQ (List.replicate 16 1) (List.replicate 16 2) ⟨[], by decide⟩ [1]) = .readOutside ∧
      processHandshakeResponse plain false (fun _ => 0) (waiting 1)
        (.resPQ (List.replicate 16 1) (List.replicate 16 2) ⟨List.replicate 8 0, by decide⟩ [1]) =
          .remainderByZero ∧
      processHandshakeResponse plain false (fun _ => 0) (waiting 1)
        (.resPQ (List.replicate 16 1) (List.replicate 16 2) ⟨[0, 0, 0, 0, 0, 0, 0, 3], by decide⟩
          [1]) =
          .shiftByWidth ∧
      processHandshakeResponse plain false (fun _ => 0) (waiting 2)
        (.server_DH_params_ok (List.replicate 16 1) (List.replicate 16 2) ⟨[], by decide⟩) =
          .readOutside := by
  refine ⟨?_, ?_, ?_, ?_⟩
  all_goals decide +kernel

end Replies

end Mtproto.Handshake
