import Mathlib.Data.Nat.Size
import Mtproto.Lib.Bytes
import Mtproto.Lib.OrderedMap

/-!
# The keys of a handshake

The part of `processHandshakeResponse` that chooses the RSA key for the fingerprints a server lists
in `TL_resPQ`, and the two places that write a big number into 256 bytes: the RSA result
`encrypted_data` of `req_DH_params` and the authorization key.

The position at which the search for a key stops is described from the two lists alone (`Decides`);
`searchServer_of_decides` then says which entry of `serverPublicKeys` is taken.  The two paddings
are compared with the left-padded encoding of the number.
-/

namespace Mtproto.Handshake

open Mtproto.Bytes Mtproto.Lib

/-! ## Selecting the key -/

/-- `serverPublicKeys` and `serverPublicKeysFingerprints`, which are only ever extended together. -/
structure ServerKeys where
  serverPublicKeys : List String
  serverPublicKeysFingerprints : List UInt64
  same_length : serverPublicKeys.length = serverPublicKeysFingerprints.length

/-- `cdnPublicKeys` and `cdnPublicKeysFingerprints`, by the id of the datacenter. -/
structure CdnKeys where
  cdnPublicKeys : OrderedMap ℤ String
  cdnPublicKeysFingerprints : OrderedMap ℤ UInt64

/-- The two variables that the search assigns. -/
structure Selection where
  keyFingerprint : Int64
  key : String
  deriving DecidableEq, Repr

/-- What they start with. -/
def Selection.start : Selection := ⟨0, ""⟩

/-- The key of the manager stands in when no key is known. -/
def ServerKeys.withDefault (keys : ServerKeys) (publicKey : String) : ServerKeys :=
  if keys.serverPublicKeys = [] then
    { serverPublicKeys := keys.serverPublicKeys ++ [publicKey]
      serverPublicKeysFingerprints := keys.serverPublicKeysFingerprints ++ [0xdd4871feb0a26c27]
      same_length := by simp [keys.same_length] }
  else keys

/-- The loop over `b`: the known fingerprints that are still to be compared with the one that the
server lists at `a`.  Reading `serverPublicKeys` past its end gives no result. -/
def searchKnown (serverPublicKeys : List String) (a : ℕ) (fingerprint : Int64) :
    List UInt64 → Selection → Option Selection
  | [], s => some s
  | known :: rest, s =>
      if fingerprint.toUInt64 = known then do
        let key ← serverPublicKeys[a]?
        pure ⟨fingerprint, key⟩
      else searchKnown serverPublicKeys a fingerprint rest s

/-- The loop over `a`: the fingerprints of the server from index `a` on. -/
def searchServer (keys : ServerKeys) : ℕ → List Int64 → Selection → Option Selection
  | _, [], s => some s
  | a, fingerprint :: rest, s => do
      let s ← searchKnown keys.serverPublicKeys a fingerprint keys.serverPublicKeysFingerprints s
      if s.keyFingerprint ≠ 0 then pure s else searchServer keys (a + 1) rest s

/-- The loop for a cdn datacenter, which does not stop at the first match. -/
def searchCdn (known : UInt64) (key : String) : List Int64 → Selection → Selection
  | [], s => s
  | fingerprint :: rest, s =>
      if fingerprint.toUInt64 = known then searchCdn known key rest ⟨known.toInt64, key⟩
      else searchCdn known key rest s

/-- The choice for a datacenter that is not a cdn one. -/
def selectServerKey (publicKey : String) (keys : ServerKeys) (server : List Int64) :
    Option Selection :=
  searchServer (keys.withDefault publicKey) 0 server .start

/-- The choice of `processHandshakeResponse`; `operator[]` of a map makes an empty text for a
missing entry. -/
def selectKey (isCdnDatacenter : Bool) (datacenterId : ℤ) (publicKey : String) (keys : ServerKeys)
    (cdn : CdnKeys) (server : List Int64) : Option Selection :=
  if isCdnDatacenter then
    match cdn.cdnPublicKeysFingerprints.find datacenterId with
    | some known =>
        some (searchCdn known ((cdn.cdnPublicKeys.find datacenterId).getD "") server .start)
    | none => some .start
  else selectServerKey publicKey keys server

/-! ## Where the search stops -/

/-- The server's fingerprint is one of the known ones. -/
def ServerKeys.Known (keys : ServerKeys) (fingerprint : Int64) : Prop :=
  fingerprint.toUInt64 ∈ keys.serverPublicKeysFingerprints

/-- The entry of the server's list at `a` decides the search: it is known, and it is the first known
one that is not 0 or, when all known ones are 0, the last of them. -/
def Decides (keys : ServerKeys) (server : List Int64) (a : ℕ) (fingerprint : Int64) : Prop :=
  server[a]? = some fingerprint ∧ keys.Known fingerprint ∧
    (∀ c f, c < a → server[c]? = some f → keys.Known f → f = 0) ∧
      (fingerprint = 0 → ∀ c f, server[c]? = some f → keys.Known f → f = 0 ∧ c ≤ a)

theorem searchKnown_eq (serverPublicKeys : List String) (a : ℕ) (fingerprint : Int64)
    (known : List UInt64) (s : Selection) :
    searchKnown serverPublicKeys a fingerprint known s =
      if fingerprint.toUInt64 ∈ known then (serverPublicKeys[a]?).map (⟨fingerprint, ·⟩) else
        some s := by
  induction known with
  | nil => simp [searchKnown]
  | cons first rest ih =>
      by_cases same : fingerprint.toUInt64 = first
      · simp [searchKnown, same, Option.map_eq_bind]
      · simp [searchKnown, same, ih]

section Search

variable {keys : ServerKeys} {server rest : List Int64} {fingerprint first : Int64} {a : ℕ}

theorem searchServer_cons_of_known (known : keys.Known first) (a : ℕ) (rest : List Int64)
    (s : Selection) :
    searchServer keys a (first :: rest) s =
      (keys.serverPublicKeys[a]?).bind fun key =>
        if first ≠ 0 then some ⟨first, key⟩ else searchServer keys (a + 1) rest ⟨first, key⟩ := by
  have mem : first.toUInt64 ∈ keys.serverPublicKeysFingerprints := known
  rw [searchServer, searchKnown_eq, if_pos mem]
  cases keys.serverPublicKeys[a]? <;> rfl

theorem searchServer_cons_of_unknown (unknown : ¬ keys.Known first) (a : ℕ) (rest : List Int64)
    {s : Selection} (zero : s.keyFingerprint = 0) :
    searchServer keys a (first :: rest) s = searchServer keys (a + 1) rest s := by
  have not_mem : first.toUInt64 ∉ keys.serverPublicKeysFingerprints := unknown
  rw [searchServer, searchKnown_eq, if_neg not_mem]
  simp [zero]

/-- With no known fingerprint the variables stay as they are. -/
theorem searchServer_of_unknown (unknown : ∀ f ∈ server, ¬ keys.Known f) (a : ℕ) {s : Selection}
    (zero : s.keyFingerprint = 0) : searchServer keys a server s = some s := by
  induction server generalizing a with
  | nil => rfl
  | cons first rest ih =>
      rw [searchServer_cons_of_unknown (unknown first (by simp)) a rest zero]
      exact ih (fun f mem => unknown f (List.mem_cons_of_mem _ mem)) (a + 1)

theorem Decides.tail (h : Decides keys (first :: rest) (a + 1) fingerprint) :
    Decides keys rest a fingerprint := by
  obtain ⟨found, known, before, zero⟩ := h
  refine ⟨by simpa using found, known, ?_, ?_⟩
  · intro c f lt at_c known_f
    exact before (c + 1) f (by omega) (by simpa using at_c) known_f
  · intro is_zero c f at_c known_f
    have bound := zero is_zero (c + 1) f (by simpa using at_c) known_f
    exact ⟨bound.1, by omega⟩

/-- A deciding 0 at the head has no known fingerprint after it. -/
theorem Decides.unknown_tail (h : Decides keys (0 :: rest) 0 fingerprint) :
    ∀ f ∈ rest, ¬ keys.Known f := by
  intro f mem known_f
  obtain ⟨c, at_c⟩ := List.mem_iff_getElem?.mp mem
  have is_zero : fingerprint = 0 := by
    have found := h.1
    simp only [List.getElem?_cons_zero, Option.some.injEq] at found
    exact found.symm
  have bound := h.2.2.2 is_zero (c + 1) f (by simpa using at_c) known_f
  omega

/-- The key is taken from the place of the deciding fingerprint in the server's list. -/
theorem searchServer_of_decides (h : Decides keys server a fingerprint) (start : ℕ) {s : Selection}
    (zero : s.keyFingerprint = 0) :
    searchServer keys start server s =
      (keys.serverPublicKeys[start + a]?).map (⟨fingerprint, ·⟩) := by
  induction server generalizing start a s with
  | nil => simp [Decides] at h
  | cons first rest ih =>
      cases a with
      | zero =>
          obtain rfl : first = fingerprint := by simpa using h.1
          rw [searchServer_cons_of_known h.2.1, Option.map_eq_bind, Nat.add_zero]
          congr 1
          funext key
          by_cases is_zero : first = 0
          · subst is_zero
            simp [searchServer_of_unknown h.unknown_tail (start + 1)]
          · simp [is_zero]
      | succ a =>
          have step : ∀ {t : Selection}, t.keyFingerprint = 0 →
              searchServer keys (start + 1) rest t =
                (keys.serverPublicKeys[start + (a + 1)]?).map (⟨fingerprint, ·⟩) := by
            intro t zero_t
            rw [ih h.tail (start + 1) zero_t]
            congr 2
            omega
          by_cases known : keys.Known first
          · -- an earlier known fingerprint is 0: its key is read too, and the search goes on
            obtain rfl : first = 0 := h.2.2.1 0 first (by omega) (by simp) known
            rw [searchServer_cons_of_known known]
            by_cases inside : start < keys.serverPublicKeys.length
            · rw [List.getElem?_eq_getElem inside]
              simp [step]
            · rw [List.getElem?_eq_none (by omega), List.getElem?_eq_none (by omega)]
              rfl
          · rw [searchServer_cons_of_unknown known start rest zero, step zero]

/-- A list with a known fingerprint has a deciding one. -/
theorem exists_decides (known : ∃ f ∈ server, keys.Known f) : ∃ a f, Decides keys server a f := by
  induction server with
  | nil => simp at known
  | cons first rest ih =>
      by_cases tail : ∃ f ∈ rest, keys.Known f
      · obtain ⟨a, f, h⟩ := ih tail
        by_cases head : keys.Known first ∧ first ≠ 0
        · refine ⟨0, first, by simp, head.1, by simp, fun is_zero => absurd is_zero head.2⟩
        · have head_zero : keys.Known first → first = 0 := fun k => by_contra fun ne => head ⟨k, ne⟩
          refine ⟨a + 1, f, by simpa using h.1, h.2.1, ?_, ?_⟩
          · intro c g lt at_c known_g
            cases c with
            | zero =>
                obtain rfl : first = g := by simpa using at_c
                exact head_zero known_g
            | succ c => exact h.2.2.1 c g (by omega) (by simpa using at_c) known_g
          · intro is_zero c g at_c known_g
            cases c with
            | zero =>
                obtain rfl : first = g := by simpa using at_c
                exact ⟨head_zero known_g, by omega⟩
            | succ c =>
                have bound := h.2.2.2 is_zero c g (by simpa using at_c) known_g
                exact ⟨bound.1, by omega⟩
      · obtain ⟨f, mem, known_f⟩ := known
        obtain rfl : f = first := by
          rcases List.mem_cons.mp mem with same | mem
          · exact same
          · exact absurd ⟨f, mem, known_f⟩ tail
        refine ⟨0, f, by simp, known_f, by simp, ?_⟩
        intro is_zero c g at_c known_g
        cases c with
        | zero =>
            obtain rfl : f = g := by simpa using at_c
            exact ⟨is_zero, le_refl 0⟩
        | succ c =>
            have at_rest : rest[c]? = some g := by simpa using at_c
            exact absurd ⟨g, List.mem_of_getElem? at_rest, known_g⟩ tail

end Search

/-! ## The key that the server named -/

/-- The search ends, inside all lists, with no fingerprint where none of the server's is known, or
with a known one of the server's and the key that belongs to it. -/
def NamesKey (keys : ServerKeys) (server : List Int64) (out : Option Selection) : Prop :=
  ∃ s, out = some s ∧
    ((s.keyFingerprint = 0 ∧ ∀ f ∈ server, ¬ keys.Known f) ∨
      ∃ b : ℕ, keys.serverPublicKeysFingerprints[b]? = some s.keyFingerprint.toUInt64 ∧
        s.keyFingerprint ∈ server ∧ keys.serverPublicKeys[b]? = some s.key)

/-- The key at the deciding place of the server's list is one that is stored for this
fingerprint. -/
def KeyAtSamePlace (keys : ServerKeys) (server : List Int64) : Prop :=
  ∀ a f, Decides keys server a f →
    ∃ (b : ℕ) (key : String), keys.serverPublicKeysFingerprints[b]? = some f.toUInt64 ∧
      keys.serverPublicKeys[b]? = some key ∧ keys.serverPublicKeys[a]? = some key

/-- The RSA key is the one that the server named exactly when the deciding fingerprint stands in the
server's list at the index of a key that is stored for it. -/
theorem selectServerKey_names_iff (publicKey : String) (keys : ServerKeys) (server : List Int64) :
    NamesKey (keys.withDefault publicKey) server (selectServerKey publicKey keys server) ↔
      KeyAtSamePlace (keys.withDefault publicKey) server := by
  generalize hk : keys.withDefault publicKey = k
  rw [selectServerKey, hk]
  by_cases known : ∃ f ∈ server, k.Known f
  · obtain ⟨a, f, decides⟩ := exists_decides known
    have run := searchServer_of_decides decides 0 (s := .start) rfl
    rw [Nat.zero_add] at run
    constructor
    · rintro ⟨s, out, ending⟩ a' f' decides'
      have run' := searchServer_of_decides decides' 0 (s := .start) rfl
      rw [out, Nat.zero_add] at run'
      obtain ⟨key, at_a, rfl⟩ := Option.map_eq_some_iff.mp run'.symm
      rcases ending with ⟨-, none_known⟩ | ⟨b, at_b, -, key_b⟩
      · exact absurd decides'.2.1 (none_known f' (List.mem_of_getElem? decides'.1))
      · exact ⟨b, key, at_b, key_b, at_a⟩
    · intro same
      obtain ⟨b, key, at_b, key_b, key_a⟩ := same a f decides
      refine ⟨⟨f, key⟩, by rw [run, key_a]; rfl, Or.inr ⟨b, at_b, ?_, key_b⟩⟩
      exact List.mem_of_getElem? decides.1
  · have unknown : ∀ f ∈ server, ¬ k.Known f := fun f mem known_f => known ⟨f, mem, known_f⟩
    constructor
    · intro _ a f decides
      exact absurd decides.2.1 (unknown f (List.mem_of_getElem? decides.1))
    · intro _
      exact ⟨.start, searchServer_of_unknown unknown 0 rfl, Or.inl ⟨rfl, unknown⟩⟩

/-- The one built-in key is known and the server lists its fingerprint second: `serverPublicKeys[1]`
is read past the end of the list. -/
theorem not_names_listed_second :
    ¬ NamesKey ((ServerKeys.mk [] [] rfl).withDefault "k") [5, UInt64.toInt64 0xdd4871feb0a26c27]
      (selectServerKey "k" (ServerKeys.mk [] [] rfl)
        [5, UInt64.toInt64 0xdd4871feb0a26c27]) := by
  have run : selectServerKey "k" ⟨[], [], rfl⟩ [5, UInt64.toInt64 0xdd4871feb0a26c27] = none := by
    decide
  rw [run]
  rintro ⟨s, out, -⟩
  cases out

/-! ## Big numbers -/

/-- `BN_num_bits`. -/
def bnNumBits (n : ℕ) : ℕ := Nat.size n

/-- `BN_num_bytes`. -/
def bnNumBytes (n : ℕ) : ℕ := (bnNumBits n + 7) / 8

/-- `BN_bn2bin`: the big-endian bytes without leading zeros. -/
def bnBn2bin (n : ℕ) : List UInt8 := toBE (bnNumBytes n) n

/-- `new ByteArray(len)`: `memory` is what the allocated bytes hold. -/
def newByteArray (memory : ℕ → UInt8) (len : ℕ) : List UInt8 := (List.range len).map memory

/-- `memcpy`, `memmove` and the writing of a number: `src` over the bytes from `pos` on, which have
to lie in the array. -/
def store (bytes : List UInt8) (pos : ℕ) (src : List UInt8) : Option (List UInt8) :=
  if pos + src.length ≤ bytes.length then some (splice bytes pos src) else none

/-- `memset(bytes + pos, 0, n)`. -/
def clear (bytes : List UInt8) (pos n : ℕ) : Option (List UInt8) :=
  if pos + n ≤ bytes.length then some (splice bytes pos (List.replicate n 0)) else none

/-- The bytes of `encrypted_data` for the RSA result `r`.  The difference `256 - resLen` is one of
`size_t`. -/
def rsaEncryptedData (memory : ℕ → UInt8) (r : ℕ) : Option (List UInt8) := do
  let size := bnNumBytes r
  let bytes := newByteArray memory (if size ≥ 256 then size else 256)
  let bytes ← store bytes 0 (bnBn2bin r)
  let resLen := size
  let rest := (2 ^ 64 + 256 - resLen) % 2 ^ 64
  if rest > 0 then clear bytes resLen rest else pure bytes

/-- The bytes of `handshakeAuthKey` for the number `k`. -/
def handshakeAuthKeyBytes (memory : ℕ → UInt8) (k : ℕ) : Option (List UInt8) := do
  let l := bnNumBytes k
  let bytes := newByteArray memory 256
  let bytes ← store bytes 0 (bnBn2bin k)
  if l < 256 then do
    let bytes ← store bytes (256 - l) (bytes.take l)
    clear bytes 0 (256 - l)
  else pure bytes

/-- The 256 bytes are the big-endian bytes of the number with zeros on the left, so that reading
them gives the number back. -/
def FullWidth (n : ℕ) (out : Option (List UInt8)) : Prop :=
  ∃ bytes, out = some bytes ∧ bytes.length = 256 ∧
    bytes = List.replicate (256 - bnNumBytes n) 0 ++ bnBn2bin n ∧ beNat bytes = n

section Numbers

variable {n r k : ℕ}

theorem lt_of_bnNumBytes (n : ℕ) : n < 256 ^ bnNumBytes n := by
  have bound : n < 2 ^ Nat.size n := Nat.lt_size_self n
  have le : Nat.size n ≤ 8 * bnNumBytes n := by
    rw [bnNumBytes, bnNumBits]
    omega
  calc n < 2 ^ Nat.size n := bound
    _ ≤ 2 ^ (8 * bnNumBytes n) := Nat.pow_le_pow_right (by omega) le
    _ = 256 ^ bnNumBytes n := by rw [Nat.pow_mul]

theorem bnNumBytes_le {width : ℕ} (h : n < 256 ^ width) : bnNumBytes n ≤ width := by
  have bits : n < 2 ^ (8 * width) := by rwa [Nat.pow_mul]
  have size : Nat.size n ≤ 8 * width := Nat.size_le.2 bits
  rw [bnNumBytes, bnNumBits]
  omega

theorem bnNumBytes_lt_iff {width : ℕ} : bnNumBytes n < width + 1 ↔ n < 256 ^ width := by
  refine ⟨fun h => ?_, fun h => Nat.lt_succ_of_le (bnNumBytes_le h)⟩
  exact (lt_of_bnNumBytes n).trans_le (Nat.pow_le_pow_right (by omega) (by omega))

@[simp] theorem length_bnBn2bin (n : ℕ) : (bnBn2bin n).length = bnNumBytes n := by
  simp [bnBn2bin]

@[simp] theorem length_newByteArray (memory : ℕ → UInt8) (len : ℕ) :
    (newByteArray memory len).length = len := by
  simp [newByteArray]

@[simp] theorem beNat_bnBn2bin (n : ℕ) : beNat (bnBn2bin n) = n :=
  beNat_toBE_of_lt (lt_of_bnNumBytes n)

theorem leNat_replicate_zero (m : ℕ) : leNat (List.replicate m 0) = 0 := by
  induction m with
  | zero => rfl
  | succ m ih => simp [List.replicate_succ, leNat, ih]

theorem beNat_append (bs cs : List UInt8) :
    beNat (bs ++ cs) = beNat cs + 256 ^ cs.length * beNat bs := by
  rw [beNat, List.reverse_append, leNat_append, List.length_reverse, beNat, beNat]

/-- Zeros on the left do not change the number. -/
theorem beNat_replicate_append (m : ℕ) (bs : List UInt8) :
    beNat (List.replicate m 0 ++ bs) = beNat bs := by
  rw [beNat_append, beNat, beNat, List.reverse_replicate, leNat_replicate_zero, Nat.mul_zero,
    Nat.add_zero]

/-- Zeros on the right multiply it. -/
theorem beNat_append_replicate (m : ℕ) (bs : List UInt8) :
    beNat (bs ++ List.replicate m 0) = 256 ^ m * beNat bs := by
  rw [beNat_append, List.length_replicate, beNat, List.reverse_replicate, leNat_replicate_zero,
    Nat.zero_add]

theorem bnNumBytes_lt_257_iff : bnNumBytes n < 257 ↔ n < 2 ^ 2048 := by
  have bits : 2048 = 8 * 256 := rfl
  rw [bits, Nat.pow_mul]
  exact bnNumBytes_lt_iff

theorem bnNumBytes_le_256 (h : n < 2 ^ 2048) : bnNumBytes n ≤ 256 :=
  Nat.lt_succ_iff.1 (bnNumBytes_lt_257_iff.2 h)

theorem bnNumBytes_lt_256_iff : bnNumBytes n < 256 ↔ n < 2 ^ 2040 := by
  have bits : 2040 = 8 * 255 := rfl
  rw [bits, Nat.pow_mul]
  exact bnNumBytes_lt_iff

theorem fullWidth_leftPadded (h : n < 2 ^ 2048) :
    FullWidth n (some (List.replicate (256 - bnNumBytes n) 0 ++ bnBn2bin n)) := by
  have len := bnNumBytes_le_256 h
  refine ⟨_, rfl, ?_, rfl, ?_⟩
  · simp only [List.length_append, List.length_replicate, length_bnBn2bin]
    omega
  · rw [beNat_replicate_append, beNat_bnBn2bin]

theorem store_zero {bytes src : List UInt8} (h : src.length ≤ bytes.length) :
    store bytes 0 src = some (src ++ bytes.drop src.length) := by
  rw [store, if_pos (by omega), splice, List.take_zero, List.nil_append, Nat.zero_add]

theorem store_end {bytes src : List UInt8} {pos : ℕ} (h : pos + src.length = bytes.length) :
    store bytes pos src = some (bytes.take pos ++ src) := by
  rw [store, if_pos (by omega), splice, h, List.drop_length, List.append_nil]

theorem clear_eq_store (bytes : List UInt8) (pos m : ℕ) :
    clear bytes pos m = store bytes pos (List.replicate m 0) := by
  simp [clear, store]

/-- The authorization key is padded on the left. -/
theorem handshakeAuthKeyBytes_eq (memory : ℕ → UInt8) (h : k < 2 ^ 2048) :
    handshakeAuthKeyBytes memory k =
      some (List.replicate (256 - bnNumBytes k) 0 ++ bnBn2bin k) := by
  have len := bnNumBytes_le_256 h
  have exported : store (newByteArray memory 256) 0 (bnBn2bin k) =
      some (bnBn2bin k ++ (newByteArray memory 256).drop (bnNumBytes k)) := by
    rw [store_zero (by simpa using len), length_bnBn2bin]
  generalize hrest : (newByteArray memory 256).drop (bnNumBytes k) = rest at exported
  have rest_length : rest.length = 256 - bnNumBytes k := by
    rw [← hrest, List.length_drop, length_newByteArray]
  simp only [handshakeAuthKeyBytes, exported, Option.bind_eq_bind, Option.bind_some]
  by_cases short : bnNumBytes k < 256
  · have taken : (bnBn2bin k ++ rest).take (bnNumBytes k) = bnBn2bin k := by
      rw [← length_bnBn2bin k, List.take_left]
    rw [if_pos short, taken, store_end (by simp only [List.length_append, length_bnBn2bin]; omega)]
    have moved : ((bnBn2bin k ++ rest).take (256 - bnNumBytes k)).length = 256 - bnNumBytes k := by
      simp only [List.length_take, List.length_append, length_bnBn2bin]
      omega
    rw [Option.bind_some, clear_eq_store, store_zero (by
      simp only [List.length_replicate, List.length_append, moved]
      omega), List.length_replicate]
    congr 2
    exact List.drop_left' moved
  · have none_left : rest = [] := List.length_eq_zero_iff.1 (by omega)
    have no_zeros : 256 - bnNumBytes k = 0 := by omega
    rw [if_neg short, none_left, no_zeros]
    simp

/-- The RSA result is padded on the right. -/
theorem rsaEncryptedData_eq (memory : ℕ → UInt8) (h : r < 2 ^ 2048) :
    rsaEncryptedData memory r =
      some (bnBn2bin r ++ List.replicate (256 - bnNumBytes r) 0) := by
  have len := bnNumBytes_le_256 h
  have size : (if bnNumBytes r ≥ 256 then bnNumBytes r else 256) = 256 := by
    split <;> omega
  have rest_eq : (2 ^ 64 + 256 - bnNumBytes r) % 2 ^ 64 = 256 - bnNumBytes r := by omega
  have exported : store (newByteArray memory 256) 0 (bnBn2bin r) =
      some (bnBn2bin r ++ (newByteArray memory 256).drop (bnNumBytes r)) := by
    rw [store_zero (by simpa using len), length_bnBn2bin]
  generalize hrest : (newByteArray memory 256).drop (bnNumBytes r) = rest at exported
  have rest_length : rest.length = 256 - bnNumBytes r := by
    rw [← hrest, List.length_drop, length_newByteArray]
  simp only [rsaEncryptedData, size, rest_eq, exported, Option.bind_eq_bind, Option.bind_some]
  by_cases short : 256 - bnNumBytes r > 0
  · rw [if_pos short, clear_eq_store, store_end (by
      simp only [List.length_replicate, List.length_append, length_bnBn2bin]
      omega)]
    congr 2
    rw [← length_bnBn2bin r, List.take_left]
  · have none_left : rest = [] := List.length_eq_zero_iff.1 (by omega)
    have no_zeros : 256 - bnNumBytes r = 0 := by omega
    rw [if_neg short, none_left, no_zeros]
    rfl

/-- Right padding gives the number back only when there is nothing to pad, or nothing but zeros. -/
theorem fullWidth_rightPadded_iff (h : r < 2 ^ 2048) :
    FullWidth r (some (bnBn2bin r ++ List.replicate (256 - bnNumBytes r) 0)) ↔
      r = 0 ∨ 2 ^ 2040 ≤ r := by
  have len := bnNumBytes_le_256 h
  have full : ¬ bnNumBytes r < 256 ↔ 2 ^ 2040 ≤ r := by
    rw [bnNumBytes_lt_256_iff, Nat.not_lt]
  constructor
  · rintro ⟨bytes, out, -, -, value⟩
    obtain rfl := Option.some.inj out
    rw [beNat_append_replicate, beNat_bnBn2bin] at value
    by_cases short : bnNumBytes r < 256
    · left
      by_contra ne
      have positive : 0 < r := Nat.pos_of_ne_zero ne
      have one : 256 ^ (256 - bnNumBytes r) = 1 := Nat.eq_of_mul_eq_mul_right positive (by omega)
      have grows : 1 < 256 ^ (256 - bnNumBytes r) := Nat.one_lt_pow (by omega) (by omega)
      omega
    · exact Or.inr (full.1 short)
  · intro ends
    have same : bnBn2bin r ++ List.replicate (256 - bnNumBytes r) 0 =
        List.replicate (256 - bnNumBytes r) 0 ++ bnBn2bin r := by
      rcases ends with zero | long
      · have empty : bnBn2bin r = [] := by
          subst zero
          rfl
        rw [empty, List.append_nil, List.nil_append]
      · have no_zeros : 256 - bnNumBytes r = 0 := by
          have := full.2 long
          omega
        rw [no_zeros]
        simp
    rw [same]
    exact fullWidth_leftPadded h

/-- Both numbers are sent and kept at full width exactly when the RSA result is 0 or has a non-zero
first byte. -/
theorem fullWidth_both_iff (memory memory' : ℕ → UInt8) (hr : r < 2 ^ 2048) (hk : k < 2 ^ 2048) :
    (FullWidth r (rsaEncryptedData memory r) ∧ FullWidth k (handshakeAuthKeyBytes memory' k)) ↔
      r = 0 ∨ 2 ^ 2040 ≤ r := by
  rw [rsaEncryptedData_eq memory hr, handshakeAuthKeyBytes_eq memory' hk,
    fullWidth_rightPadded_iff hr]
  exact and_iff_left (fullWidth_leftPadded hk)

/-- A result with a short first byte: 1 is sent as `256 ^ 255`. -/
theorem not_fullWidth_one :
    ¬ FullWidth 1 (rsaEncryptedData (fun _ => 0) 1) := by
  rintro ⟨bytes, out, -, -, value⟩
  rw [rsaEncryptedData_eq _ (Nat.one_lt_pow (by decide) (by decide))] at out
  obtain rfl := Option.some.inj out
  rw [beNat_append_replicate, beNat_bnBn2bin, Nat.mul_one] at value
  have one : bnNumBytes 1 = 1 := by decide
  have grows : 1 < 256 ^ (256 - bnNumBytes 1) := Nat.one_lt_pow (by omega) (by decide)
  omega

/-- 3 and a number that fills all bytes are written at full width. -/
theorem fullWidth_both_full :
    FullWidth (2 ^ 2047) (rsaEncryptedData (fun _ => 7) (2 ^ 2047)) ∧
      FullWidth 3 (handshakeAuthKeyBytes (fun _ => 7) 3) := by
  have lt : 2 ^ 2047 < 2 ^ 2048 := Nat.pow_lt_pow_right (by decide) (by decide)
  have three : 3 < 2 ^ 2048 :=
    Nat.lt_of_lt_of_le (by decide : 3 < 2 ^ 2) (Nat.pow_le_pow_right (by decide) (by decide))
  apply (fullWidth_both_iff _ _ lt three).2
  exact Or.inr (Nat.pow_le_pow_right (by decide) (by decide))

end Numbers

end Mtproto.Handshake
