import Mtproto.Datacenter.MessageKey
import Mtproto.Streams.Calls
import Mtproto.Tgnet.Receive

/-!
# Encrypted messages that come in

`decryptServerResponse`, with AES in IGE mode and the hash functions as parameters.  The static
arrays hold whatever the last call left in them.
-/

namespace Mtproto.Datacenter

open Bytes Streams Tgnet

/-! ## Parameters -/

/-- `aesIgeEncryption` on whole blocks, which it changes in place. -/
structure Ige where
  encrypt : List UInt8 → List UInt8 → List UInt8 → List UInt8
  decrypt : List UInt8 → List UInt8 → List UInt8 → List UInt8
  length_encrypt : ∀ key iv data, (encrypt key iv data).length = data.length
  length_decrypt : ∀ key iv data, (decrypt key iv data).length = data.length
  decrypt_encrypt : ∀ key iv data, data.length % 16 = 0 → decrypt key iv (encrypt key iv data) =
    data

structure Crypto extends Hashes where
  ige : Ige

/-- The static arrays of the functions, as the last call left them. -/
structure Scratch where
  sha : Block 68
  messageKey : Block 96

/-- The key of a datacenter. -/
structure AuthKey where
  authKeyPerm : Option (Block 256)
  authKeyPermId : BitVec 64

/-- `getAuthKey`, which returns before it looks at the other keys. -/
def AuthKey.getAuthKey (k : AuthKey) : Option (Block 256) × BitVec 64 :=
  (k.authKeyPerm, k.authKeyPermId)

variable (crypto : Crypto)

/-! ## Receiving -/

/-- The test of the length, where the differences are of `uint32_t`. -/
def wrongLength (length messageLength : ℕ) : Bool :=
  let paddingLength := u32 (length + 2 ^ 32 - u32 (messageLength + 32))
  if u32 (length + 2 ^ 32 - 32) < messageLength then true
  else decide (paddingLength < 12 ∨ 1024 < paddingLength)

/-- The rules by which a message is opened, for both directions: whether it is accepted, and the
data, decrypted in place. -/
def openMessage (incoming : Bool) (k : AuthKey) (mtProtoVersion : ℤ) (scratch : Scratch)
    (keyId : BitVec 64)
    (key data : List UInt8) : Bool × List UInt8 :=
  match k.getAuthKey with
  | (none, _) => (false, data)
  | (some authKey, authKeyId) =>
      let length := data.length
      let generated :=
        (generateMessageKey crypto.toHashes authKey.1 key (slice scratch.messageKey.1 32 64)
          incoming
          mtProtoVersion scratch.sha.1).1
      let messageKey := splice scratch.messageKey.1 32 generated
      let data := crypto.ige.decrypt (slice messageKey 32 32) (slice messageKey 64 32) data
      let messageLength := leNat (slice data 28 4)
      let error := authKeyId != keyId || wrongLength length messageLength
      let messageLength := min (u32 (messageLength + 32)) length
      let messageKey :=
        if mtProtoVersion = 2 then
          splice messageKey 0
            (crypto.sha256.digest (slice authKey.1 (88 + directionOffset incoming) 32 ++ data))
        else splice messageKey 4 (crypto.sha1.digest (data.take messageLength))
      (slice messageKey 8 16 == key && !error, data)

def decryptServerResponse : AuthKey → ℤ → Scratch → BitVec 64 → List UInt8 → List UInt8 →
    Bool × List UInt8 :=
  openMessage crypto true

/-- The length that `onConnectionDataReceived` passes to `decryptServerResponse` for a packet of
more than 56 bytes, or nothing if it reconnects. -/
def cipherLength (allowsCustomPadding : Bool) (length : ℕ) : Option ℕ :=
  let padding := u32 (length + 2 ^ 32 - 24) % 16
  let length := if allowsCustomPadding then length - padding else length
  if length < 24 + 32 || (!allowsCustomPadding && u32 (length + 2 ^ 32 - 24) % 16 != 0) then none
  else some (u32 (length + 2 ^ 32 - 24))

/-- What `onConnectionDataReceived` reads in front of the body. -/
structure Header where
  messageServerSalt : BitVec 64
  messageSessionId : BitVec 64
  messageId : BitVec 64
  messageSeqNo : BitVec 32
  messageLength : BitVec 32
deriving DecidableEq, Repr

def readHeader : Reader Header := do
  let messageServerSalt ← Input.readInt64
  let messageSessionId ← Input.readInt64
  let messageId ← Input.readInt64
  let messageSeqNo ← Input.readInt32
  let messageLength ← Input.readInt32
  pure { messageServerSalt, messageSessionId, messageId, messageSeqNo, messageLength }

/-! ## What is accepted -/

section Accepted

variable {crypto} {incoming : Bool} {k : AuthKey} {scratch : Scratch} {keyId : BitVec 64}

theorem length_aesKeySha256 {a b : List UInt8} (length_a : a.length = 32)
    (length_b : b.length = 32) :
    (aesKeySha256 a b).length = 32 := by
  rw [aesKeySha256, List.length_append, List.length_append, length_slice (by omega),
    length_slice (by omega), length_slice (by omega)]

theorem length_aesIvSha256 {a b : List UInt8} (length_a : a.length = 32)
    (length_b : b.length = 32) :
    (aesIvSha256 a b).length = 32 := by
  rw [aesIvSha256, List.length_append, List.length_append, length_slice (by omega),
    length_slice (by omega), length_slice (by omega)]

/-- The key and the iv of version 2: what `generateMessageKey` puts in the result, whatever the
arrays hold. -/
structure KeysFor (crypto : Crypto) (incoming : Bool) (authKey : Block 256)
    (key aesKey aesIv : List UInt8) : Prop where
  generated : ∀ (sha : Block 68) (result : Block 64),
    (generateMessageKey crypto.toHashes authKey.1 key result.1 incoming 2 sha.1).1 = aesKey ++ aesIv
  length_aesKey : aesKey.length = 32
  length_aesIv : aesIv.length = 32

theorem exists_keysFor (crypto : Crypto) (incoming : Bool) (authKey : Block 256) {key : List UInt8}
    (length_key : key.length = 16) :
    ∃ aesKey aesIv, KeysFor crypto incoming authKey key aesKey aesIv := by
  refine ⟨_, _, fun sha result => generateMessageKeySha256_eq length_key result.2, ?_, ?_⟩
  · exact length_aesKeySha256 length_sha256First length_sha256Second
  · exact length_aesIvSha256 length_sha256First length_sha256Second

/-- The upper part of the static array. -/
def Scratch.result (scratch : Scratch) : Block 64 :=
  ⟨slice scratch.messageKey.1 32 64, length_slice (Nat.le_of_eq scratch.messageKey.2.symm)⟩

/-- The keys where they are read, behind the place of the hash. -/
theorem splice_keys {old aesKey aesIv : List UInt8} (length_old : old.length = 96)
    (length_aesKey : aesKey.length = 32)
    (length_aesIv : aesIv.length = 32) :
    splice old 32 (aesKey ++ aesIv) = old.take 32 ++ (aesKey ++ aesIv) := by
  have beyond : old.length ≤ 32 + (aesKey ++ aesIv).length := by
    rw [List.length_append]
    omega
  rw [splice, List.drop_eq_nil_of_le beyond, List.append_nil]

theorem slice_keys {front aesKey aesIv : List UInt8} (length_front : front.length = 32)
    (length_aesKey : aesKey.length = 32) (length_aesIv : aesIv.length = 32) :
    slice (front ++ (aesKey ++ aesIv)) 32 32 = aesKey ∧ slice (front ++ (aesKey ++ aesIv)) 64 32 =
      aesIv := by
  constructor
  · exact slice_segment length_front length_aesKey
  · rw [slice_append_right (by omega), slice_append_right (by omega), length_front, length_aesKey]
    exact slice_whole length_aesIv

/-- The hash in front of the keys. -/
theorem slice_digest {front digest : List UInt8} (length_front : front.length = 32)
    (length_digest : digest.length = 32) (keys : List UInt8) :
    splice (front ++ keys) 0 digest = digest ++ keys ∧
      slice (digest ++ keys) 8 16 = slice digest 8 16 := by
  constructor
  · rw [splice_append_left (by omega), splice_whole (by omega)]
  · exact slice_append_left (by omega)

/-- A length is right if it leaves 12 to 1024 bytes of padding, and no difference wraps then. -/
theorem wrongLength_eq_false_iff {length messageLength : ℕ} (long : 32 ≤ length)
    (small : length < 2 ^ 32)
    (word : messageLength < 2 ^ 32) :
    wrongLength length messageLength = false ↔
      ∃ padding, length = 32 + messageLength + padding ∧ 12 ≤ padding ∧ padding ≤ 1024 := by
  have header : u32 (length + 2 ^ 32 - 32) = length - 32 := by
    rw [u32]
    omega
  rw [wrongLength, header]
  constructor
  · intro right
    split_ifs at right with more
    rw [decide_eq_false_iff_not, u32, u32] at right
    exact ⟨length - 32 - messageLength, by omega, by omega, by omega⟩
  · rintro ⟨padding, rfl, least, most⟩
    rw [if_neg (by omega), decide_eq_false_iff_not, u32, u32]
    omega

/-- What version 2 computes of a message: the plaintext, and whether it is accepted. -/
theorem openMessage_eq {authKey : Block 256} {key aesKey aesIv : List UInt8}
    (perm : k.authKeyPerm = some authKey)
    (keys : KeysFor crypto incoming authKey key aesKey aesIv) (scratch : Scratch)
    (keyId : BitVec 64)
    (data : List UInt8) :
    openMessage crypto incoming k 2 scratch keyId key data =
      (slice (crypto.sha256.digest (slice authKey.1 (88 + directionOffset incoming) 32 ++
            crypto.ige.decrypt aesKey aesIv data)) 8 16 == key &&
          !(k.authKeyPermId != keyId ||
            wrongLength data.length (leNat (slice (crypto.ige.decrypt aesKey aesIv data) 28 4))),
        crypto.ige.decrypt aesKey aesIv data) := by
  have generated := keys.generated scratch.sha scratch.result
  have length_front : (scratch.messageKey.1.take 32).length = 32 := by
    rw [List.length_take, scratch.messageKey.2]
    rfl
  have read := slice_keys length_front keys.length_aesKey keys.length_aesIv
  have digest := slice_digest length_front (crypto.sha256.length_digest
    (slice authKey.1 (88 + directionOffset incoming) 32 ++ crypto.ige.decrypt aesKey aesIv data))
      (aesKey ++ aesIv)
  simp only [openMessage, AuthKey.getAuthKey, perm]
  rw [show slice scratch.messageKey.1 32 64 = scratch.result.1 from rfl, generated,
    splice_keys scratch.messageKey.2 keys.length_aesKey keys.length_aesIv]
  simp only [read.1, read.2, if_true, digest.1, digest.2]

/-- What the callers pass: whole blocks, at least two of them, with a length in a `uint32_t`. -/
structure Ciphertext where
  bytes : List UInt8
  long : 32 ≤ bytes.length
  whole : bytes.length % 16 = 0
  small : bytes.length < 2 ^ 32

/-- The message comes from somebody who has the key, and leaves the padding that is allowed. -/
structure Authentic (crypto : Crypto) (incoming : Bool) (k : AuthKey) (keyId : BitVec 64)
    (key data plaintext : List UInt8) : Prop where
  keyId_eq : keyId = k.authKeyPermId
  authKey : ∃ authKey, k.authKeyPerm = some authKey ∧
    (∃ aesKey aesIv, KeysFor crypto incoming authKey key aesKey aesIv ∧
      plaintext = crypto.ige.decrypt aesKey aesIv data) ∧
    key = slice
      (crypto.sha256.digest (slice authKey.1 (88 + directionOffset incoming) 32 ++ plaintext)) 8 16
  padding : ∃ padding, data.length = 32 + leNat (slice plaintext 28 4) + padding ∧ 12 ≤ padding ∧
    padding ≤ 1024

/-- The lengths that reach `decryptServerResponse` are those of a ciphertext inside the packet. -/
theorem cipherLength_eq_some {allowsCustomPadding : Bool} {length cipher : ℕ}
    (long : 24 + 32 < length)
    (small : length < 2 ^ 32) (passed : cipherLength allowsCustomPadding length = some cipher) :
    32 ≤ cipher ∧ cipher % 16 = 0 ∧ 24 + cipher ≤ length := by
  have rest : u32 (length + 2 ^ 32 - 24) = length - 24 := by
    rw [u32]
    omega
  cases allowsCustomPadding with
  | true =>
    have cut : u32 (length - (length - 24) % 16 + 2 ^ 32 - 24) =
        length - (length - 24) % 16 - 24 := by
      rw [u32]
      omega
    simp only [cipherLength, rest, if_true, cut, Bool.not_true, Bool.false_and, Bool.or_false,
      decide_eq_true_eq] at passed
    rw [if_neg (by omega), Option.some_inj] at passed
    omega
  | false =>
    simp only [cipherLength, rest, Bool.false_eq_true, if_false, Bool.not_false, Bool.true_and,
      Bool.or_eq_true, decide_eq_true_eq, bne_iff_ne, ne_eq] at passed
    split_ifs at passed with short
    rw [Option.some_inj] at passed
    omega

/-- What `onConnectionDataReceived` cuts out of a packet. -/
def Ciphertext.ofPacket {allowsCustomPadding : Bool} {packet : List UInt8} {cipher : ℕ}
    (long : 24 + 32 < packet.length) (small : packet.length < 2 ^ 32)
    (passed : cipherLength allowsCustomPadding packet.length = some cipher) : Ciphertext where
  bytes := slice packet 24 cipher
  long := by
    have inside := cipherLength_eq_some long small passed
    rw [length_slice inside.2.2]
    exact inside.1
  whole := by
    have inside := cipherLength_eq_some long small passed
    rw [length_slice inside.2.2]
    exact inside.2.1
  small := by
    have inside := cipherLength_eq_some long small passed
    rw [length_slice inside.2.2]
    omega

theorem messageLength_lt (plaintext : List UInt8) : leNat (slice plaintext 28 4) < 2 ^ 32 := by
  apply (leNat_lt _).trans_le
  apply Nat.pow_le_pow_right (by decide) (List.length_take_le 4 _)

/-- Exactly the authentic messages are accepted. -/
theorem openMessage_eq_true_iff {key : List UInt8} (length_key : key.length = 16)
    (data : Ciphertext)
    {plaintext : List UInt8} :
    openMessage crypto incoming k 2 scratch keyId key data.bytes = (true, plaintext) ↔
      Authentic crypto incoming k keyId key data.bytes plaintext := by
  constructor
  · intro accepted
    cases perm : k.authKeyPerm with
    | none =>
      simp only [openMessage, AuthKey.getAuthKey, perm, Prod.mk.injEq, Bool.false_eq_true,
        false_and] at accepted
    | some authKey =>
      obtain ⟨aesKey, aesIv, keys⟩ := exists_keysFor crypto incoming authKey length_key
      rw [openMessage_eq perm keys, Prod.mk.injEq] at accepted
      obtain ⟨test, rfl⟩ := accepted
      rw [Bool.and_eq_true, beq_iff_eq, Bool.not_eq_true', Bool.or_eq_false_iff,
        bne_eq_false_iff_eq, wrongLength_eq_false_iff data.long data.small (messageLength_lt _)]
          at test
      obtain ⟨hash, id, padding⟩ := test
      exact ⟨id.symm, ⟨authKey, perm, ⟨aesKey, aesIv, keys, rfl⟩, hash.symm⟩, padding⟩
  · rintro ⟨rfl, ⟨authKey, perm, ⟨aesKey, aesIv, keys, rfl⟩, hash⟩, padding⟩
    rw [openMessage_eq perm keys, Prod.mk.injEq, Bool.and_eq_true, beq_iff_eq, Bool.not_eq_true',
      Bool.or_eq_false_iff, bne_eq_false_iff_eq,
      wrongLength_eq_false_iff data.long data.small (messageLength_lt _)]
    exact ⟨⟨hash.symm, rfl, padding⟩, rfl⟩

end Accepted

end Mtproto.Datacenter
