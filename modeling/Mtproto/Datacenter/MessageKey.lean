import Mtproto.Lib.Overwrite
import Mtproto.Streams.SerializedData

/-!
# The keys of a message

`generateMessageKey` of `Datacenter.cpp`, which keeps its hashes and their inputs in one scratch
array, and `generateMessageKeyData` of `MessageKeyData.java`, which builds every input in a buffer
of its own.  The hash functions are parameters.
-/

namespace Mtproto.Datacenter

open Bytes

/-- A hash function with an output of `n` bytes. -/
structure Hash (n : ℕ) where
  digest : List UInt8 → List UInt8
  length_digest : ∀ message, (digest message).length = n

/-- `n` bytes of memory. -/
abbrev Block (n : ℕ) := { bytes : List UInt8 // bytes.length = n }

structure Hashes where
  sha1 : Hash 20
  sha256 : Hash 32

variable (hashes : Hashes)

/-- The offset into the key for a direction. -/
def directionOffset (incoming : Bool) : ℕ := if incoming then 8 else 0

/-! ## The native side -/

/-- The branch of version 2: what is behind `result` and `sha` at its end. -/
def generateMessageKeySha256 (authKey messageKey result : List UInt8) (x : ℕ) (sha : List UInt8) :
    List UInt8 × List UInt8 :=
  let sha := splice sha 0 (hashes.sha256.digest (slice messageKey 0 16 ++ slice authKey x 36))
  let sha :=
    splice sha 32 (hashes.sha256.digest (slice authKey (40 + x) 36 ++ slice messageKey 0 16))
  let result := splice result 0 (slice sha 0 8)
  let result := splice result 8 (slice sha (32 + 8) 16)
  let result := splice result (8 + 16) (slice sha 24 8)
  let result := splice result 32 (slice sha 32 8)
  let result := splice result (32 + 8) (slice sha 8 16)
  let result := splice result (32 + 8 + 16) (slice sha (32 + 24) 8)
  (result, sha)

/-- `SHA1(sha + 20, 48, sha)`. -/
def hashScratch (sha : List UInt8) : List UInt8 :=
  splice sha 0 (hashes.sha1.digest (slice sha 20 48))

/-- The default branch. -/
def generateMessageKeySha1 (authKey messageKey result : List UInt8) (x : ℕ) (sha : List UInt8) :
    List UInt8 × List UInt8 :=
  let sha := splice sha 20 (slice messageKey 0 16)
  let sha := splice sha (20 + 16) (slice authKey x 32)
  let sha := hashScratch hashes sha
  let result := splice result 0 (slice sha 0 8)
  let result := splice result 32 (slice sha 8 12)
  let sha := splice sha 20 (slice authKey (32 + x) 16)
  let sha := splice sha (20 + 16) (slice messageKey 0 16)
  let sha := splice sha (20 + 16 + 16) (slice authKey (48 + x) 16)
  let sha := hashScratch hashes sha
  let result := splice result 8 (slice sha 8 12)
  let result := splice result (32 + 12) (slice sha 0 8)
  let sha := splice sha 20 (slice authKey (64 + x) 32)
  let sha := splice sha (20 + 32) (slice messageKey 0 16)
  let sha := hashScratch hashes sha
  let result := splice result (8 + 12) (slice sha 4 12)
  let result := splice result (32 + 12 + 8) (slice sha 16 4)
  let sha := splice sha 20 (slice messageKey 0 16)
  let sha := splice sha (20 + 16) (slice authKey (96 + x) 32)
  let sha := hashScratch hashes sha
  let result := splice result (32 + 12 + 8 + 4) (slice sha 0 8)
  (result, sha)

def generateMessageKey (authKey messageKey result : List UInt8) (incoming : Bool)
    (mtProtoVersion : ℤ)
    (sha : List UInt8) : List UInt8 × List UInt8 :=
  if mtProtoVersion = 2 then
    generateMessageKeySha256 hashes authKey messageKey result (directionOffset incoming) sha
  else generateMessageKeySha1 hashes authKey messageKey result (directionOffset incoming) sha

/-! ## The Java side -/

structure MessageKeyData where
  aesKey : Option (List UInt8) := none
  aesIv : Option (List UInt8) := none
deriving DecidableEq, Repr

open Java SerializedData in
/-- The case of version 2. -/
def messageKeyDataSha256 (authKey messageKey : List UInt8) (x : ℕ) : MessageKeyData :=
  let sha256_a := hashes.sha256.digest (toByteArray do
    writeRange messageKey 0 16
    writeRange authKey x 36)
  let sha256_b := hashes.sha256.digest (toByteArray do
    writeRange authKey (40 + x) 36
    writeRange messageKey 0 16)
  { aesKey := some (toByteArray do
      writeRange sha256_a 0 8
      writeRange sha256_b 8 16
      writeRange sha256_a 24 8)
    aesIv := some (toByteArray do
      writeRange sha256_b 0 8
      writeRange sha256_a 8 16
      writeRange sha256_b 24 8) }

open Java SerializedData in
/-- The case of version 1. -/
def messageKeyDataSha1 (authKey messageKey : List UInt8) (x : ℕ) : MessageKeyData :=
  let sha1_a := hashes.sha1.digest (toByteArray do
    writeBytes messageKey
    writeRange authKey x 32)
  let sha1_b := hashes.sha1.digest (toByteArray do
    writeRange authKey (32 + x) 16
    writeBytes messageKey
    writeRange authKey (48 + x) 16)
  let sha1_c := hashes.sha1.digest (toByteArray do
    writeRange authKey (64 + x) 32
    writeBytes messageKey)
  let sha1_d := hashes.sha1.digest (toByteArray do
    writeBytes messageKey
    writeRange authKey (96 + x) 32)
  { aesKey := some (toByteArray do
      writeRange sha1_a 0 8
      writeRange sha1_b 8 12
      writeRange sha1_c 4 12)
    aesIv := some (toByteArray do
      writeRange sha1_a 8 12
      writeRange sha1_b 0 8
      writeRange sha1_c 16 4
      writeRange sha1_d 0 8) }

/-- A missing or empty key and an unknown version leave both fields null. -/
def generateMessageKeyData (authKey : Option (List UInt8)) (messageKey : List UInt8)
    (incoming : Bool)
    (version : ℤ) : MessageKeyData :=
  match authKey with
  | none => {}
  | some authKey =>
      if authKey.length = 0 then {}
      else if version = 2 then messageKeyDataSha256 hashes authKey messageKey
        (directionOffset incoming)
      else if version = 1 then messageKeyDataSha1 hashes authKey messageKey
        (directionOffset incoming)
      else {}

/-! ## What both compute -/

section Keys

variable (authKey messageKey : List UInt8) (x : ℕ)

/-- The two hashes of version 2. -/
def sha256First : List UInt8 := hashes.sha256.digest (messageKey ++ slice authKey x 36)

def sha256Second : List UInt8 := hashes.sha256.digest (slice authKey (40 + x) 36 ++ messageKey)

/-- The AES key and the iv that two hashes give. -/
def aesKeySha256 (a b : List UInt8) : List UInt8 := slice a 0 8 ++ slice b 8 16 ++ slice a 24 8

def aesIvSha256 (a b : List UInt8) : List UInt8 := slice b 0 8 ++ slice a 8 16 ++ slice b 24 8

/-- The four inputs of version 1. -/
def sha1Input : Fin 4 → List UInt8
  | 0 => messageKey ++ slice authKey x 32
  | 1 => slice authKey (32 + x) 16 ++ messageKey ++ slice authKey (48 + x) 16
  | 2 => slice authKey (64 + x) 32 ++ messageKey
  | 3 => messageKey ++ slice authKey (96 + x) 32

def sha1Output (i : Fin 4) : List UInt8 := hashes.sha1.digest (sha1Input authKey messageKey x i)

def aesKeySha1 (a b c : List UInt8) : List UInt8 := slice a 0 8 ++ slice b 8 12 ++ slice c 4 12

def aesIvSha1 (a b c d : List UInt8) : List UInt8 :=
  slice a 8 12 ++ slice b 0 8 ++ slice c 16 4 ++ slice d 0 8

end Keys

/-! ## The native side computes it -/

section Native

variable {hashes} {authKey messageKey result sha : List UInt8} {x : ℕ}

theorem length_sha256First : (sha256First hashes authKey messageKey x).length = 32 :=
  hashes.sha256.length_digest _

theorem length_sha256Second : (sha256Second hashes authKey messageKey x).length = 32 :=
  hashes.sha256.length_digest _

theorem length_sha1Output (i : Fin 4) : (sha1Output hashes authKey messageKey x i).length = 20 :=
  hashes.sha1.length_digest _

/-- The scratch array with the two hashes. -/
theorem scratch_sha256 {a b : List UInt8} (length_a : a.length = 32) (length_b : b.length = 32)
    (sha : List UInt8) :
    splice (splice sha 0 a) 32 b = a ++ (b ++ sha.drop 64) := by
  have first : splice sha 0 a = a ++ sha.drop 32 := by
    rw [splice, List.take_zero, List.nil_append, length_a]
  rw [first, splice_append_right (by omega), length_a, splice, List.take_zero, List.nil_append,
    List.drop_drop, length_b]

section Gather

variable {a b c d rest : List UInt8}

/-- The six copies out of the scratch array fill the result from its front. -/
theorem gather_sha256 (length_a : a.length = 32) (length_b : b.length = 32)
    (length_result : result.length = 64) :
    splice (splice (splice (splice (splice (splice result
      0 (slice (a ++ (b ++ rest)) 0 8))
      8 (slice (a ++ (b ++ rest)) (32 + 8) 16))
      (8 + 16) (slice (a ++ (b ++ rest)) 24 8))
      32 (slice (a ++ (b ++ rest)) 32 8))
      (32 + 8) (slice (a ++ (b ++ rest)) 8 16))
      (32 + 8 + 16) (slice (a ++ (b ++ rest)) (32 + 24) 8) = aesKeySha256 a b ++
        aesIvSha256 a b := by
  have ofFirst (offset count : ℕ) (within : offset + count ≤ 32) :
      slice (a ++ (b ++ rest)) offset count = slice a offset count := slice_append_left (by omega)
  have ofSecond (offset count : ℕ) (within : offset + count ≤ 32) :
      slice (a ++ (b ++ rest)) (32 + offset) count = slice b offset count := by
    rw [slice_append_right (by omega), slice_append_left (by omega), length_a,
      Nat.add_sub_cancel_left]
  rw [ofFirst 0 8 (by omega), ofSecond 8 16 (by omega), ofFirst 24 8 (by omega),
    ofSecond 0 8 (by omega), ofFirst 8 16 (by omega), ofSecond 24 8 (by omega)]
  have head_a : (slice a 0 8).length = 8 := length_slice (by omega)
  have middle_a : (slice a 8 16).length = 16 := length_slice (by omega)
  have tail_a : (slice a 24 8).length = 8 := length_slice (by omega)
  have head_b : (slice b 0 8).length = 8 := length_slice (by omega)
  have middle_b : (slice b 8 16).length = 16 := length_slice (by omega)
  have tail_b : (slice b 24 8).length = 8 := length_slice (by omega)
  rw [splice_zero_next, splice_zero_next, splice_zero_next, splice_zero_next, splice_zero_next,
    splice_whole]
  · simp only [aesKeySha256, aesIvSha256, List.append_assoc]
  all_goals simp [head_a, middle_a, tail_a, head_b, middle_b, tail_b, length_result]

/-- The seven copies of version 1 fill the key and the iv, each from its front. -/
theorem gather_sha1 (length_a : a.length = 20) (length_b : b.length = 20) (length_c : c.length = 20)
    (length_d : d.length = 20) (length_result : result.length = 64) :
    splice (splice (splice (splice (splice (splice (splice result
      0 (slice a 0 8))
      32 (slice a 8 12))
      8 (slice b 8 12))
      (32 + 12) (slice b 0 8))
      (8 + 12) (slice c 4 12))
      (32 + 12 + 8) (slice c 16 4))
      (32 + 12 + 8 + 4) (slice d 0 8) = aesKeySha1 a b c ++ aesIvSha1 a b c d := by
  have halves : result = splice (result.take 32) 0 [] ++ splice (result.drop 32) 0 [] := by
    rw [splice_nil, splice_nil, List.take_append_drop]
  have length_key : (result.take 32).length = 32 := by
    rw [List.length_take, length_result]
    rfl
  have length_iv : (result.drop 32).length = 32 := by rw [List.length_drop, length_result]
  have a_0 : (slice a 0 8).length = 8 := length_slice (by omega)
  have a_8 : (slice a 8 12).length = 12 := length_slice (by omega)
  have b_8 : (slice b 8 12).length = 12 := length_slice (by omega)
  have b_0 : (slice b 0 8).length = 8 := length_slice (by omega)
  have c_4 : (slice c 4 12).length = 12 := length_slice (by omega)
  have c_16 : (slice c 16 4).length = 4 := length_slice (by omega)
  have d_0 : (slice d 0 8).length = 8 := length_slice (by omega)
  rw [halves, splice_fill_left, splice_fill_right, splice_fill_left, splice_fill_right,
    splice_fill_left, splice_fill_right, splice_fill_right, splice_whole, splice_whole]
  · simp only [aesKeySha1, aesIvSha1, List.append_assoc, List.nil_append]
  all_goals simp [length_key, length_iv, a_0, a_8, b_8, b_0, c_4, c_16, d_0]

/-- A full input behind the place of the hash. -/
theorem hashScratch_eq {input : List UInt8} (length_sha : sha.length = 68)
    (length_input : input.length = 48) :
    hashScratch hashes (splice sha 20 input) = hashes.sha1.digest input ++ input := by
  have front : (sha.take 20).length = 20 := by
    rw [List.length_take, length_sha]
    rfl
  have filled : splice sha 20 input = sha.take 20 ++ input := by
    rw [splice, List.drop_eq_nil_of_le (by omega), List.append_nil]
  have digest := hashes.sha1.length_digest input
  rw [hashScratch, filled, slice_append_right (by omega), front, Nat.sub_self,
    slice_whole length_input, splice_append_left (by omega), splice_whole (by omega)]

end Gather

theorem generateMessageKeySha256_eq (length_messageKey : messageKey.length = 16)
    (length_result : result.length = 64) :
    (generateMessageKeySha256 hashes authKey messageKey result x sha).1 =
      aesKeySha256 (sha256First hashes authKey messageKey x)
        (sha256Second hashes authKey messageKey x) ++
        aesIvSha256 (sha256First hashes authKey messageKey x)
          (sha256Second hashes authKey messageKey x) := by
  have scratch := scratch_sha256 (hashes.sha256.length_digest (messageKey ++ slice authKey x 36))
    (hashes.sha256.length_digest (slice authKey (40 + x) 36 ++ messageKey)) sha
  simp only [generateMessageKeySha256, slice_whole length_messageKey, scratch]
  exact gather_sha256 (hashes.sha256.length_digest _) (hashes.sha256.length_digest _) length_result

/-- One round of version 1: the input in two pieces. -/
theorem round_two {p q : List UInt8} {next : ℕ} (length_sha : sha.length = 68)
    (adjacent : next = 20 + p.length)
    (full : p.length + q.length = 48) :
    hashScratch hashes (splice (splice sha 20 p) next q) = hashes.sha1.digest (p ++ q) ++
      (p ++ q) := by
  rw [splice_next (by omega) adjacent, hashScratch_eq length_sha (by rw [List.length_append, full])]

/-- The same with three pieces. -/
theorem round_three {p q r : List UInt8} {next last : ℕ} (length_sha : sha.length = 68)
    (adjacent : next = 20 + p.length) (adjacent' : last = 20 + p.length + q.length)
    (full : p.length + q.length + r.length = 48) :
    hashScratch hashes (splice (splice (splice sha 20 p) next q) last r) =
      hashes.sha1.digest (p ++ q ++ r) ++ (p ++ q ++ r) := by
  rw [splice_next (by omega) adjacent,
    splice_next (by omega) (by rw [List.length_append, adjacent', Nat.add_assoc]),
    hashScratch_eq length_sha (by rw [List.length_append, List.length_append, full])]

/-- The pieces of the key that go into the hashes of version 1. -/
theorem length_pieces (length_authKey : authKey.length = 256) (small : x ≤ 8) :
    (slice authKey x 32).length = 32 ∧ (slice authKey (32 + x) 16).length = 16 ∧
      (slice authKey (48 + x) 16).length = 16 ∧ (slice authKey (64 + x) 32).length = 32 ∧
      (slice authKey (96 + x) 32).length = 32 :=
  ⟨length_slice (by omega), length_slice (by omega), length_slice (by omega),
    length_slice (by omega), length_slice (by omega)⟩

theorem length_sha1Input (length_authKey : authKey.length = 256)
    (length_messageKey : messageKey.length = 16)
    (small : x ≤ 8) (i : Fin 4) : (sha1Input authKey messageKey x i).length = 48 := by
  obtain ⟨first, second, second', third, fourth⟩ := length_pieces length_authKey small
  rcases i with ⟨_ | _ | _ | _ | n, lt⟩
  · simp [sha1Input, length_messageKey, first]
  · simp [sha1Input, length_messageKey, second, second']
  · simp [sha1Input, length_messageKey, third]
  · simp [sha1Input, length_messageKey, fourth]
  · omega

theorem generateMessageKeySha1_eq (length_authKey : authKey.length = 256)
    (length_messageKey : messageKey.length = 16)
    (small : x ≤ 8) (length_sha : sha.length = 68) (length_result : result.length = 64) :
    (generateMessageKeySha1 hashes authKey messageKey result x sha).1 =
      aesKeySha1 (sha1Output hashes authKey messageKey x 0)
        (sha1Output hashes authKey messageKey x 1)
          (sha1Output hashes authKey messageKey x 2) ++
        aesIvSha1 (sha1Output hashes authKey messageKey x 0)
          (sha1Output hashes authKey messageKey x 1)
          (sha1Output hashes authKey messageKey x 2)
            (sha1Output hashes authKey messageKey x 3) := by
  obtain ⟨first, second, second', third, fourth⟩ := length_pieces length_authKey small
  -- whatever a round finds in the scratch array, it leaves its hash and its input there
  have round0 : hashScratch hashes (splice (splice sha 20 messageKey) 36 (slice authKey x 32)) =
      sha1Output hashes authKey messageKey x 0 ++ sha1Input authKey messageKey x 0 :=
    round_two length_sha (by omega) (by omega)
  have round1 (old : List UInt8) (length_old : old.length = 68) :
      hashScratch hashes
        (splice (splice (splice old 20 (slice authKey (32 + x) 16)) 36 messageKey) 52
          (slice authKey (48 + x) 16)) =
        sha1Output hashes authKey messageKey x 1 ++ sha1Input authKey messageKey x 1 :=
    round_three length_old (by omega) (by omega) (by omega)
  have round2 (old : List UInt8) (length_old : old.length = 68) :
      hashScratch hashes (splice (splice old 20 (slice authKey (64 + x) 32)) 52 messageKey) =
        sha1Output hashes authKey messageKey x 2 ++ sha1Input authKey messageKey x 2 :=
    round_two length_old (by omega) (by omega)
  have round3 (old : List UInt8) (length_old : old.length = 68) :
      hashScratch hashes (splice (splice old 20 messageKey) 36 (slice authKey (96 + x) 32)) =
        sha1Output hashes authKey messageKey x 3 ++ sha1Input authKey messageKey x 3 :=
    round_two length_old (by omega) (by omega)
  have left (i : Fin 4) :
      (sha1Output hashes authKey messageKey x i ++ sha1Input authKey messageKey x i).length =
        68 := by
    rw [List.length_append, length_sha1Output,
      length_sha1Input length_authKey length_messageKey small]
  have read (i : Fin 4) (offset count : ℕ) (within : offset + count ≤ 20) :
      slice (sha1Output hashes authKey messageKey x i ++ sha1Input authKey messageKey x i) offset
        count =
        slice (sha1Output hashes authKey messageKey x i) offset count := by
    apply slice_append_left
    rwa [length_sha1Output]
  simp only [generateMessageKeySha1, slice_whole length_messageKey, Nat.reduceAdd, round0,
    round1 _ (left 0),
    round2 _ (left 1), round3 _ (left 2), read _ 0 8 (by decide), read _ 8 12 (by decide),
      read _ 4 12 (by decide),
    read _ 16 4 (by decide)]
  exact gather_sha1 (length_sha1Output 0) (length_sha1Output 1) (length_sha1Output 2)
    (length_sha1Output 3)
    length_result

end Native

/-! ## The Java side computes it -/

section Java

open Java SerializedData

variable {hashes} {authKey messageKey : List UInt8} {x : ℕ}

/-- A whole array as a range. -/
theorem writeBytes_eq_range {b : List UInt8} {n : ℕ} (length : b.length = n) :
    writeBytes b = writeRange b 0 n := by
  rw [writeRange, if_pos (by omega), slice_whole length, writeBytes]

section Ranges

variable {b₁ b₂ b₃ b₄ : List UInt8} {o₁ n₁ o₂ n₂ o₃ n₃ o₄ n₄ : ℕ}

theorem toByteArray_two (first : o₁ + n₁ ≤ b₁.length) (second : o₂ + n₂ ≤ b₂.length) :
    toByteArray (do
      writeRange b₁ o₁ n₁
      writeRange b₂ o₂ n₂) = slice b₁ o₁ n₁ ++ slice b₂ o₂ n₂ :=
  ((emits_writeRange first).bind (emits_writeRange second)).toByteArray

theorem toByteArray_three (first : o₁ + n₁ ≤ b₁.length) (second : o₂ + n₂ ≤ b₂.length)
    (third : o₃ + n₃ ≤ b₃.length) :
    toByteArray (do
      writeRange b₁ o₁ n₁
      writeRange b₂ o₂ n₂
      writeRange b₃ o₃ n₃) = slice b₁ o₁ n₁ ++ slice b₂ o₂ n₂ ++ slice b₃ o₃ n₃ := by
  rw [List.append_assoc]
  exact ((emits_writeRange first).bind
    ((emits_writeRange second).bind (emits_writeRange third))).toByteArray

theorem toByteArray_four (first : o₁ + n₁ ≤ b₁.length) (second : o₂ + n₂ ≤ b₂.length)
    (third : o₃ + n₃ ≤ b₃.length)
    (fourth : o₄ + n₄ ≤ b₄.length) :
    toByteArray (do
      writeRange b₁ o₁ n₁
      writeRange b₂ o₂ n₂
      writeRange b₃ o₃ n₃
      writeRange b₄ o₄ n₄) = slice b₁ o₁ n₁ ++ slice b₂ o₂ n₂ ++ slice b₃ o₃ n₃ ++
        slice b₄ o₄ n₄ := by
  rw [List.append_assoc, List.append_assoc]
  exact ((emits_writeRange first).bind ((emits_writeRange second).bind
    ((emits_writeRange third).bind (emits_writeRange fourth)))).toByteArray

end Ranges

theorem messageKeyDataSha256_eq (length_authKey : authKey.length = 256)
    (length_messageKey : messageKey.length = 16)
    (small : x ≤ 8) :
    messageKeyDataSha256 hashes authKey messageKey x =
      { aesKey := some (aesKeySha256 (sha256First hashes authKey messageKey x)
          (sha256Second hashes authKey messageKey x))
        aesIv := some (aesIvSha256 (sha256First hashes authKey messageKey x)
          (sha256Second hashes authKey messageKey x)) } := by
  have digest := hashes.sha256.length_digest
  have whole : slice messageKey 0 16 = messageKey := slice_whole length_messageKey
  simp only [messageKeyDataSha256]
  rw [toByteArray_two, toByteArray_two, whole, toByteArray_three, toByteArray_three]
  · rfl
  all_goals first | omega | simp [digest]

theorem messageKeyDataSha1_eq (length_authKey : authKey.length = 256)
    (length_messageKey : messageKey.length = 16)
    (small : x ≤ 8) :
    messageKeyDataSha1 hashes authKey messageKey x =
      { aesKey := some (aesKeySha1 (sha1Output hashes authKey messageKey x 0)
          (sha1Output hashes authKey messageKey x 1)
          (sha1Output hashes authKey messageKey x 2))
        aesIv := some
          (aesIvSha1 (sha1Output hashes authKey messageKey x 0)
            (sha1Output hashes authKey messageKey x 1)
            (sha1Output hashes authKey messageKey x 2)
              (sha1Output hashes authKey messageKey x 3)) } := by
  have digest := hashes.sha1.length_digest
  have whole : slice messageKey 0 16 = messageKey := slice_whole length_messageKey
  simp only [messageKeyDataSha1, writeBytes_eq_range length_messageKey]
  rw [toByteArray_two, toByteArray_three, toByteArray_two, toByteArray_two, toByteArray_three,
    toByteArray_four]
  · simp only [whole]
    rfl
  all_goals first | omega | simp [digest]

end Java

/-! ## Agreement -/

/-- The bytes of the native side are the key and the iv of the Java side. -/
def KeysAgree (authKey : Block 256) (messageKey : Block 16) (incoming : Bool) (version : ℤ)
    (sha : Block 68)
    (result : Block 64) : Prop :=
  ∃ aesKey aesIv, generateMessageKeyData hashes (some authKey.1) messageKey.1 incoming version =
      { aesKey := some aesKey, aesIv := some aesIv } ∧
    (generateMessageKey hashes authKey.1 messageKey.1 result.1 incoming version sha.1).1 =
      aesKey ++ aesIv

theorem directionOffset_le (incoming : Bool) : directionOffset incoming ≤ 8 := by
  cases incoming <;> decide

/-- Both sides derive the same keys, in both versions and directions and whatever the native arrays
hold. -/
theorem keys_agree (authKey : Block 256) (messageKey : Block 16) (incoming : Bool) (sha : Block 68)
    (result : Block 64) :
    KeysAgree hashes authKey messageKey incoming 1 sha result ∧
      KeysAgree hashes authKey messageKey incoming 2 sha result := by
  obtain ⟨authKey, length_authKey⟩ := authKey
  obtain ⟨messageKey, length_messageKey⟩ := messageKey
  obtain ⟨sha, length_sha⟩ := sha
  obtain ⟨result, length_result⟩ := result
  have small := directionOffset_le incoming
  have present : authKey.length ≠ 0 := by omega
  constructor
  · refine ⟨_, _, ?_,
      generateMessageKeySha1_eq length_authKey length_messageKey small length_sha length_result⟩
    rw [← messageKeyDataSha1_eq length_authKey length_messageKey small]
    exact if_neg present
  · refine ⟨_, _, ?_, generateMessageKeySha256_eq length_messageKey length_result⟩
    rw [← messageKeyDataSha256_eq length_authKey length_messageKey small]
    exact if_neg present

end Mtproto.Datacenter
