import Mtproto.Lib.Garble
import Mtproto.Datacenter.Encryption

/-!
# AES in IGE mode

`AES_ige_encrypt` cuts the data into blocks of 16 bytes and writes the chain back over the iv, so
that a text may be handed over in pieces.  The cipher of one block is a parameter.
-/

namespace Mtproto.Datacenter

open Bytes Lib

/-- A block of 16 bytes. -/
abbrev AesBlock := Vector UInt8 16

/-- `AES_encrypt` and `AES_decrypt` under the key that `AES_set_encrypt_key` and
`AES_set_decrypt_key` expand. -/
structure Aes where
  encrypt : List UInt8 → AesBlock → AesBlock
  decrypt : List UInt8 → AesBlock → AesBlock
  decrypt_encrypt : ∀ key b, decrypt key (encrypt key b) = b

def addBlocks (a b : AesBlock) : AesBlock := Vector.zipWith (· ^^^ ·) a b

theorem addBlocks_addBlocks (a b : AesBlock) : addBlocks (addBlocks a b) b = a := by
  ext i hi
  simp only [addBlocks, Vector.getElem_zipWith]
  rw [UInt8.xor_assoc, UInt8.xor_self, UInt8.xor_zero]

/-- The cipher under one key. -/
def Aes.cipher (aes : Aes) (key : List UInt8) : BlockCipher AesBlock where
  add := addBlocks
  encrypt := aes.encrypt key
  decrypt := aes.decrypt key
  add_add := addBlocks_addBlocks
  decrypt_encrypt := aes.decrypt_encrypt key

/-! ## Blocks in memory -/

/-- `load_block`. -/
def loadBlock (data : List UInt8) : AesBlock := Vector.ofFn fun i => data.getD i 0

/-- The next `len` blocks. -/
def loadBlocks : ℕ → List UInt8 → List AesBlock
  | 0, _ => []
  | len + 1, data => loadBlock data :: loadBlocks len (data.drop 16)

/-- `store_block`, for one block behind the other. -/
def storeBlocks : List AesBlock → List UInt8
  | [] => []
  | b :: bs => b.toList ++ storeBlocks bs

/-- The iv of 32 bytes. -/
def loadChain (ivec : List UInt8) : Garble.Chain AesBlock :=
  ⟨loadBlock ivec, loadBlock (ivec.drop 16)⟩

def storeChain (chain : Garble.Chain AesBlock) : List UInt8 :=
  chain.hidden.toList ++ chain.plain.toList

theorem toList_loadBlock {data : List UInt8} (enough : 16 ≤ data.length) :
    (loadBlock data).toList = data.take 16 := by
  refine List.ext_getElem ?_ fun i hi hi' => ?_
  · rw [Vector.length_toList, List.length_take, Nat.min_eq_left enough]
  · have within : i < 16 := by
      rw [Vector.length_toList] at hi
      exact hi
    rw [Vector.getElem_toList, List.getElem_take]
    unfold loadBlock
    rw [Vector.getElem_ofFn]
    exact (List.getElem_eq_getD 0).symm

theorem loadBlock_append (b : AesBlock) (data : List UInt8) : loadBlock (b.toList ++ data) = b := by
  ext i hi
  have within : i < b.toList.length := by
    rw [Vector.length_toList]
    exact hi
  rw [loadBlock, Vector.getElem_ofFn,
    List.getD_append _ _ _ _ within, ← List.getElem_eq_getD (h := within), Vector.getElem_toList]

theorem drop_block (b : AesBlock) (data : List UInt8) : (b.toList ++ data).drop 16 = data :=
  List.drop_left' (Vector.length_toList)

@[simp] theorem length_loadBlocks (len : ℕ) (data : List UInt8) :
    (loadBlocks len data).length = len := by
  induction len generalizing data with
  | zero => rfl
  | succ len ih => rw [loadBlocks, List.length_cons, ih]

@[simp] theorem length_storeBlocks (bs : List AesBlock) :
    (storeBlocks bs).length = 16 * bs.length := by
  induction bs with
  | nil => rfl
  | cons b bs ih =>
      rw [storeBlocks, List.length_append, Vector.length_toList, ih, List.length_cons]
      omega

theorem storeBlocks_append (bs cs : List AesBlock) :
    storeBlocks (bs ++ cs) = storeBlocks bs ++ storeBlocks cs := by
  induction bs with
  | nil => rfl
  | cons b bs ih => rw [List.cons_append, storeBlocks, ih, storeBlocks, List.append_assoc]

/-- The blocks of a text that starts with whole blocks. -/
theorem loadBlocks_storeBlocks (bs : List AesBlock) (len : ℕ) (data : List UInt8) :
    loadBlocks (bs.length + len) (storeBlocks bs ++ data) = bs ++ loadBlocks len data := by
  induction bs with
  | nil => rw [List.length_nil, Nat.zero_add, storeBlocks, List.nil_append, List.nil_append]
  | cons b bs ih =>
      have length : (b :: bs).length + len = bs.length + len + 1 := by
        rw [List.length_cons]
        omega
      rw [length, storeBlocks, List.append_assoc, loadBlocks, loadBlock_append, drop_block, ih,
        List.cons_append]

theorem storeBlocks_loadBlocks {len : ℕ} {data : List UInt8} (enough : 16 * len ≤ data.length) :
    storeBlocks (loadBlocks len data) = data.take (16 * len) := by
  induction len generalizing data with
  | zero => rfl
  | succ len ih =>
      have rest : 16 * len ≤ (data.drop 16).length := by
        rw [List.length_drop]
        omega
      rw [loadBlocks, storeBlocks, toList_loadBlock (by omega), ih rest, ← List.take_add]
      congr 1
      omega

theorem loadChain_storeChain (chain : Garble.Chain AesBlock) :
    loadChain (storeChain chain) = chain := by
  have plain : loadBlock chain.plain.toList = chain.plain := by
    rw [← List.append_nil chain.plain.toList, loadBlock_append]
  rw [loadChain, storeChain, loadBlock_append, drop_block, plain]

theorem storeChain_loadChain {ivec : List UInt8} (length : ivec.length = 32) :
    storeChain (loadChain ivec) = ivec := by
  have rest : (ivec.drop 16).length = 16 := by
    rw [List.length_drop]
    omega
  rw [storeChain, loadChain, toList_loadBlock (by omega), toList_loadBlock (by omega),
    List.take_of_length_le (Nat.le_of_eq rest), List.take_append_drop]

@[simp] theorem length_storeChain (chain : Garble.Chain AesBlock) :
    (storeChain chain).length = 32 := by
  rw [storeChain, List.length_append, Vector.length_toList, Vector.length_toList]

/-! ## The mode -/

variable (aes : Aes)

/-- `AES_ige_encrypt`, in place: the data and the iv. -/
def aesIgeEncrypt (data key ivec : List UInt8) (enc : Bool) : List UInt8 × List UInt8 :=
  let len := data.length / 16
  let blocks := loadBlocks len data
  let out :=
    if enc then Garble.encrypt (aes.cipher key) (loadChain ivec) blocks
    else Garble.decrypt (aes.cipher key) (loadChain ivec) blocks
  (storeBlocks out.1 ++ data.drop (16 * len), storeChain out.2)

/-- `aesIgeEncryption`: the data and the iv afterwards. -/
def aesIgeEncryption (buffer key iv : List UInt8) (encrypt changeIv : Bool) :
    List UInt8 × List UInt8 :=
  let out := aesIgeEncrypt aes buffer key iv encrypt
  (out.1, if changeIv then out.2 else iv)

variable {aes}

section Mode

variable {data more key ivec : List UInt8} {enc : Bool}

variable (aes data key ivec enc) in
theorem length_aesIgeEncrypt : (aesIgeEncrypt aes data key ivec enc).1.length = data.length := by
  have whole : 16 * (data.length / 16) ≤ data.length := Nat.mul_div_le _ _
  cases enc <;>
    simp only [aesIgeEncrypt, if_true, Bool.false_eq_true, if_false, List.length_append,
      length_storeBlocks, Garble.length_encrypt, Garble.length_decrypt, length_loadBlocks,
      List.length_drop] <;>
    omega

theorem length_aesIgeEncrypt_ivec : (aesIgeEncrypt aes data key ivec enc).2.length = 32 :=
  length_storeChain _

/-- The blocks of a text that ends with a block. -/
theorem aesIgeEncrypt_of_blocks (whole : data.length % 16 = 0) :
    aesIgeEncrypt aes data key ivec false =
      (storeBlocks
        (Garble.decrypt (aes.cipher key) (loadChain ivec) (loadBlocks (data.length / 16) data)).1,
        storeChain
          (Garble.decrypt (aes.cipher key) (loadChain ivec)
            (loadBlocks (data.length / 16) data)).2) := by
  have ends : data.drop (16 * (data.length / 16)) = [] := List.drop_eq_nil_of_le (by omega)
  simp only [aesIgeEncrypt, Bool.false_eq_true, if_false, ends, List.append_nil]

theorem loadBlocks_append (whole : data.length % 16 = 0) :
    loadBlocks ((data ++ more).length / 16) (data ++ more) =
      loadBlocks (data.length / 16) data ++ loadBlocks (more.length / 16) more := by
  have spelled : storeBlocks (loadBlocks (data.length / 16) data) = data := by
    rw [storeBlocks_loadBlocks (Nat.mul_div_le _ _)]
    exact List.take_of_length_le (by omega)
  have length : (data ++ more).length / 16 = (loadBlocks (data.length / 16) data).length +
      more.length / 16 := by
    rw [List.length_append, length_loadBlocks]
    omega
  have split := loadBlocks_storeBlocks (loadBlocks (data.length / 16) data) (more.length / 16) more
  rwa [spelled, ← length] at split

variable (aes data more key ivec) in
/-- A text may be decrypted in pieces of whole blocks, each with the iv that the last one left. -/
theorem aesIgeEncrypt_append (whole : data.length % 16 = 0) (whole' : more.length % 16 = 0) :
    aesIgeEncrypt aes (data ++ more) key ivec false =
      ((aesIgeEncrypt aes data key ivec false).1 ++
          (aesIgeEncrypt aes more key (aesIgeEncrypt aes data key ivec false).2 false).1,
        (aesIgeEncrypt aes more key (aesIgeEncrypt aes data key ivec false).2 false).2) := by
  have both : (data ++ more).length % 16 = 0 := by
    rw [List.length_append]
    omega
  rw [aesIgeEncrypt_of_blocks both, aesIgeEncrypt_of_blocks whole, aesIgeEncrypt_of_blocks whole',
    loadBlocks_append whole, Garble.decrypt_append, storeBlocks_append, loadChain_storeChain]

/-- Decrypting undoes encrypting. -/
theorem aesIgeEncrypt_aesIgeEncrypt (whole : data.length % 16 = 0) :
    (aesIgeEncrypt aes (aesIgeEncrypt aes data key ivec true).1 key ivec false).1 = data := by
  have ends : data.drop (16 * (data.length / 16)) = [] := List.drop_eq_nil_of_le (by omega)
  have hidden : (aesIgeEncrypt aes data key ivec true).1 =
    storeBlocks (Garble.encrypt (aes.cipher key) (loadChain ivec)
      (loadBlocks (data.length / 16) data)).1 := by
    simp only [aesIgeEncrypt, if_true, ends, List.append_nil]
  have length := length_aesIgeEncrypt aes data key ivec true
  have blocks : loadBlocks (data.length / 16) (aesIgeEncrypt aes data key ivec true).1 =
      (Garble.encrypt (aes.cipher key) (loadChain ivec)
        (loadBlocks (data.length / 16) data)).1 := by
    have loaded := loadBlocks_storeBlocks (Garble.encrypt (aes.cipher key) (loadChain ivec)
      (loadBlocks (data.length / 16) data)).1 0 []
    rwa [Garble.length_encrypt, length_loadBlocks, Nat.add_zero, List.append_nil, ← hidden,
      loadBlocks, List.append_nil] at loaded
  rw [aesIgeEncrypt_of_blocks (by rw [length]; exact whole), length, blocks, Garble.decrypt_encrypt,
    storeBlocks_loadBlocks (Nat.mul_div_le _ _)]
  exact List.take_of_length_le (by omega)

end Mode

/-- What the messages need of the mode. -/
def Ige.ofAes (aes : Aes) : Ige where
  encrypt key iv data := (aesIgeEncryption aes data key iv true false).1
  decrypt key iv data := (aesIgeEncryption aes data key iv false false).1
  length_encrypt _ _ _ := length_aesIgeEncrypt _ _ _ _ _
  length_decrypt _ _ _ := length_aesIgeEncrypt _ _ _ _ _
  decrypt_encrypt _ _ _ whole := aesIgeEncrypt_aesIgeEncrypt whole

end Mtproto.Datacenter
