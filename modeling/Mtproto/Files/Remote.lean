import Mtproto.Files.FileLoadOperation

/-!
# The file on the server

What the parts of a file are, how they are read one behind the other, and what an earlier operation
may have left on the disk.
-/

namespace Mtproto.Files

open Bytes Datacenter

/-- A file on a server and what an operation is told of it: its size, where zero is unknown, and its
key and iv. -/
structure Remote where
  content : List UInt8
  size : ℕ
  key : Option (List UInt8 × List UInt8)

namespace Remote

variable (aes : Aes) (r : Remote)

/-- What the constructor adds to the size. -/
def padding : ℕ := if r.key.isSome ∧ r.size % 16 ≠ 0 then 16 - r.size % 16 else 0

/-- `totalBytesCount`. -/
def total : ℕ := r.size + r.padding

/-- `currentDownloadChunkSize`. -/
def chunk : ℕ := if 2 ^ 20 ≤ r.total then 2 ^ 17 else 2 ^ 15

/-- The first bytes, decrypted, and the iv behind them. -/
def opened (count : ℕ) : List UInt8 × List UInt8 :=
  match r.key with
  | none => (r.content.take count, [])
  | some (key, iv) => aesIgeEncrypt aes (r.content.take count) key iv false

/-- The file that is to be loaded. -/
def file : List UInt8 := (r.opened aes r.content.length).1.take (r.content.length - r.padding)

/-- What the server sends from an offset on. -/
def part (offset : ℕ) : List UInt8 := slice r.content offset r.chunk

/-- The server has a file of the size that the operation is told, in whole blocks if it is
encrypted, and the offsets are far from the end of an `int32_t`. -/
structure Proper : Prop where
  small : r.content.length + 2 ^ 17 < 2 ^ 31
  size : r.size ≠ 0 → r.content.length = r.total
  blocks : r.key.isSome → r.content.length % 16 = 0
  iv : ∀ key iv, r.key = some (key, iv) → iv.length = 32

variable {aes} {r}

/-- A server that holds an encrypted text and its padding has this text for its file. -/
theorem file_of_encrypted {key iv text padding : List UInt8} (known : r.key = some (key, iv))
    (length_padding : padding.length = r.padding) (whole : (text ++ padding).length % 16 = 0)
    (encrypted : r.content = (Ige.ofAes aes).encrypt key iv (text ++ padding)) :
    r.file aes = text := by
  have decrypted : (r.opened aes r.content.length).1 =
      (Ige.ofAes aes).decrypt key iv r.content := by
    simp only [opened, known, List.take_length]
    rfl
  have length : r.content.length = text.length + r.padding := by
    rw [encrypted, (Ige.ofAes aes).length_encrypt, List.length_append, length_padding]
  rw [file, decrypted, length, Nat.add_sub_cancel, encrypted,
    (Ige.ofAes aes).decrypt_encrypt key iv _ whole, List.take_left]

theorem chunk_cases : r.chunk = 2 ^ 15 ∨ r.chunk = 2 ^ 17 := by
  unfold chunk
  split
  · exact .inr rfl
  · exact .inl rfl

theorem chunk_pos : 0 < r.chunk := by
  rcases chunk_cases (r := r) with h | h <;> omega

theorem chunk_le : r.chunk ≤ 2 ^ 17 := by
  rcases chunk_cases (r := r) with h | h <;> omega

theorem sixteen_dvd_chunk : 16 ∣ r.chunk := by
  rcases chunk_cases (r := r) with h | h <;> omega

theorem padding_lt : r.padding < 16 := by
  unfold padding
  split
  · rename_i padded
    omega
  · omega

theorem padding_eq_zero (unknown : r.size = 0) : r.padding = 0 := by
  rw [padding, if_neg (by omega)]

theorem padding_eq_zero_of_plain (plain : r.key = none) : r.padding = 0 := by
  rw [padding, if_neg (by simp [plain])]

theorem total_pos_iff : 0 < r.total ↔ r.size ≠ 0 := by
  constructor
  · intro pos unknown
    rw [total, unknown, padding_eq_zero unknown] at pos
    omega
  · intro known
    rw [total]
    omega

theorem length_opened (count : ℕ) : (r.opened aes count).1.length = min count r.content.length := by
  unfold opened
  split
  · exact List.length_take
  · rw [length_aesIgeEncrypt, List.length_take]

variable (aes) in
/-- The next bytes are decrypted with the iv behind the ones before. -/
theorem opened_add {key iv : List UInt8} (encrypted : r.key = some (key, iv)) {done count : ℕ}
    (whole : done % 16 = 0) (within : done + count ≤ r.content.length) (whole' : count % 16 = 0) :
    aesIgeEncrypt aes (slice r.content done count) key (r.opened aes done).2 false =
      ((r.opened aes (done + count)).1.drop done, (r.opened aes (done + count)).2) := by
  have first : (r.content.take done).length = done := by
    rw [List.length_take]
    omega
  have both : r.content.take (done + count) = r.content.take done ++ slice r.content done count :=
    List.take_add
  have length : (slice r.content done count).length = count := length_slice within
  have joined := aesIgeEncrypt_append aes (r.content.take done) (slice r.content done count) key iv
    (by rw [first]; exact whole) (by rw [length]; exact whole')
  simp only [opened, encrypted]
  rw [both, joined]
  refine Prod.ext ?_ rfl
  exact (List.drop_left' ((length_aesIgeEncrypt _ _ _ _ _).trans first)).symm

/-- What is decrypted first does not depend on what follows. -/
theorem opened_take (proper : r.Proper) {done : ℕ} (within : done ≤ r.content.length)
    (whole : r.key.isSome → done % 16 = 0) :
    (r.opened aes r.content.length).1.take done = (r.opened aes done).1 := by
  unfold opened
  split
  · rw [List.take_take, Nat.min_eq_left within]
  · rename_i key iv encrypted
    have done_blocks := whole (by simp [encrypted])
    have blocks := proper.blocks (by simp [encrypted])
    have first : (r.content.take done).length = done := by
      rw [List.length_take]
      omega
    have rest : (r.content.drop done).length % 16 = 0 := by
      rw [List.length_drop]
      omega
    have joined := aesIgeEncrypt_append aes (r.content.take done) (r.content.drop done) key iv
      (by rw [first]; exact done_blocks) rest
    rw [List.take_append_drop] at joined
    rw [List.take_length, joined]
    exact List.take_left' ((length_aesIgeEncrypt _ _ _ _ _).trans first)

theorem length_file : (r.file aes).length = r.content.length - r.padding := by
  rw [file, List.length_take, length_opened]
  omega

/-- The bytes before the padding are those of the file. -/
theorem file_take (proper : r.Proper) {done : ℕ} (within : done + r.padding ≤ r.content.length)
    (whole : r.key.isSome → done % 16 = 0) : (r.file aes).take done = (r.opened aes done).1 := by
  rw [file, List.take_take, Nat.min_eq_left (by omega), opened_take proper (by omega) whole]

theorem length_part {offset : ℕ} :
    (r.part offset).length = min r.chunk (r.content.length - offset) := by
  rw [part, slice, List.length_take, List.length_drop]

end Remote

/-- A part of the file: its size, and whether it is the last one. -/
structure Remote.Piece (r : Remote) (done size : ℕ) (last : Bool) : Prop where
  length : (r.part done).length = size
  aligned : r.chunk ∣ done
  reached : done + size ≤ r.content.length
  ends : last = true → done + size = r.content.length
  goes_on : last = false → size = r.chunk ∧ (r.size ≠ 0 → done + size < r.content.length)

namespace Remote.Piece

variable {aes : Aes} {r : Remote} {done size : ℕ} {last : Bool} (piece : r.Piece done size last)
include piece

theorem part_eq : r.part done = slice r.content done size := by
  have length := piece.length
  rw [Remote.length_part, ← List.length_drop] at length
  rw [Remote.part, slice, slice, ← length]
  exact List.take_eq_take_min

theorem sixteen : done % 16 = 0 := by
  have := Nat.dvd_trans Remote.sixteen_dvd_chunk piece.aligned
  omega

theorem sixteen_size (proper : r.Proper) (encrypted : r.key.isSome) : size % 16 = 0 := by
  have blocks := proper.blocks encrypted
  have aligned := piece.sixteen
  cases last with
  | true =>
      have ends := piece.ends rfl
      omega
  | false =>
      have whole := Remote.sixteen_dvd_chunk (r := r)
      rw [(piece.goes_on rfl).1]
      omega

/-- Behind a part that is not the last one there is more than the padding. -/
theorem padding_left (proper : r.Proper) (more : last = false) :
    done + size + r.padding ≤ r.content.length := by
  have reached := piece.reached
  by_cases unknown : r.size = 0
  · rw [Remote.padding_eq_zero unknown]
    omega
  · cases encrypted : r.key with
    | none =>
        rw [Remote.padding_eq_zero_of_plain encrypted]
        omega
    | some k =>
        have isSome : r.key.isSome := by simp [encrypted]
        have blocks := proper.blocks isSome
        have short := Remote.padding_lt (r := r)
        have less := (piece.goes_on more).2 unknown
        have aligned := piece.sixteen
        have whole := piece.sixteen_size proper isSome
        omega

/-- The file up to the end of the part. -/
theorem file_take (proper : r.Proper) :
    (r.file aes).take (done + size) =
      if last then r.file aes else (r.opened aes (done + size)).1 := by
  cases last with
  | true =>
      have ends := piece.ends rfl
      rw [if_pos rfl]
      exact List.take_of_length_le (by rw [Remote.length_file]; omega)
  | false =>
      have aligned := piece.sixteen
      rw [if_neg (by simp)]
      refine Remote.file_take proper (piece.padding_left proper rfl) fun encrypted => ?_
      have whole := piece.sixteen_size proper encrypted
      omega

end Remote.Piece

/-! ## What is found on the disk -/

/-- The paths of an operation. -/
structure Paths where
  file : String
  temp : String
  iv : String
  temp_ne : temp ≠ file
  iv_ne : iv ≠ file
  iv_ne_temp : iv ≠ temp

/-- An operation can go on from the disk: the temporary file holds whole parts, and the other file
the iv behind them. -/
structure Resumable (aes : Aes) (r : Remote) (paths : Paths) (disk : Disk) : Prop where
  dest : r.size = 0 → ∀ found, disk paths.file = some found → found = r.file aes
  temp : ∀ found, disk paths.temp = some found → ∃ done,
    r.chunk ∣ done ∧ done ≤ (r.file aes).length ∧ found = (r.file aes).take done ∧
      (r.key.isSome → if done = 0 then ∀ iv, disk paths.iv = some iv → iv = []
        else ∃ iv, disk paths.iv = some iv ∧ 32 ≤ iv.length ∧ iv.take 32 = (r.opened aes done).2)

theorem resumable_empty {aes : Aes} {r : Remote} {paths : Paths} :
    Resumable aes r paths fun _ => none where
  dest := by simp
  temp := by simp

end Mtproto.Files
