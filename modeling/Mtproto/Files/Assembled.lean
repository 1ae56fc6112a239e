import Mtproto.Files.Remote

/-!
# The file is put together

However the answers come, the temporary file holds the parts before `downloadedBytes`, and the
offsets from there to `nextDownloadOffset` are those of the requests under way and of the parts that
wait for an earlier one.
-/

namespace Mtproto.Files

open Bytes Datacenter Lib FileLoadOperation

/-! ## What is known of an operation -/

/-- The operation loads this file. -/
structure Loads (r : Remote) (s : FileLoadOperation) : Prop where
  total : s.totalBytesCount = r.total
  padding : s.bytesCountPadding = r.padding
  key : s.key = r.key.map Prod.fst

/-- Its sizes and its paths are set. -/
structure Started (r : Remote) (paths : Paths)
    (s : FileLoadOperation) : Prop extends Loads r s where
  chunk : s.currentDownloadChunkSize = r.chunk
  requests : s.currentMaxDownloadRequests = 4
  filePath : s.filePath = paths.file
  tempFilePath : s.tempFilePath = paths.temp
  ivPath : r.key.isSome → s.tempFileIvPath = paths.iv

/-- The parts before `done` are stored. -/
structure Stored (aes : Aes) (r : Remote) (paths : Paths) (s : FileLoadOperation) (done : ℕ) : Prop
    extends Started r paths s where
  downloaded : s.downloadedBytes = done
  aligned : r.chunk ∣ done
  within : done ≤ (r.file aes).length
  tempFile : s.tempFile = some done
  disk : s.disk paths.temp = some ((r.file aes).take done)
  dest : r.size = 0 → ∀ found, s.disk paths.file = some found → found = r.file aes
  tempIvFile : s.tempIvFile = r.key.isSome
  iv : r.key.isSome → s.iv = (r.opened aes done).2
  ivFile : r.key.isSome → ∃ iv, s.disk paths.iv = some iv ∧
    (done = 0 ∧ iv = [] ∨ 0 < done ∧ 32 ≤ iv.length ∧ iv.take 32 = (r.opened aes done).2)

/-- The whole file is stored. -/
structure Complete (aes : Aes) (r : Remote) (paths : Paths) (s : FileLoadOperation) : Prop
    extends Started r paths s where
  tempFile : s.tempFile.isSome
  disk : s.disk paths.temp = some (r.file aes)
  tempIvFile : s.tempIvFile = r.key.isSome

/-- The offsets of the requests under way and of the parts that wait. -/
def FileLoadOperation.offsets (s : FileLoadOperation) : List ℤ :=
  (s.requestInfos ++ s.delayedRequestInfos).map RequestInfo.offset

/-- The offsets that have been asked for so far, up to `next`: one part after the other, and each
once. -/
def Asked (r : Remote) (s : FileLoadOperation) (next : ℕ) : Prop :=
  ∃ first, r.chunk ∣ first ∧ next = first + s.sent.length * r.chunk ∧
    s.sent.map GetFile.offset = (List.range s.sent.length).map fun i =>
      ((first + i * r.chunk : ℕ) : ℤ)

/-- Nothing beyond the end of the file has been asked for. -/
def Once (r : Remote) (s : FileLoadOperation) : Prop :=
  ∃ next, Asked r s next ∧ next ≤ r.content.length + r.chunk ∧
    (r.size ≠ 0 → next < r.content.length + r.chunk)

/-- Each part from `low` to `next` is under way or waits, once. -/
structure Covered (r : Remote) (s : FileLoadOperation) (low next : ℕ) : Prop where
  offset : s.nextDownloadOffset = next
  low_aligned : r.chunk ∣ low
  next_aligned : r.chunk ∣ next
  low_le : low ≤ next
  within : r.size ≠ 0 → next < r.content.length + r.chunk
  mem_iff : ∀ o : ℤ, o ∈ s.offsets ↔ ∃ k : ℕ, low ≤ k ∧ k < next ∧ r.chunk ∣ k ∧ o = k
  nodup : s.offsets.Nodup
  waiting : ∀ info ∈ s.delayedRequestInfos, info.bytes = some (r.part info.offset.toNat)
  asked : Asked r s next

variable {aes : Aes} {sys : System} {r : Remote} {paths : Paths} {s t : FileLoadOperation}
  {low next done : ℕ}

/-! ## Sums that fit -/

theorem int32_eq {n : ℤ} (lower : 0 ≤ n) (upper : n < 2 ^ 31) : int32 n = n :=
  Int.bmod_eq_of_le (by omega) (by omega)

theorem toNat_natCast_sub (a b : ℕ) : ((a : ℤ) - b).toNat = a - b := by omega

theorem dvd_tmod {a b : ℕ} (dvd : b ∣ a) : (a : ℤ).tmod b = 0 := by
  obtain ⟨c, rfl⟩ := dvd
  simp

/-- The last part is the one behind which nothing is left. -/
theorem finishedDownloading_iff (started : Started r paths s) {size : ℕ} (aligned : r.chunk ∣ done)
    (downloaded : s.downloadedBytes = (done + size : ℕ)) :
    s.finishedDownloading size = true ↔ size ≠ r.chunk ∨ r.total = done + r.chunk := by
  have pos := Remote.chunk_pos (r := r)
  simp only [finishedDownloading, started.chunk, started.total, downloaded, Bool.or_eq_true,
    Bool.and_eq_true,
    decide_eq_true_eq, ne_eq, Int.natCast_inj, decide_not, Bool.not_eq_true',
      decide_eq_false_iff_not]
  by_cases whole : size = r.chunk
  · subst whole
    have multiple : ((done + r.chunk : ℕ) : ℤ).tmod r.chunk = 0 :=
      dvd_tmod (Nat.dvd_add aligned (Nat.dvd_refl _))
    simp only [multiple, not_true_eq_false, or_false, false_or]
    omega
  · simp [whole]

/-- The code sees which part is the last one. -/
theorem piece_of_part (proper : r.Proper) (started : Started r paths s) {size : ℕ}
    (length : (r.part done).length = size)
    (aligned : r.chunk ∣ done) (within : done ≤ r.content.length)
    (downloaded : s.downloadedBytes = (done + size : ℕ)) :
    r.Piece done size (s.finishedDownloading size) := by
  have counted := length
  rw [Remote.length_part] at counted
  have pos := Remote.chunk_pos (r := r)
  refine ⟨length, aligned, by omega, fun last => ?_, fun more => ?_⟩
  · rcases (finishedDownloading_iff started aligned downloaded).1 last with short | total
    · omega
    · have known := proper.size (Remote.total_pos_iff.1 (by omega))
      omega
  · have goes_on := (finishedDownloading_iff started aligned downloaded).not.1 (by simp [more])
    push Not at goes_on
    refine ⟨goes_on.1, fun known => ?_⟩
    have size_known := proper.size known
    omega

/-! ## Storing a part -/

/-- What a failure leaves of the operation. -/
theorem onFailedLoadingFile_failed (reason : FileLoadFailReason) (s : FileLoadOperation) :
    (s.onFailedLoadingFile reason).state = .failed ∧ (s.onFailedLoadingFile reason).onFinished =
      s.onFinished ∧
      (s.onFailedLoadingFile reason).sent = s.sent := by
  unfold onFailedLoadingFile
  split
  · exact ⟨‹_›, rfl, rfl⟩
  · exact ⟨rfl, rfl, rfl⟩

section Decrypt

variable {size : ℕ} {last : Bool}

theorem decryptPart_plain (loads : Loads r s) (piece : r.Piece done size last)
    (plain : r.key = none) :
    s.decryptPart aes last (r.part done) = (((r.file aes).take (done + size)).drop done, s) := by
  have noKey : s.key = none := by rw [loads.key, plain, Option.map_none]
  have opened (count : ℕ) : (r.opened aes count).1 = r.content.take count := by
    rw [Remote.opened, plain]
  have file : r.file aes = r.content := by
    rw [Remote.file, opened, Remote.padding_eq_zero_of_plain plain, List.take_length, Nat.sub_zero,
      List.take_length]
  rw [decryptPart, noKey, file, piece.part_eq, slice, List.drop_take, Nat.add_sub_cancel_left]

theorem decryptPart_encrypted (proper : r.Proper) (loads : Loads r s)
    (piece : r.Piece done size last)
    (encrypted : r.key.isSome) (iv : s.iv = (r.opened aes done).2) :
    s.decryptPart aes last (r.part done) =
      (((r.file aes).take (done + size)).drop done,
        { s with iv := (r.opened aes (done + size)).2 }) := by
  obtain ⟨⟨key, iv₀⟩, known⟩ := Option.isSome_iff_exists.1 encrypted
  have secret : s.key = some key := by rw [loads.key, known, Option.map_some]
  have opens :=
    Remote.opened_add aes known piece.sixteen piece.reached (piece.sixteen_size proper encrypted)
  simp only [decryptPart, secret, aesIgeEncryption, iv, piece.part_eq, opens, if_true,
    Prod.mk.injEq, and_true]
  rw [piece.file_take proper]
  cases last with
  | false => simp
  | true =>
      have ends := piece.ends rfl
      have short := Remote.padding_lt (r := r)
      simp only [true_and, if_true, loads.padding, ne_eq, Int.natCast_eq_zero]
      rw [Remote.file, List.drop_take, ends, List.length_drop, Remote.length_opened, Nat.min_self,
        toNat_natCast_sub]
      split
      · congr 1
        omega
      · rename_i unpadded
        rw [Decidable.not_not.1 unpadded]
        refine (List.take_of_length_le ?_).symm
        rw [List.length_drop, Remote.length_opened]
        omega

end Decrypt

/-- What storing a part leaves alone. -/
structure Unasked (s t : FileLoadOperation) : Prop where
  state : t.state = s.state
  requestInfos : t.requestInfos = s.requestInfos
  delayed : t.delayedRequestInfos = s.delayedRequestInfos
  offset : t.nextDownloadOffset = s.nextDownloadOffset
  onFinished : t.onFinished = s.onFinished
  sent : t.sent = s.sent

theorem Unasked.trans {u : FileLoadOperation} (first : Unasked s t) (second : Unasked t u) :
    Unasked s u :=
  ⟨second.state.trans first.state, second.requestInfos.trans first.requestInfos,
    second.delayed.trans first.delayed,
    second.offset.trans first.offset, second.onFinished.trans first.onFinished,
      second.sent.trans first.sent⟩

variable (aes) in
theorem unasked_decryptPart (last : Bool) (bytes : List UInt8) (s : FileLoadOperation) :
    Unasked s (s.decryptPart aes last bytes).2 := by
  unfold decryptPart
  split <;> exact ⟨rfl, rfl, rfl, rfl, rfl, rfl⟩

variable (sys) in
theorem unasked_writePart (bytes : List UInt8) (s : FileLoadOperation) :
    Unasked s (s.writePart sys bytes).2 := by
  unfold writePart
  split <;> exact ⟨rfl, rfl, rfl, rfl, rfl, rfl⟩

variable (sys) in
theorem unasked_writeIv (s : FileLoadOperation) : Unasked s (s.writeIv sys).2 := by
  unfold writeIv
  split <;> exact ⟨rfl, rfl, rfl, rfl, rfl, rfl⟩

variable (aes sys) in
/-- Either the operation fails, or every write went through. -/
theorem storePart_cases (bytes : List UInt8) (s : FileLoadOperation) :
    ((s.storePart aes sys bytes).1 = none ∧ (s.storePart aes sys bytes).2.state = .failed ∧
        (s.storePart aes sys bytes).2.onFinished = s.onFinished ∧
          (s.storePart aes sys bytes).2.sent = s.sent) ∨
      let counted := s.counted bytes.length
      let decrypted := counted.decryptPart aes (counted.finishedDownloading bytes.length) bytes
      let written := decrypted.2.writePart sys decrypted.1
      written.1 = true ∧ (written.2.writeIv sys).1 = true ∧
        s.storePart aes sys bytes = (some (counted.finishedDownloading bytes.length),
          (written.2.writeIv sys).2) := by
  have start : Unasked s (s.counted bytes.length) := ⟨rfl, rfl, rfl, rfl, rfl, rfl⟩
  unfold storePart
  simp only
  generalize s.counted bytes.length = c at start ⊢
  have decrypted :=
    start.trans (unasked_decryptPart aes (c.finishedDownloading bytes.length) bytes c)
  generalize c.decryptPart aes (c.finishedDownloading bytes.length) bytes = d at decrypted ⊢
  have written := decrypted.trans (unasked_writePart sys d.1 d.2)
  split
  · rename_i wrote
    split
    · rename_i wroteIv
      exact .inr ⟨wrote, wroteIv, rfl⟩
    · have unasked := written.trans (unasked_writeIv sys (d.2.writePart sys d.1).2)
      obtain ⟨failed, quiet, sent⟩ :=
        onFailedLoadingFile_failed .error ((d.2.writePart sys d.1).2.writeIv sys).2
      exact .inl ⟨rfl, failed, quiet.trans unasked.onFinished, sent.trans unasked.sent⟩
  · obtain ⟨failed, quiet, sent⟩ := onFailedLoadingFile_failed .error (d.2.writePart sys d.1).2
    exact .inl ⟨rfl, failed, quiet.trans written.onFinished, sent.trans written.sent⟩

theorem unasked_storePart {bytes : List UInt8} {last : Bool}
    (stored : s.storePart aes sys bytes = (some last, t)) :
    Unasked s t := by
  rcases storePart_cases aes sys bytes s with ⟨failed, -⟩ | ⟨-, -, result⟩
  · rw [stored] at failed
    cases failed
  · have start : Unasked s (s.counted bytes.length) := ⟨rfl, rfl, rfl, rfl, rfl, rfl⟩
    rw [stored] at result
    rw [(Prod.mk.inj result).2]
    generalize s.counted bytes.length = c at start ⊢
    have decrypted :=
      start.trans (unasked_decryptPart aes (c.finishedDownloading bytes.length) bytes c)
    exact (decrypted.trans (unasked_writePart _ _ _)).trans (unasked_writeIv _ _)

theorem splice_at_end (bs src : List UInt8) : splice bs bs.length src = bs ++ src := by
  rw [splice, List.take_length, List.drop_eq_nil_of_le (by omega), List.append_nil]

/-- A write behind what is there. -/
theorem writePart_at_end {bytes : List UInt8} (file : List UInt8)
    (tempFile : s.tempFile = some file.length)
    (disk : s.disk s.tempFilePath = some file) (written : (s.writePart sys bytes).1 = true) :
    (s.writePart sys bytes).2 = { s with
      tempFile := some (file.length + bytes.length)
      disk := Function.update s.disk s.tempFilePath (some (file ++ bytes)) } := by
  simp only [writePart, tempFile, beq_iff_eq] at written ⊢
  rw [written, List.take_length, disk, Option.getD_some, splice_at_end]

/-- The iv in front of its file. -/
theorem writeIv_whole (opened : s.tempIvFile = true) (length : s.iv.length = 32)
    (written : (s.writeIv sys).1 = true) :
    ∃ file, file.take 32 = s.iv ∧ 32 ≤ file.length ∧
      (s.writeIv sys).2 =
        { s with disk := Function.update s.disk s.tempFileIvPath (some file) } := by
  simp only [writeIv, opened, if_true, beq_iff_eq] at written ⊢
  rw [written, ← length, List.take_length]
  generalize (s.disk s.tempFileIvPath).getD [] = old
  have taken : (splice old 0 s.iv).take (0 + s.iv.length) = old.take 0 ++ s.iv :=
    take_splice (Nat.zero_le _)
  rw [Nat.zero_add, List.take_zero, List.nil_append] at taken
  refine ⟨splice old 0 s.iv, taken, ?_, rfl⟩
  have long := congrArg List.length taken
  rw [List.length_take] at long
  omega

theorem writeIv_closed (closed : s.tempIvFile = false) : (s.writeIv sys).2 = s := by
  simp [writeIv, closed]

/-- The parts before `reached` are on the disk. -/
structure Written (aes : Aes) (r : Remote) (paths : Paths) (s t : FileLoadOperation)
    (reached : ℕ) : Prop
    extends Started r paths t where
  downloaded : t.downloadedBytes = reached
  tempFile : t.tempFile = some ((r.file aes).take reached).length
  disk : t.disk paths.temp = some ((r.file aes).take reached)
  dest : t.disk paths.file = s.disk paths.file
  tempIvFile : t.tempIvFile = s.tempIvFile
  iv : r.key.isSome → t.iv = (r.opened aes reached).2
  ivFile : r.key.isSome → ∃ iv, t.disk paths.iv = some iv ∧ 32 ≤ iv.length ∧
    iv.take 32 = (r.opened aes reached).2

theorem take_append_part {α : Type} (file : List α) {a b : ℕ} (le : a ≤ b) :
    file.take a ++ (file.take b).drop a = file.take b := by
  have front : (file.take b).take a = file.take a := by rw [List.take_take, Nat.min_eq_left le]
  rw [← front, List.take_append_drop]

variable (aes) in
theorem length_opened_iv (encrypted : r.key.isSome) (count : ℕ) :
    (r.opened aes count).2.length = 32 := by
  obtain ⟨⟨key, iv⟩, known⟩ := Option.isSome_iff_exists.1 encrypted
  simp only [Remote.opened, known, length_aesIgeEncrypt_ivec]

/-- The next part, where every write goes through. -/
theorem storePart_written (proper : r.Proper) (stored : Stored aes r paths s done) {last : Bool}
    (success : (s.storePart aes sys (r.part done)).1 = some last) :
    r.Piece done (r.part done).length last ∧ Unasked s (s.storePart aes sys (r.part done)).2 ∧
      Written aes r paths s (s.storePart aes sys (r.part done)).2
        (done + (r.part done).length) := by
  have within := stored.within
  rw [Remote.length_file] at within
  have short := proper.small
  have size_le : (r.part done).length ≤ r.content.length - done := by
    rw [Remote.length_part]
    exact Nat.min_le_right _ _
  have sum : (s.counted (r.part done).length).downloadedBytes =
      (done + (r.part done).length : ℕ) := by
    simp only [counted, stored.downloaded]
    rw [int32_eq (by omega) (by omega)]
    omega
  have started : Started r paths (s.counted (r.part done).length) := { stored.toStarted with }
  have piece := piece_of_part proper started rfl stored.aligned (by omega) sum
  have front : ((r.file aes).take done).length = done := by
    rw [List.length_take]
    exact Nat.min_eq_left stored.within
  have joined := take_append_part (r.file aes) (Nat.le_add_right done (r.part done).length)
  have longer := congrArg List.length joined
  rw [List.length_append, front] at longer
  rcases storePart_cases aes sys (r.part done) s with ⟨failed, -⟩ | ⟨written, writtenIv, result⟩
  · rw [failed] at success
    cases success
  simp only [result] at success ⊢
  obtain rfl := Option.some.inj success
  cases encrypted : r.key.isSome with
  | false =>
      rw [decryptPart_plain started.toLoads piece (by simpa using encrypted)] at written writtenIv ⊢
      have wrote := writePart_at_end (s := s.counted (r.part done).length) ((r.file aes).take done)
        (by rw [front]; exact stored.tempFile)
        (by rw [started.tempFilePath]; exact stored.disk) written
      have closed : (s.counted (r.part done).length).tempIvFile = false :=
        stored.tempIvFile.trans encrypted
      rw [wrote, writeIv_closed (by exact closed)]
      refine ⟨piece, ⟨rfl, rfl, rfl, rfl, rfl, rfl⟩,
        ⟨{ started with }, sum, ?_, ?_, ?_, rfl, ?_, ?_⟩⟩
      · rw [← longer, front]
      · simp only [started.tempFilePath, Function.update_self, joined]
      · simp only [started.tempFilePath, Function.update_of_ne paths.temp_ne.symm]
        rfl
      · simp [encrypted]
      · simp [encrypted]
  | true =>
      rw [decryptPart_encrypted proper started.toLoads piece encrypted (stored.iv encrypted)]
        at written writtenIv ⊢
      have wrote := writePart_at_end ((r.file aes).take done)
        (by rw [front]; exact stored.tempFile)
        (by simp only [started.tempFilePath]; exact stored.disk) written
      rw [wrote] at writtenIv ⊢
      obtain ⟨file, front_iv, long, wroteIv⟩ := writeIv_whole
        (by exact stored.tempIvFile.trans encrypted) (by exact length_opened_iv aes encrypted _)
          writtenIv
      rw [wroteIv]
      refine ⟨piece, ⟨rfl, rfl, rfl, rfl, rfl, rfl⟩,
        ⟨{ started with }, sum, ?_, ?_, ?_, rfl, fun _ => rfl, fun _ => ?_⟩⟩
      · rw [← longer, front]
      · simp only [started.tempFilePath, started.ivPath encrypted,
          Function.update_of_ne paths.iv_ne_temp.symm, Function.update_self, joined]
      · simp only [started.tempFilePath, started.ivPath encrypted,
          Function.update_of_ne paths.iv_ne.symm, Function.update_of_ne paths.temp_ne.symm]
        rfl
      · exact ⟨file, by simp only [started.ivPath encrypted, Function.update_self], long, front_iv⟩

/-- The last part completes the file. -/
theorem Written.complete {size : ℕ} (written : Written aes r paths s t (done + size))
    (piece : r.Piece done size true) (tempIvFile : s.tempIvFile = r.key.isSome) :
    Complete aes r paths t where
  toStarted := written.toStarted
  tempFile := by rw [written.tempFile, Option.isSome_some]
  disk := by
    rw [written.disk, piece.ends rfl]
    exact congrArg some (List.take_of_length_le (by rw [Remote.length_file]; omega))
  tempIvFile := written.tempIvFile.trans tempIvFile

/-- Behind another part the operation goes on. -/
theorem Written.stored (proper : r.Proper) {size : ℕ}
    (written : Written aes r paths s t (done + size))
    (piece : r.Piece done size false) (stored : Stored aes r paths s done) :
    Stored aes r paths t (done + r.chunk) := by
  have left := piece.padding_left proper rfl
  have pos := Remote.chunk_pos (r := r)
  have whole : size = r.chunk := (piece.goes_on rfl).1
  rw [whole] at written left
  have within : done + r.chunk ≤ (r.file aes).length := by
    rw [Remote.length_file]
    omega
  refine { written.toStarted with
    downloaded := written.downloaded
    aligned := Nat.dvd_add stored.aligned (Nat.dvd_refl _)
    within
    tempFile := ?_
    disk := written.disk
    dest := ?_
    tempIvFile := written.tempIvFile.trans stored.tempIvFile
    iv := written.iv
    ivFile := fun encrypted => ?_ }
  · rw [written.tempFile, List.length_take, Nat.min_eq_left within]
  · rw [written.dest]
    exact stored.dest
  · obtain ⟨iv, found, spelled⟩ := written.ivFile encrypted
    exact ⟨iv, found, .inr ⟨by omega, spelled⟩⟩

end Mtproto.Files
