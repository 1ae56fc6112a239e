import Mtproto.Files.Ordered

/-!
# Starting on what is there

`start` goes on behind the whole parts that an earlier operation has stored, or begins anew.
-/

namespace Mtproto.Files

open Bytes Datacenter Lib FileLoadOperation

variable {aes : Aes} {sys : System} {r : Remote} {paths : Paths} {s t : FileLoadOperation}
  {done next : ℕ}

/-- What is on the disk of an encrypted file can be read. -/
def System.Reads (sys : System) (r : Remote) : Prop :=
  r.key.isSome → sys.succeeds .openIv = true ∧ sys.failure .readIv = none ∧
    sys.succeeds .seekTemp = true

theorem System.Faultless.reads (faultless : sys.Faultless) (r : Remote) : sys.Reads r :=
  fun _ => ⟨faultless.succeeds _, faultless _, faultless.succeeds _⟩

/-- The operation as the constructor leaves it, over a disk that is in order. -/
structure Idle (aes : Aes) (r : Remote) (paths : Paths)
    (s : FileLoadOperation) : Prop extends Loads r s where
  state : s.state = .idle
  named : ∀ name, s.fileName = some name → (s.prepared name).filePath = paths.file ∧
    (s.prepared name).tempFilePath = paths.temp ∧
      (r.key.isSome → (s.prepared name).tempFileIvPath = paths.iv)
  resumable : Resumable aes r paths s.disk
  downloaded : s.downloadedBytes = 0
  offset : s.nextDownloadOffset = 0
  requestInfos : s.requestInfos = []
  delayed : s.delayedRequestInfos = []
  tempFile : s.tempFile = none
  tempIvFile : s.tempIvFile = false
  iv : ∀ key iv, r.key = some (key, iv) → s.iv = iv
  quiet : s.onFinished = []
  sent : s.sent = []

/-- The iv file that belongs to the whole parts before `done`. -/
def IvBehind (aes : Aes) (r : Remote) (paths : Paths) (disk : Disk) (done : ℕ) : Prop :=
  r.key.isSome → if done = 0 then ∀ iv, disk paths.iv = some iv → iv = []
    else ∃ iv, disk paths.iv = some iv ∧ 32 ≤ iv.length ∧ iv.take 32 = (r.opened aes done).2

/-- On the way through `start`: the whole parts before `done` are found, if the temporary file is
open. -/
structure Opening (aes : Aes) (r : Remote) (paths : Paths) (s : FileLoadOperation) (done : ℕ) : Prop
    extends Started r paths s where
  state : s.state = .downloading
  downloaded : s.downloadedBytes = done
  offset : s.nextDownloadOffset = done
  aligned : r.chunk ∣ done
  within : done ≤ (r.file aes).length
  temp : s.tempFile = none ∧ done = 0 ∨ s.tempFile = some done ∧
    s.disk paths.temp = some ((r.file aes).take done)
  dest : r.size = 0 → ∀ found, s.disk paths.file = some found → found = r.file aes
  requestInfos : s.requestInfos = []
  delayed : s.delayedRequestInfos = []
  quiet : s.onFinished = []
  sent : s.sent = []

theorem asked_of_nil (sent : s.sent = []) (aligned : r.chunk ∣ next) : Asked r s next := by
  rw [Asked, sent]
  exact ⟨next, aligned, by simp, rfl⟩

theorem once_of_nil (sent : s.sent = []) : Once r s :=
  ⟨0, asked_of_nil sent (Nat.dvd_zero _), Nat.zero_le _, fun known => by
    have := Remote.chunk_pos (r := r)
    omega⟩

variable (aes) in
theorem opened_zero (proper : r.Proper) {key iv : List UInt8} (known : r.key = some (key, iv)) :
    (r.opened aes 0).2 = iv := by
  simp only [Remote.opened, known, List.take_zero, aesIgeEncrypt, List.length_nil, Nat.zero_div,
    Bool.false_eq_true, if_false, loadBlocks, Garble.decrypt]
  exact storeChain_loadChain (proper.iv key iv known)

variable (sys) in
/-- The temporary file is looked at. -/
theorem openTemp_opening (proper : r.Proper) (opening : Opening aes r paths s 0)
    (closed : s.tempFile = none)
    (resumable : Resumable aes r paths s.disk) :
    ∃ done, Opening aes r paths (s.openTemp sys) done ∧ (s.openTemp sys).disk = s.disk ∧
      (s.openTemp sys).iv = s.iv ∧ (s.openTemp sys).tempIvFile = s.tempIvFile ∧
      ((s.openTemp sys).tempFile.isSome → IvBehind aes r paths s.disk done) := by
  have anew : ∃ done, Opening aes r paths s done ∧ s.disk = s.disk ∧ s.iv = s.iv ∧
    s.tempIvFile = s.tempIvFile ∧
      (s.tempFile.isSome → IvBehind aes r paths s.disk done) :=
    ⟨0, opening, rfl, rfl, rfl, by simp [closed]⟩
  unfold openTemp
  split
  · exact anew
  · rename_i file found
    rw [opening.tempFilePath] at found
    split
    · obtain ⟨done, aligned, within, rfl, iv⟩ := resumable.temp file found
      have small := proper.small
      have length : ((r.file aes).take done).length = done := by
        rw [List.length_take]
        exact Nat.min_eq_left within
      have short := within
      rw [Remote.length_file] at short
      have whole : (int32 ((r.file aes).take done).length).tdiv s.currentDownloadChunkSize *
          s.currentDownloadChunkSize = done := by
        rw [length, int32_eq (by omega) (by omega), opening.chunk]
        exact Int.tdiv_mul_cancel (Int.natCast_dvd_natCast.2 aligned)
      generalize (int32 ((r.file aes).take done).length).tdiv s.currentDownloadChunkSize *
        s.currentDownloadChunkSize = counted at whole ⊢
      subst whole
      exact ⟨done, { opening with
        downloaded := rfl
        offset := rfl
        aligned
        within
        temp := .inr ⟨congrArg some length, found⟩ }, rfl, rfl, rfl, fun _ => iv⟩
    · exact anew

/-- The operation without the parts that were found. -/
theorem Opening.anew (opening : Opening aes r paths s done) (pos : s.tempFile = none ∨ done = 0) :
    Opening aes r paths { s with nextDownloadOffset := 0, downloadedBytes := 0 } 0 := by
  refine { opening with
    downloaded := rfl
    offset := rfl
    aligned := Nat.dvd_zero _
    within := Nat.zero_le _
    temp := ?_ }
  rcases pos with closed | rfl
  · exact .inl ⟨closed, rfl⟩
  · exact opening.temp

/-- The iv belongs to the parts that were found. -/
structure IvReady (aes : Aes) (r : Remote) (paths : Paths) (s : FileLoadOperation)
    (done : ℕ) : Prop where
  tempIvFile : s.tempIvFile = r.key.isSome
  iv : r.key.isSome → s.iv = (r.opened aes done).2
  ivFile : r.key.isSome → ∃ iv, s.disk paths.iv = some iv ∧
    (done = 0 ∧ iv = [] ∨ 0 < done ∧ 32 ≤ iv.length ∧ iv.take 32 = (r.opened aes done).2)

theorem readIv_absent (absent : s.tempFile = none ∨ s.disk s.tempFileIvPath = none) :
    s.readIv sys = s := by
  unfold readIv
  split
  · rename_i position file isOpen found
    rcases absent with closed | missing
    · rw [closed] at isOpen
      cases isOpen
    · rw [missing] at found
      cases found
  · rfl

theorem readIv_found {file : List UInt8} (isOpen : s.tempFile.isSome)
    (found : s.disk s.tempFileIvPath = some file)
    (opens : sys.succeeds .openIv = true) (whole : sys.failure .readIv = none) :
    s.readIv sys =
      { s with iv := splice s.iv 0 (file.take 32), tempIvFile := (file.take 32).length == 32 } := by
  unfold readIv
  split
  · rename_i position file' _ found'
    obtain rfl := Option.some.inj (found.symm.trans found')
    rw [if_pos opens]
    simp only [System.moved, whole]
  · rename_i absent
    obtain ⟨position, opened⟩ := Option.isSome_iff_exists.1 isOpen
    exact absurd found (absent position file opened)

/-- Reading the iv of the parts that were found; there is none where nothing was found. -/
theorem readIv_spec (proper : r.Proper) (reads : sys.Reads r) (opening : Opening aes r paths s done)
    (encrypted : r.key.isSome) (iv : ∀ key iv, r.key = some (key, iv) → s.iv = iv)
    (closed : s.tempIvFile = false)
    (behind : s.tempFile.isSome → IvBehind aes r paths s.disk done) :
    s.readIv sys = { s with iv := (s.readIv sys).iv, tempIvFile := (s.readIv sys).tempIvFile } ∧
      (s.readIv sys).iv = (r.opened aes done).2 ∧ ((s.readIv sys).tempIvFile = false → done = 0) ∧
      ((s.readIv sys).tempIvFile = true → IvReady aes r paths (s.readIv sys) done) := by
  obtain ⟨⟨key, iv₀⟩, known⟩ := Option.isSome_iff_exists.1 encrypted
  have start := opened_zero aes proper known
  have same := iv key iv₀ known
  have length : s.iv.length = 32 := by
    rw [same]
    exact proper.iv key iv₀ known
  have path := opening.ivPath encrypted
  obtain ⟨opens, whole, -⟩ := reads encrypted
  have unread (absent : s.tempFile = none ∨ s.disk s.tempFileIvPath = none) (first : done = 0) :
      s.readIv sys = { s with iv := (s.readIv sys).iv, tempIvFile := (s.readIv sys).tempIvFile } ∧
        (s.readIv sys).iv = (r.opened aes done).2 ∧ ((s.readIv sys).tempIvFile = false → done = 0) ∧
        ((s.readIv sys).tempIvFile = true → IvReady aes r paths (s.readIv sys) done) := by
    rw [readIv_absent absent]
    refine ⟨rfl, ?_, fun _ => first, fun isOpen => ?_⟩
    · rw [same, first, start]
    · rw [closed] at isOpen
      cases isOpen
  rcases opening.temp with ⟨none_open, first⟩ | ⟨position, -⟩
  · exact unread (.inl none_open) first
  have isOpen : s.tempFile.isSome := by rw [position, Option.isSome_some]
  have belongs := behind isOpen encrypted
  by_cases first : done = 0
  · rw [if_pos first] at belongs
    cases onDisk : s.disk paths.iv with
    | none => exact unread (.inr (by rw [path, onDisk])) first
    | some file =>
        obtain rfl := belongs file onDisk
        rw [readIv_found isOpen (by rw [path, onDisk]) opens whole, List.take_nil, splice_nil]
        exact ⟨rfl, by rw [same, first, start], fun _ => first, by simp⟩
  · rw [if_neg first] at belongs
    obtain ⟨file, onDisk, long, spelled⟩ := belongs
    have length' := length_opened_iv aes encrypted done
    rw [readIv_found isOpen (by rw [path, onDisk]) opens whole, spelled,
      splice_whole (by rw [length', length]), length']
    refine ⟨rfl, rfl, by simp, fun _ => ⟨encrypted.symm, fun _ => rfl, fun _ => ?_⟩⟩
    exact ⟨file, onDisk, .inr ⟨by omega, long, spelled⟩⟩

/-- The file of the iv is open behind this, or the operation fails. -/
theorem openIv_spec (proper : r.Proper) (reads : sys.Reads r) (opening : Opening aes r paths s done)
    (iv : ∀ key iv, r.key = some (key, iv) → s.iv = iv) (closed : s.tempIvFile = false)
    (behind : s.tempFile.isSome → IvBehind aes r paths s.disk done) :
    (s.openIv sys).2.onFinished = [] ∧ (s.openIv sys).2.sent = [] ∧
      ((s.openIv sys).1 = true → Opening aes r paths (s.openIv sys).2 done ∧
        IvReady aes r paths (s.openIv sys).2 done) := by
  unfold openIv
  cases encrypted : r.key.isSome with
  | false =>
      have noKey : s.key.isSome = false := by
        rw [opening.key, Option.isSome_map]
        exact encrypted
      rw [if_neg (by simp [noKey])]
      exact ⟨opening.quiet, opening.sent, fun _ =>
        ⟨opening, closed.trans encrypted.symm, by simp [encrypted], by simp [encrypted]⟩⟩
  | true =>
      have hasKey : s.key.isSome = true := by
        rw [opening.key, Option.isSome_map]
        exact encrypted
      rw [if_pos hasKey]
      obtain ⟨frame, ivs, first, ready⟩ :=
        readIv_spec proper reads opening encrypted iv closed behind
      have opening' : Opening aes r paths (s.readIv sys) done := by
        rw [frame]
        exact { opening with }
      simp only
      generalize s.readIv sys = t at ivs first ready opening' ⊢
      split
      · rename_i isOpen
        exact ⟨opening'.quiet, opening'.sent, fun _ => ⟨opening', ready isOpen⟩⟩
      · rename_i isClosed
        obtain rfl := first (by simpa using isClosed)
        have path := opening'.ivPath encrypted
        have temp : Function.update t.disk t.tempFileIvPath (some []) paths.temp =
            t.disk paths.temp := by
          rw [path, Function.update_of_ne paths.iv_ne_temp.symm]
        have dest : Function.update t.disk t.tempFileIvPath (some []) paths.file =
            t.disk paths.file := by
          rw [path, Function.update_of_ne paths.iv_ne.symm]
        have ivFile : Function.update t.disk t.tempFileIvPath (some []) paths.iv = some [] := by
          rw [path, Function.update_self]
        split
        · refine ⟨opening'.quiet, opening'.sent, fun _ => ⟨{ opening'.anew (.inr rfl) with
            temp := ?_
            dest := fun unknown found onDisk =>
              opening'.dest unknown found (dest.symm.trans onDisk) },
            ⟨encrypted.symm, fun _ => ivs, fun _ => ⟨[], ivFile, .inl ⟨rfl, rfl⟩⟩⟩⟩⟩
          rcases opening'.temp with ⟨shut, first⟩ | ⟨tempFile, disk⟩
          · exact .inl ⟨shut, first⟩
          · exact .inr ⟨tempFile, temp.trans disk⟩
        · exact ⟨opening'.quiet, opening'.sent, by simp⟩

theorem Opening.stored (opening : Opening aes r paths s done) (ready : IvReady aes r paths s done)
    (isOpen : s.tempFile.isSome) : Stored aes r paths s done := by
  rcases opening.temp with ⟨closed, -⟩ | ⟨tempFile, disk⟩
  · rw [closed] at isOpen
    cases isOpen
  · exact { opening.toStarted with
      downloaded := opening.downloaded
      aligned := opening.aligned
      within := opening.within
      tempFile
      disk
      dest := opening.dest
      tempIvFile := ready.tempIvFile
      iv := ready.iv
      ivFile := ready.ivFile }

/-- The way back to the whole parts; where there is none, nothing of them is kept. -/
theorem seekTemp_spec (reads : sys.Reads r) (opening : Opening aes r paths s done)
    (ready : IvReady aes r paths s done) :
    ∃ t done', Opening aes r paths t done' ∧ IvReady aes r paths t done' ∧
      (s.seekTemp sys).createTemp sys = t.createTemp sys := by
  unfold seekTemp
  split
  · rename_i sought
    rcases opening.temp with ⟨closed, -⟩ | ⟨tempFile, disk⟩
    · simp [closed] at sought
    split
    · refine ⟨{ s with tempFile := some s.downloadedBytes.toNat }, done,
        { opening with temp := .inr ⟨?_, disk⟩ },
        { ready with }, rfl⟩
      simp only [opening.downloaded, Int.toNat_natCast]
    · rename_i stays
      have plain : ¬ r.key.isSome := fun encrypted => stays (reads encrypted).2.2
      have closed :
          Opening aes r paths
            { s with tempFile := none, nextDownloadOffset := 0, downloadedBytes := 0 } 0 :=
        { opening with
          downloaded := rfl
          offset := rfl
          aligned := Nat.dvd_zero _
          within := Nat.zero_le _
          temp := .inl ⟨rfl, rfl⟩ }
      refine ⟨_, 0, closed, ⟨ready.tempIvFile, fun encrypted => absurd encrypted plain,
        fun encrypted => absurd encrypted plain⟩, ?_⟩
      simp only [createTemp]
  · exact ⟨s, done, opening, ready, rfl⟩

variable (sys) in
/-- The temporary file is open behind this, or the operation fails. -/
theorem createTemp_spec (opening : Opening aes r paths s done)
    (ready : IvReady aes r paths s done) :
    (s.createTemp sys).2.onFinished = [] ∧ (s.createTemp sys).2.sent = [] ∧
      ((s.createTemp sys).1 = true →
        ∃ done, Opening aes r paths (s.createTemp sys).2 done ∧
          Stored aes r paths (s.createTemp sys).2 done) := by
  unfold createTemp
  split
  · rename_i position isOpen
    exact ⟨opening.quiet, opening.sent, fun _ =>
      ⟨done, opening, opening.stored ready (by rw [isOpen, Option.isSome_some])⟩⟩
  · rename_i closed
    obtain rfl : done = 0 := by
      rcases opening.temp with ⟨-, first⟩ | ⟨tempFile, -⟩
      · exact first
      · rw [closed] at tempFile
        cases tempFile
    split
    · have empty : Function.update s.disk s.tempFilePath (some []) paths.temp =
          some ((r.file aes).take 0) := by
        rw [opening.tempFilePath, List.take_zero, Function.update_self]
      have dest : Function.update s.disk s.tempFilePath (some []) paths.file =
          s.disk paths.file := by
        rw [opening.tempFilePath, Function.update_of_ne paths.temp_ne.symm]
      have ivFile (encrypted : r.key.isSome) :
          Function.update s.disk s.tempFilePath (some []) paths.iv = s.disk paths.iv := by
        rw [opening.tempFilePath, Function.update_of_ne paths.iv_ne_temp]
      have opened : Opening aes r paths { s with
          nextDownloadOffset := 0
          downloadedBytes := 0
          tempFile := some 0
          disk := Function.update s.disk s.tempFilePath (some []) } 0 :=
        { opening with
          downloaded := rfl
          offset := rfl
          temp := .inr ⟨rfl, empty⟩
          dest := fun unknown found onDisk => opening.dest unknown found (dest.symm.trans onDisk) }
      refine ⟨opening.quiet, opening.sent, fun _ =>
        ⟨0, opened, opened.stored ⟨ready.tempIvFile, ready.iv, fun encrypted => ?_⟩ rfl⟩⟩
      obtain ⟨iv, found, spelled⟩ := ready.ivFile encrypted
      exact ⟨iv, (ivFile encrypted).trans found, spelled⟩
    · exact ⟨opening.quiet, opening.sent, by simp⟩

/-- The sizes and the paths are set. -/
theorem Idle.prepared (idle : Idle aes r paths s) {name : String} (named : s.fileName = some name) :
    Opening aes r paths (s.sized.prepared name) 0 := by
  obtain ⟨filePath, tempFilePath, ivPath⟩ := idle.named name named
  refine { idle.toLoads with
    chunk := ?_
    requests := ?_
    filePath
    tempFilePath
    ivPath
    state := rfl
    downloaded := idle.downloaded
    offset := idle.offset
    aligned := Nat.dvd_zero _
    within := Nat.zero_le _
    temp := .inl ⟨idle.tempFile, rfl⟩
    dest := idle.resumable.dest
    requestInfos := idle.requestInfos
    delayed := idle.delayed
    quiet := idle.quiet
    sent := idle.sent }
  · simp only [FileLoadOperation.prepared, sized, idle.total, Remote.chunk, downloadBigFileMinSize,
      downloadChunkBigSize, downloadChunkSize]
    split <;> split <;> first | rfl | omega
  · simp only [FileLoadOperation.prepared, sized, downloadMaxBigRequests, downloadMaxRequests,
      ite_self]

variable (sys) in
/-- A file of unknown size that is there is handed over as it is; any other one is loaded again. -/
theorem openDest_spec (opening : Opening aes r paths s 0) (tempFile : s.tempFile = none)
    (tempIvFile : s.tempIvFile = false) (resumable : Resumable aes r paths s.disk) :
    if (s.openDest sys).1 then Handed aes sys r paths ((s.openDest sys).2.onFinishLoadingFile sys)
    else ∃ disk, (s.openDest sys).2 = { s with disk } ∧ Resumable aes r paths disk ∧
      Opening aes r paths { s with disk } 0 := by
  have same : ∃ disk, s = { s with disk } ∧ Resumable aes r paths disk ∧
      Opening aes r paths { s with disk } 0 :=
    ⟨s.disk, rfl, resumable, opening⟩
  unfold openDest
  split
  · rename_i there
    obtain ⟨file, found⟩ := Option.isSome_iff_exists.1 there.2
    rw [opening.filePath] at found
    simp only
    split
    · rw [if_neg (by simp)]
      split
      · have others {path : String} (ne : path ≠ paths.file) :
            Function.update s.disk s.filePath none path = s.disk path := by
          rw [opening.filePath, Function.update_of_ne ne]
        have dest : Function.update s.disk s.filePath none paths.file = none := by
          rw [opening.filePath, Function.update_self]
        refine ⟨Function.update s.disk s.filePath none, rfl, ⟨fun _ found onDisk => ?_, ?_⟩,
          { opening with
          temp := .inl ⟨tempFile, rfl⟩
          dest := fun _ found onDisk => ?_ }⟩
        · cases dest.symm.trans onDisk
        · rw [others paths.temp_ne, others paths.iv_ne]
          exact resumable.temp
        · cases dest.symm.trans onDisk
      · exact same
    · rename_i unknown
      have size : r.size = 0 := by
        by_contra known
        have pos := Remote.total_pos_iff.2 known
        rw [opening.total] at unknown
        omega
      have dropped : dropIvFile sys { s with state := .finished } =
          { s with state := .finished } := by
        rw [dropIvFile, if_neg (by simp [tempIvFile])]
      have moved : moveTempFile sys { s with state := .finished } =
          { s with state := .finished } := by
        simp only [moveTempFile, tempFile]
      rw [if_pos rfl, onFinishLoadingFile, if_neg (by simp [opening.state]), dropped, moved]
      refine ⟨rfl, opening.requestInfos, ⟨paths.file, ?_, ?_⟩, once_of_nil opening.sent,
        fun _ => resumable⟩
      · simp only [opening.quiet, opening.filePath, List.nil_append]
      · rw [found, resumable.dest size file found]
  · rw [if_neg (by simp)]
    exact same

/-- Behind the first look at the disk the operation loads what is missing. -/
theorem Opening.loads (proper : r.Proper) (opening : Opening aes r paths s done)
    (stored : Stored aes r paths s done) :
    Sound aes sys r paths (if s.totalBytesCount ≠ 0 ∧ s.downloadedBytes = s.totalBytesCount then
      s.onFinishLoadingFile sys
      else s.startDownloadRequest) := by
  have within := opening.within
  rw [Remote.length_file] at within
  have empty : s.offsets = [] := by
    rw [offsets, opening.requestInfos, opening.delayed]
    rfl
  rw [opening.total, opening.downloaded]
  split
  · rename_i whole
    have known := Remote.total_pos_iff.1 (show 0 < r.total by omega)
    have length := proper.size known
    refine .handed (onFinishLoadingFile_handed opening.state { stored.toStarted with
      tempFile := by rw [stored.tempFile, Option.isSome_some]
      disk := ?_
      tempIvFile := stored.tempIvFile } opening.requestInfos opening.quiet
        (once_of_nil opening.sent))
    rw [stored.disk]
    exact congrArg some (List.take_of_length_le (by rw [Remote.length_file]; omega))
  · rename_i missing
    have pos := Remote.chunk_pos (r := r)
    obtain ⟨next, loading⟩ := startDownloadRequest_loading done proper opening.state stored
      ⟨opening.offset, opening.aligned, opening.aligned, le_rfl, fun _ => by omega, fun o => by
        rw [empty]
        refine ⟨by simp, ?_⟩
        rintro ⟨k, le, lt, -⟩
        omega, by simp [empty], by simp [opening.delayed],
          asked_of_nil opening.sent opening.aligned⟩
      (fun known => by
        have := proper.size known
        have := Remote.total_pos_iff.2 known
        omega)
      (fun _ => rfl) (by simp [opening.delayed]) (by simp [opening.requestInfos]) opening.quiet
    exact .loading done next loading

theorem sound_onFailedLoadingFile (reason : FileLoadFailReason) (quiet : s.onFinished = [])
    (once : Once r s) :
    Sound aes sys r paths (s.onFailedLoadingFile reason) := by
  obtain ⟨failed, unheard, sent⟩ := onFailedLoadingFile_failed reason s
  exact .failed failed (unheard.trans quiet) (once.of_sent sent)

/-- `start` leaves the operation in order. -/
theorem Idle.start (proper : r.Proper) (reads : sys.Reads r) (idle : Idle aes r paths s) :
    Sound aes sys r paths (s.start sys) := by
  have start : s.sized.fileName = s.fileName := rfl
  rw [FileLoadOperation.start, if_neg (by simp [idle.state])]
  simp only [start]
  cases named : s.fileName with
  | none => exact sound_onFailedLoadingFile _ idle.quiet (once_of_nil idle.sent)
  | some name =>
      have dest :=
        openDest_spec sys (idle.prepared named) idle.tempFile idle.tempIvFile idle.resumable
      simp only
      split
      · rename_i found
        rw [if_pos found] at dest
        exact .handed dest
      rename_i missing
      rw [if_neg missing] at dest
      obtain ⟨disk, same, resumable, opening⟩ := dest
      simp only [same]
      obtain ⟨done, opening, onDisk, iv, tempIvFile, behind⟩ :=
        openTemp_opening sys proper opening idle.tempFile resumable
      rw [← onDisk] at behind
      obtain ⟨quiet, sent, ready⟩ := openIv_spec proper reads opening
        (fun key iv' known => iv.trans (idle.iv key iv' known)) (tempIvFile.trans idle.tempIvFile)
          behind
      split
      · rename_i opens
        obtain ⟨opening, ready⟩ := ready opens
        obtain ⟨t, done, opening, ready, sought⟩ := seekTemp_spec reads opening ready
        rw [sought]
        obtain ⟨quiet, sent, created⟩ := createTemp_spec sys opening ready
        split
        · rename_i opens
          obtain ⟨done, opening, stored⟩ := created opens
          exact opening.loads proper stored
        · exact sound_onFailedLoadingFile _ quiet (once_of_nil sent)
      · exact sound_onFailedLoadingFile _ quiet (once_of_nil sent)

end Mtproto.Files
