import Mtproto.Files.Progress

/-!
# Going on from what is there

An operation that is cancelled leaves its whole parts on the disk, and the next one starts behind
them.  So any number of operations, each broken off wherever it may be, end in the file of the
server.
-/

namespace Mtproto.Files

open Bytes Datacenter Lib FileLoadOperation

variable {aes : Aes} {sys : System} {r : Remote} {paths : Paths} {s t : FileLoadOperation}
  {done next : ℕ} {disk : Disk}

/-- What is stored can be gone on from. -/
theorem Stored.resumable (stored : Stored aes r paths s done) : Resumable aes r paths s.disk where
  dest := stored.dest
  temp := fun found onDisk => by
    refine ⟨done, stored.aligned, stored.within, Option.some.inj (onDisk.symm.trans stored.disk),
      fun encrypted => ?_⟩
    obtain ⟨iv, onDisk, ⟨first, empty⟩ | ⟨pos, long, spelled⟩⟩ := stored.ivFile encrypted
    · rw [if_pos first]
      intro other found
      rw [← Option.some.inj (onDisk.symm.trans found), empty]
    · rw [if_neg (by omega)]
      exact ⟨iv, onDisk, long, spelled⟩

/-- An operation that has failed gets no answer before it is destroyed. -/
def Calm (r : Remote) (s : FileLoadOperation) (e : Event) : Prop :=
  Honest r s e ∧ ∀ requestToken response error, e = .answer requestToken response error →
    s.state = .downloading

/-! ## The disk behind every event -/

theorem disk_onFailedLoadingFile (reason : FileLoadFailReason) :
    (s.onFailedLoadingFile reason).disk = s.disk := by
  unfold onFailedLoadingFile
  split <;> rfl

theorem disk_cancel : s.cancel.disk = s.disk := by
  unfold cancel
  split
  · rfl
  · exact disk_onFailedLoadingFile _

theorem onFinishLoadingFile_ne_failed (alive : s.state ≠ .failed) :
    (s.onFinishLoadingFile sys).state ≠ .failed :=
  (onward_onFinishLoadingFile s).alive alive

variable (sys) in
/-- An error that ends the operation without a file leaves the disk alone. -/
theorem disk_processError (text : String) (state : s.state = .downloading)
    (failed : (s.processError sys text).state = .failed) :
    (s.processError sys text).disk = s.disk := by
  unfold processError at failed ⊢
  simp only at failed ⊢
  split
  · exact disk_onFailedLoadingFile _
  split
  · split
    · rename_i unnamed invalid whole
      rw [if_neg unnamed, if_pos invalid, if_pos whole] at failed
      exact absurd failed (onFinishLoadingFile_ne_failed (by simp [state]))
    · exact disk_onFailedLoadingFile _
  split <;> exact disk_onFailedLoadingFile _

/-- What is left of an operation between two events. -/
inductive Left (aes : Aes) (sys : System) (r : Remote) (paths : Paths)
    (s : FileLoadOperation) : Prop
  | idle : Idle aes r paths s → Left aes sys r paths s
  | sound : Sound aes sys r paths s → Resumable aes r paths s.disk → Left aes sys r paths s
  | deleted : s.deleted = true → Resumable aes r paths s.disk → Left aes sys r paths s

theorem Left.resumable (left : Left aes sys r paths s) : Resumable aes r paths s.disk := by
  rcases left with idle | ⟨-, resumable⟩ | ⟨-, resumable⟩
  · exact idle.resumable
  · exact resumable
  · exact resumable

/-- Only a failure asks for another look at the disk. -/
theorem Sound.left (faultless : sys.Faultless) (sound : Sound aes sys r paths s)
    (failed : s.state = .failed → Resumable aes r paths s.disk) : Left aes sys r paths s := by
  refine .sound sound ?_
  rcases sound with ⟨_, _, loading⟩ | ⟨state, -, -⟩ | handed
  · exact loading.stored.resumable
  · exact failed state
  · exact handed.left faultless

theorem Idle.left_start (proper : r.Proper) (faultless : sys.Faultless)
    (idle : Idle aes r paths s) :
    Left aes sys r paths (s.start sys) := by
  refine (idle.start proper (faultless.reads r)).left faultless fun failed => ?_
  by_cases refused : s.fileName = none
  · have start : s.sized.fileName = none := refused
    have same : s.start sys = s.sized.onFailedLoadingFile .error := by
      rw [FileLoadOperation.start, if_neg (by simp [idle.state])]
      simp only [start]
    rw [same, disk_onFailedLoadingFile]
    exact idle.resumable
  · exact absurd failed ((onward_start faultless idle.state refused).alive (by simp [idle.state]))

theorem Loading.left_answer (proper : r.Proper) (faultless : sys.Faultless)
    (loading : Loading aes r paths s done next)
    {requestToken : ℕ} {response : Option (List UInt8)} {error : Option String} {info : RequestInfo}
    (found : s.requestInfos.find? (fun info => info.requestToken == requestToken) = some info)
    (honest : Honest r s (.answer requestToken response error)) :
    Left aes sys r paths
      (s.processRequestResult aes sys { info with bytes := response } error) := by
  refine (loading.answer proper found honest).left faultless fun failed => ?_
  cases error with
  | none =>
      obtain rfl : info.requestToken = requestToken := by simpa using List.find?_some found
      have alive := (onward_processRequestResult aes faultless found response).2.1
      exact absurd failed (alive (by simp [loading.state]))
  | some text =>
      have same := disk_processError sys
        (s := { s with
          requestInfos := s.requestInfos.eraseP fun p => p.requestToken == info.requestToken })
        text loading.state failed
      have resumable := loading.stored.resumable
      rw [← same] at resumable
      exact resumable

/-- Every event leaves the disk in order. -/
theorem Left.step (proper : r.Proper) (faultless : sys.Faultless) {e : Event}
    (left : Left aes sys r paths s)
    (calm : Calm r s e) (run : FileLoadOperation.step aes sys e s = some ((), t)) :
    Left aes sys r paths t := by
  obtain ⟨live, ⟨rfl, rfl⟩ | ⟨rfl, rfl⟩ | ⟨rfl, rfl⟩ | ⟨requestToken, response, error, info, rfl,
    found, rfl⟩⟩ := step_run run
  · rcases left with idle | ⟨sound, resumable⟩ | ⟨gone, -⟩
    · exact idle.left_start proper faultless
    · rw [sound.start]
      exact .sound sound resumable
    · exact absurd gone live
  · have resumable := left.resumable
    rw [← disk_cancel (s := s)] at resumable
    rcases left with idle | ⟨sound, -⟩ | ⟨gone, -⟩
    · refine .sound ?_ resumable
      rw [FileLoadOperation.cancel, if_neg (by simp [idle.state])]
      exact sound_onFailedLoadingFile _ idle.quiet (once_of_nil idle.sent)
    · exact .sound sound.cancel resumable
    · exact absurd gone live
  · exact .deleted rfl left.resumable
  · have state := calm.2 requestToken response error rfl
    rcases left with idle | ⟨⟨_, _, loading⟩ | ⟨failed, -, -⟩ | handed, -⟩ | ⟨gone, -⟩
    · cases idle.state.symm.trans state
    · exact loading.left_answer proper faultless found calm.1
    · cases failed.symm.trans state
    · cases handed.state.symm.trans state
    · exact absurd gone live

/-! ## What is not asked for again -/

/-- The temporary file is there. -/
structure Finds (paths : Paths) (file : List UInt8) (s : FileLoadOperation) : Prop where
  filePath : s.filePath = paths.file
  tempFilePath : s.tempFilePath = paths.temp
  ivPath : s.key.isSome → s.tempFileIvPath = paths.iv
  disk : s.disk paths.temp = some file

section Finds

variable {file : List UInt8}

variable (sys) in
theorem Finds.openDest (finds : Finds paths file s) : Finds paths file (s.openDest sys).2 := by
  unfold FileLoadOperation.openDest
  simp only
  repeat' split
  all_goals first
    | exact finds
    | refine { finds with disk := ?_ }
      simp only [finds.filePath, Function.update_of_ne paths.temp_ne]
      exact finds.disk

theorem Finds.openTemp (faultless : sys.Faultless) (finds : Finds paths file s) :
    Finds paths file (s.openTemp sys) ∧ (s.openTemp sys).tempFile.isSome := by
  obtain ⟨filePath, tempFilePath, ivPath, disk⟩ := finds
  have opens : sys.succeeds .openTemp = true ∧ sys.succeeds .seekEnd = true :=
    ⟨faultless.succeeds _, faultless.succeeds _⟩
  unfold FileLoadOperation.openTemp
  split
  · rename_i missing
    rw [tempFilePath, disk] at missing
    cases missing
  · rw [if_pos opens]
    exact ⟨⟨filePath, tempFilePath, ivPath, disk⟩, rfl⟩

variable (sys) in
theorem Finds.openIv (finds : Finds paths file s) (isOpen : s.tempFile.isSome) :
    Finds paths file (s.openIv sys).2 ∧ (s.openIv sys).2.tempFile.isSome := by
  have read : Finds paths file (s.readIv sys) ∧ (s.readIv sys).tempFile.isSome ∧
      (s.readIv sys).key = s.key := by
    unfold readIv
    repeat' split
    all_goals exact ⟨{ finds with }, isOpen, rfl⟩
  unfold FileLoadOperation.openIv
  generalize s.readIv sys = t at read ⊢
  obtain ⟨finds', isOpen', key⟩ := read
  simp only
  split
  · rename_i encrypted
    rw [← key] at encrypted
    split
    · exact ⟨finds', isOpen'⟩
    · split
      · refine ⟨{ finds' with disk := ?_ }, isOpen'⟩
        simp only [finds'.ivPath encrypted, Function.update_of_ne paths.iv_ne_temp.symm]
        exact finds'.disk
      · exact ⟨{ finds' with }, isOpen'⟩
  · exact ⟨finds, isOpen⟩

theorem Finds.createTemp (faultless : sys.Faultless) (finds : Finds paths file s)
    (isOpen : s.tempFile.isSome) :
    Finds paths file ((s.seekTemp sys).createTemp sys).2 := by
  have sought : Finds paths file (s.seekTemp sys) ∧ (s.seekTemp sys).tempFile.isSome := by
    unfold seekTemp
    simp only [faultless.succeeds, if_true]
    split
    · exact ⟨{ finds with }, rfl⟩
    · exact ⟨finds, isOpen⟩
  generalize s.seekTemp sys = t at sought ⊢
  obtain ⟨position, opened⟩ := Option.isSome_iff_exists.1 sought.2
  unfold FileLoadOperation.createTemp
  simp only [opened]
  exact sought.1

theorem asks_requestLoop (rounds : ℕ) : ∀ s : FileLoadOperation, Asks s (requestLoop rounds s) := by
  induction rounds with
  | zero => exact fun s => rfl
  | succ rounds ih =>
      intro s
      rw [requestLoop]
      split
      · rfl
      · exact (asks_sendRequest _).trans (ih _)

theorem disk_startDownloadRequest (s : FileLoadOperation) :
    s.startDownloadRequest.disk = s.disk := by
  unfold startDownloadRequest
  split
  · rfl
  · rw [asks_requestLoop]

theorem onFinishLoadingFile_ne_downloading (s : FileLoadOperation) :
    (s.onFinishLoadingFile sys).state ≠ .downloading := by
  unfold onFinishLoadingFile
  split
  · exact ‹_›
  · unfold moveTempFile dropIvFile
    repeat' split
    all_goals simp

/-- What an earlier operation has stored is there still when the next one goes on. -/
theorem Idle.temp_start (faultless : sys.Faultless) (idle : Idle aes r paths s)
    (found : s.disk paths.temp = some file)
    (state : (s.start sys).state = .downloading) : (s.start sys).disk paths.temp = some file := by
  cases named : s.fileName with
  | none =>
      have start : s.sized.fileName = none := named
      rw [FileLoadOperation.start, if_neg (by simp [idle.state])] at state
      simp only [start] at state
      rw [(onFailedLoadingFile_failed .error s.sized).1] at state
      cases state
  | some name =>
      have start : s.sized.fileName = some name := named
      obtain ⟨filePath, tempFilePath, ivPath⟩ := idle.named name named
      have prepared : Finds paths file (s.sized.prepared name) := by
        refine ⟨filePath, tempFilePath, fun encrypted => ivPath ?_, found⟩
        rw [← Option.isSome_map (f := Prod.fst), ← idle.key]
        exact encrypted
      obtain ⟨opened, isOpen⟩ := (prepared.openDest sys).openTemp faultless
      obtain ⟨ivOpened, isOpen⟩ := opened.openIv sys isOpen
      have created := ivOpened.createTemp faultless isOpen
      obtain ⟨ready, -⟩ :=
        onward_openIv faultless (((s.sized.prepared name).openDest sys).2.openTemp sys)
      obtain ⟨ready', -⟩ :=
        onward_createTemp faultless
          ((((s.sized.prepared name).openDest sys).2.openTemp sys).openIv sys).2
      rw [FileLoadOperation.start, if_neg (by simp [idle.state])] at state ⊢
      simp only [start] at state ⊢
      by_cases there : ((s.sized.prepared name).openDest sys).1 = true
      · rw [if_pos there] at state
        exact absurd state (onFinishLoadingFile_ne_downloading _)
      rw [if_neg there, if_pos ready, if_pos ready'] at state ⊢
      split at state
      · exact absurd state (onFinishLoadingFile_ne_downloading _)
      · rename_i more
        rw [if_neg more, disk_startDownloadRequest]
        exact created.disk

end Finds

/-- Nothing before `low` has been asked for; an operation that is still to be started finds as much
of the file. -/
structure Behind (paths : Paths) (low : ℕ) (s : FileLoadOperation) : Prop where
  pending : s.state = .idle → ∃ file, s.disk paths.temp = some file ∧ file.length = low
  sent : ∀ request ∈ s.sent, (low : ℤ) ≤ request.offset
  underWay : s.requestInfos ≠ [] → s.sent ≠ []

theorem Idle.behind_start (proper : r.Proper) (faultless : sys.Faultless)
    (idle : Idle aes r paths s)
    {file : List UInt8} (found : s.disk paths.temp = some file) :
    Behind paths file.length (s.start sys) := by
  have started := (idle.start proper (faultless.reads r)).ne_idle
  by_cases refused : s.fileName = none
  · have start : s.sized.fileName = none := refused
    have same : s.start sys = s.sized.onFailedLoadingFile .error := by
      rw [FileLoadOperation.start, if_neg (by simp [idle.state])]
      simp only [start]
    have sent : (s.start sys).sent = [] := by
      rw [same, (onFailedLoadingFile_failed .error s.sized).2.2]
      exact idle.sent
    have requestInfos : (s.start sys).requestInfos = [] := by
      rw [same, onFailedLoadingFile, if_neg (by simp [sized])]
      exact idle.requestInfos
    exact ⟨fun idle =>
      absurd idle started, by simp [sent], fun some_left => absurd requestInfos some_left⟩
  obtain ⟨new, sent, requestInfos⟩ := (onward_start faultless idle.state refused).balanced
  rw [idle.sent, List.nil_append] at sent
  rw [idle.requestInfos, List.map_nil, List.nil_append] at requestInfos
  refine ⟨fun idle => absurd idle started, fun request mem => ?_, fun some_left empty =>
    some_left ?_⟩
  · have alive := (onward_start faultless idle.state refused).alive (by simp [idle.state])
    have offset : request.offset ∈ (s.start sys).requestInfos.map RequestInfo.offset := by
      rw [requestInfos, ← sent]
      exact List.mem_map_of_mem mem
    rcases idle.start proper (faultless.reads r) with ⟨done, next,
      loading⟩ | ⟨failed, -, -⟩ | handed
    · have there := idle.temp_start faultless found loading.state
      have same := Option.some.inj (there.symm.trans loading.stored.disk)
      have covers : request.offset ∈ (s.start sys).offsets := by
        rw [offsets, List.map_append]
        exact List.mem_append_left _ offset
      obtain ⟨k, le, -, -, spelled⟩ := (loading.covered.mem_iff _).1 covers
      have short := congrArg List.length same
      rw [List.length_take] at short
      omega
    · exact absurd failed alive
    · rw [handed.requestInfos] at offset
      cases offset
  · rw [empty] at sent
    rw [← sent, List.map_nil, List.map_eq_nil_iff] at requestInfos
    exact requestInfos

/-- Later requests come behind the first one. -/
theorem Behind.append {low : ℕ} {new : List GetFile} (behind : Behind paths low s)
    (some_sent : s.sent ≠ [])
    (sent : t.sent = s.sent ++ new) (once : Once r t) (started : t.state ≠ .idle) :
    Behind paths low t := by
  obtain ⟨-, ⟨first, -, -, offsets⟩, -⟩ := once
  obtain ⟨head, rest, spelled⟩ := List.exists_cons_of_ne_nil some_sent
  have low_le : low ≤ first := by
    have start := congrArg List.head? offsets
    have before := behind.sent head (by simp [spelled])
    rw [sent, spelled] at start
    simp only [List.cons_append, List.map_cons, List.head?_cons, List.length_cons,
      List.range_succ_eq_map, Nat.zero_mul, Nat.add_zero, Option.some.injEq] at start
    omega
  refine ⟨fun idle => absurd idle started, fun request mem => ?_, fun _ => by simp [sent, spelled]⟩
  have listed : request.offset ∈ t.sent.map GetFile.offset := List.mem_map_of_mem mem
  rw [offsets, List.mem_map] at listed
  obtain ⟨i, -, offset⟩ := listed
  rw [← offset]
  exact_mod_cast Nat.le_trans low_le (Nat.le_add_right _ _)

theorem Behind.silent {low : ℕ} (behind : Behind paths low s) (sent : t.sent = s.sent)
    (requestInfos : t.requestInfos ≠ [] → s.requestInfos ≠ [])
    (pending : t.state = .idle → s.state = .idle ∧ t.disk = s.disk) : Behind paths low t where
  pending := fun idle => by
    obtain ⟨idle, same⟩ := pending idle
    rw [same]
    exact behind.pending idle
  sent := by
    rw [sent]
    exact behind.sent
  underWay := fun some_left => by
    rw [sent]
    exact behind.underWay (requestInfos some_left)

theorem silent_onFailedLoadingFile (reason : FileLoadFailReason) (s : FileLoadOperation) :
    (s.onFailedLoadingFile reason).sent = s.sent ∧ (s.onFailedLoadingFile reason).requestInfos =
      s.requestInfos := by
  unfold onFailedLoadingFile
  split <;> exact ⟨rfl, rfl⟩

theorem silent_onFinishLoadingFile (s : FileLoadOperation) :
    (s.onFinishLoadingFile sys).sent = s.sent ∧ (s.onFinishLoadingFile sys).requestInfos =
      s.requestInfos := by
  unfold onFinishLoadingFile
  split
  · exact ⟨rfl, rfl⟩
  · unfold moveTempFile dropIvFile
    repeat' split
    all_goals exact ⟨rfl, rfl⟩

variable (sys) in
theorem silent_processError (text : String) (s : FileLoadOperation) :
    (s.processError sys text).sent = s.sent ∧ (s.processError sys text).requestInfos =
      s.requestInfos := by
  unfold processError
  simp only
  split
  · exact silent_onFailedLoadingFile _ s
  split
  · split
    · exact silent_onFinishLoadingFile s
    · exact silent_onFailedLoadingFile _ s
  split <;> exact silent_onFailedLoadingFile _ s

/-- An answer asks for what comes behind. -/
theorem Behind.answer (faultless : sys.Faultless) {low : ℕ} (behind : Behind paths low s)
    {info : RequestInfo}
    (found : s.requestInfos.find? (fun p => p.requestToken == info.requestToken) = some info)
    {response : Option (List UInt8)} {error : Option String}
    (once : Once r (s.processRequestResult aes sys { info with bytes := response } error))
    (started : (s.processRequestResult aes sys { info with bytes := response } error).state ≠
      .idle) :
    Behind paths low (s.processRequestResult aes sys { info with bytes := response } error) := by
  have some_left : s.requestInfos ≠ [] := by
    intro empty
    rw [empty] at found
    cases found
  cases error with
  | none =>
      obtain ⟨new, sent, -⟩ := (onward_processRequestResult aes faultless found response).1
      exact behind.append (behind.underWay some_left) sent once started
  | some text =>
      obtain ⟨sent, -⟩ := silent_processError sys text
        { s with
          requestInfos := s.requestInfos.eraseP fun p => p.requestToken == info.requestToken }
      exact behind.silent sent (fun _ => some_left) fun idle => absurd idle started

/-- Every event goes on behind what was stored at first. -/
theorem Kept.behind_step (proper : r.Proper) (faultless : sys.Faultless) {low : ℕ}
    (kept : Kept aes sys r paths s)
    (behind : Behind paths low s) {e : Event} (honest : Honest r s e)
    (run : FileLoadOperation.step aes sys e s = some ((), t)) : Behind paths low t := by
  have once := (kept.step proper (faultless.reads r) honest run).once
  obtain ⟨live, ⟨rfl, rfl⟩ | ⟨rfl, rfl⟩ | ⟨rfl, rfl⟩ | ⟨requestToken, response, error, info, rfl,
    found, rfl⟩⟩ := step_run run
  · rcases kept with idle | sound | ⟨gone, -, -⟩
    · obtain ⟨file, found, rfl⟩ := behind.pending idle.state
      exact idle.behind_start proper faultless found
    · rw [sound.start]
      exact behind
    · exact absurd gone live
  · unfold cancel
    split
    · exact behind
    · obtain ⟨sent, requestInfos⟩ := silent_onFailedLoadingFile .canceled s
      refine behind.silent sent (by rw [requestInfos]; exact id) fun idle => ?_
      rw [(onFailedLoadingFile_failed .canceled s).1] at idle
      cases idle
  · exact behind.silent rfl (fun some_left => absurd rfl some_left) fun idle => ⟨idle, rfl⟩
  · have started :
        (s.processRequestResult aes sys { info with bytes := response } error).state ≠ .idle := by
      rcases kept with idle | (⟨_, _, loading⟩ | ⟨failed, -, -⟩ | handed) | ⟨gone, -, -⟩
      · rw [idle.requestInfos] at found
        cases found
      · exact (loading.answer proper found honest).ne_idle
      · rw [(processRequestResult_of_failed aes sys _ error failed).1]
        simp
      · rw [handed.requestInfos] at found
        cases found
      · exact absurd gone live
    obtain rfl : info.requestToken = requestToken := by simpa using List.find?_some found
    exact behind.answer faultless found once started

/-! ## One operation after the other -/

/-- The disks that operations leave which follow each other, each broken off or not: the next one
begins when `cleanup` has closed the files of the last one. -/
inductive Downloads (aes : Aes) (sys : System) (place : Place r paths) : Disk → Prop
  | empty {disk : Disk} : disk paths.file = none → disk paths.temp = none →
      Downloads aes sys place disk
  | next {disk : Disk} {s : FileLoadOperation} : Downloads aes sys place disk →
      Program.Reaches (FileLoadOperation.step aes sys) (· = place.operation disk) (Calm r) s →
      s.deleted = true → Downloads aes sys place s.disk

theorem Place.left (place : Place r paths) (proper : r.Proper) (faultless : sys.Faultless)
    (resumable : Resumable aes r paths disk)
    (reached : Program.Reaches (FileLoadOperation.step aes sys) (· = place.operation disk)
      (Calm r) s) :
    Left aes sys r paths s := by
  refine reached.invariant ?_ fun s e t left calm run => left.step proper faultless calm run
  rintro s rfl
  exact .idle (place.idle proper resumable)

theorem Downloads.resumable (proper : r.Proper) (faultless : sys.Faultless) {place : Place r paths}
    (downloads : Downloads aes sys place disk) : Resumable aes r paths disk := by
  induction downloads with
  | empty noFile noTemp =>
      exact ⟨fun _ found onDisk => by simp [noFile] at onDisk, by simp [noTemp]⟩
  | next _ reached _ ih => exact (place.left proper faultless ih reached).resumable

/-- A part of a file that is not encrypted goes to the end of the temporary file. -/
theorem storePart_plain (faultless : sys.Faultless) {bytes file : List UInt8} {position : ℕ}
    (keyless : s.key = none)
    (opened : s.tempFile = some position) (noIv : s.tempIvFile = false)
    (found : s.disk s.tempFilePath = some file) :
    s.storePart aes sys bytes =
      (some ((s.counted bytes.length).finishedDownloading bytes.length),
        { s.counted bytes.length with
          tempFile := some (position + bytes.length)
          disk := Function.update s.disk s.tempFilePath (some (splice file position bytes)) }) := by
  simp [storePart, decryptPart, writePart, writeIv, counted, faultless.moved, keyless, opened, noIv,
    found]

theorem length_part_twoParts : (twoParts.part 0).length = 32768 := by
  rw [Remote.length_part, show twoParts.content.length = 40000 from List.length_replicate]
  decide

/-- The first part is stored, and the second one has not come. -/
def storedTwoParts : FileLoadOperation :=
  { startedTwoParts with
    requestInfos := [⟨1, 32768, none⟩]
    downloadedBytes := 32768
    tempFile := some 32768
    disk := Function.update startedTwoParts.disk "1_7.temp" (some (twoParts.part 0)) }

theorem storedTwoParts_eq :
    startedTwoParts.processRequestResult plainAes flawless ⟨0, 0, some (twoParts.part 0)⟩ none =
      storedTwoParts := by
  have length := length_part_twoParts
  have some_bytes : twoParts.part 0 ≠ [] := List.ne_nil_of_length_pos (by omega)
  have stored : FileLoadOperation.storePart plainAes flawless (twoParts.part 0)
      { startedTwoParts with requestInfos := [⟨1, 32768, none⟩] } = _ :=
    storePart_plain flawless_faultless rfl rfl rfl rfl
  have whole : splice [] 0 (twoParts.part 0) = twoParts.part 0 := by simp [splice]
  rw [length, whole] at stored
  change FileLoadOperation.processPart plainAes flawless (some (twoParts.part 0))
    { startedTwoParts with requestInfos := [⟨1, 32768, none⟩] } = _
  rw [FileLoadOperation.processPart_alone some_bytes stored rfl]
  rfl

end Mtproto.Files
