import Mtproto.Datacenter.Aes
import Mtproto.Lib.Program
import Mtproto.Lib.Text

/-!
# Loading a file

`FileLoadOperation.cpp`: a file is asked for in parts of one size, several at a time, and the parts
are written to a temporary file in their order, whichever comes first.  An encrypted file is
decrypted on the way, and the iv behind the last part is kept in a file of its own, from which a
later operation goes on.  The size, the offsets and the counts are `int32_t`; the progress that is
reported is left out.
-/

namespace Mtproto.Files

open Bytes Datacenter

/-! ## The disk -/

/-- The files by their paths. -/
abbrev Disk := String → Option (List UInt8)

/-- The operations on files; a write by the count of bytes that is reached with it. -/
inductive FileOp
  | openDest
  | removeDest
  | openTemp
  | seekEnd
  | openIv
  | readIv
  | createIv
  | seekTemp
  | createTemp
  | writePart (downloadedBytes : ℤ)
  | writeIv (downloadedBytes : ℤ)
  | removeIv
  | rename
deriving DecidableEq, Repr

/-- What the system makes of the operations of one `FileLoadOperation`: a failing one may stop after
some bytes. -/
structure System where
  failure : FileOp → Option ℕ

def System.succeeds (sys : System) (op : FileOp) : Bool := (sys.failure op).isNone

/-- How many of the bytes are read or written. -/
def System.moved (sys : System) (op : FileOp) (count : ℕ) : ℕ :=
  match sys.failure op with
  | none => count
  | some stopped => min stopped count

/-- No operation on a file fails. -/
def System.Faultless (sys : System) : Prop := ∀ op, sys.failure op = none

theorem System.Faultless.succeeds {sys : System} (faultless : sys.Faultless) (op : FileOp) :
    sys.succeeds op = true := by
  rw [System.succeeds, faultless op]
  rfl

theorem System.Faultless.moved {sys : System} (faultless : sys.Faultless) (op : FileOp)
    (count : ℕ) : sys.moved op count = count := by
  rw [System.moved, faultless op]

/-! ## The operation -/

inductive FileLoadState
  | idle
  | downloading
  | failed
  | finished
deriving DecidableEq, Repr

inductive FileLoadFailReason
  | error
  | canceled
  | retryLimit
deriving DecidableEq, Repr

inductive InputFileLocationType
  | inputEncryptedFileLocation
  | inputFileLocation
  | inputDocumentFileLocation
deriving DecidableEq, Repr

/-- `InputFileLocation`; a field that the constructor leaves open is zero. -/
structure InputFileLocation where
  type : InputFileLocationType
  id : BitVec 64 := 0
  access_hash : BitVec 64 := 0
  version : BitVec 32 := 0
  volume_id : BitVec 64 := 0
  local_id : BitVec 32 := 0
  secret : BitVec 64 := 0
deriving DecidableEq, Repr

/-- `RequestInfo`; its token stands for the pointer too. -/
structure RequestInfo where
  requestToken : ℕ
  offset : ℤ
  bytes : Option (List UInt8) := none
deriving DecidableEq, Repr

/-- `TL_upload_getFile` with the arguments of `sendRequest`. -/
structure GetFile where
  location : InputFileLocation
  offset : ℤ
  limit : ℤ
  requestFlags : ℕ
  datacenterId : ℤ
  connectionType : ℕ
  immediate : Bool
deriving DecidableEq, Repr

/-- The operation, with the disk and what it has asked of the network and reported so far. -/
structure FileLoadOperation where
  datacenter_id : ℤ
  location : InputFileLocation
  state : FileLoadState := .idle
  downloadedBytes : ℤ := 0
  totalBytesCount : ℤ
  bytesCountPadding : ℤ := 0
  key : Option (List UInt8) := none
  iv : List UInt8 := []
  currentDownloadChunkSize : ℤ := 0
  currentMaxDownloadRequests : ℕ := 0
  requestsCount : ℕ := 0
  nextDownloadOffset : ℤ := 0
  requestInfos : List RequestInfo := []
  delayedRequestInfos : List RequestInfo := []
  ext : String
  filePath : String := ""
  tempFilePath : String := ""
  tempFileIvPath : String := ""
  /-- The position of the open file. -/
  tempFile : Option ℕ := none
  /-- Whether the file is open. -/
  tempIvFile : Bool := false
  destPath : String
  tempPath : String
  disk : Disk
  sent : List GetFile := []
  cancelled : List ℕ := []
  onFinished : List String := []
  onFailed : List FileLoadFailReason := []
  /-- How many times `cleanup` is scheduled. -/
  cleanups : ℕ := 0
  deleted : Bool := false

/-- A sum that is stored in an `int32_t`. -/
def int32 (n : ℤ) : ℤ := n.bmod (2 ^ 32)

def downloadChunkSize : ℤ := 1024 * 32
def downloadChunkBigSize : ℤ := 1024 * 128
def downloadMaxRequests : ℕ := 4
def downloadMaxBigRequests : ℕ := 4
def downloadBigFileMinSize : ℤ := 1024 * 1024

/-- The path of a directory with the stroke behind it. -/
def directory (path : String) : String :=
  if path != "" && !path.endsWith "/" then path ++ "/" else path

/-- The constructor; `key` holds `encKey` and `encIv`. -/
def newFileLoadOperation (disk : Disk) (dc_id : ℤ) (id volume_id access_hash : BitVec 64)
    (local_id : BitVec 32)
    (key : Option (List UInt8 × List UInt8)) (extension : String) (version : BitVec 32) (size : ℤ)
    (dest temp : String) :
    FileLoadOperation :=
  let location : InputFileLocation :=
    if key.isSome then { type := .inputEncryptedFileLocation, id, access_hash, volume_id, local_id }
    else if volume_id ≠ 0 then
      { type := .inputFileLocation, volume_id, local_id, secret := access_hash }
    else { type := .inputDocumentFileLocation, id, access_hash, version }
  let bytesCountPadding := if key.isSome ∧ size.tmod 16 ≠ 0 then 16 - size.tmod 16 else 0
  { datacenter_id := dc_id
    location
    totalBytesCount := int32 (size + bytesCountPadding)
    bytesCountPadding
    key := key.map Prod.fst
    iv := (key.map Prod.snd).getD []
    ext := extension
    destPath := directory dest
    tempPath := directory temp
    disk }

namespace FileLoadOperation

variable (aes : Aes) (sys : System)

/-- The network part of one round of `startDownloadRequest`. -/
def sendRequest (isLast : Bool) (s : FileLoadOperation) : FileLoadOperation :=
  { s with
    requestInfos :=
      s.requestInfos ++ [{ requestToken := s.requestsCount, offset := s.nextDownloadOffset }]
    nextDownloadOffset := int32 (s.nextDownloadOffset + s.currentDownloadChunkSize)
    requestsCount := s.requestsCount + 1
    sent := s.sent ++ [{
      location := s.location
      offset := s.nextDownloadOffset
      limit := s.currentDownloadChunkSize
      requestFlags := 2
      datacenterId := s.datacenter_id
      connectionType := if s.requestsCount % 2 = 0 then 2 else 2 ||| 1 <<< 16
      immediate := isLast }] }

/-- The loop of `startDownloadRequest`, with the rounds that are left. -/
def requestLoop : ℕ → FileLoadOperation → FileLoadOperation
  | 0, s => s
  | rounds + 1, s =>
      if 0 < s.totalBytesCount ∧ s.totalBytesCount ≤ s.nextDownloadOffset then s
      else
        requestLoop rounds (s.sendRequest (s.totalBytesCount ≤ 0 || rounds == 0 ||
          (0 < s.totalBytesCount && s.totalBytesCount ≤
            int32 (s.nextDownloadOffset + s.currentDownloadChunkSize))))

def startDownloadRequest (s : FileLoadOperation) : FileLoadOperation :=
  if s.state ≠ .downloading ∨ (0 < s.totalBytesCount ∧ s.totalBytesCount ≤ s.nextDownloadOffset) ∨
      s.currentMaxDownloadRequests ≤ s.requestInfos.length + s.delayedRequestInfos.length then s
  else
    requestLoop
      (if 0 < s.totalBytesCount then s.currentMaxDownloadRequests - s.requestInfos.length else 1) s

/-- `fclose` and `remove` of the file of the iv. -/
def dropIvFile (s : FileLoadOperation) : FileLoadOperation :=
  if s.tempIvFile then
    { s with
      tempIvFile := false
      disk := if sys.succeeds .removeIv then Function.update s.disk s.tempFileIvPath none else
        s.disk }
  else s

/-- `fclose` and `rename` of the temporary file. -/
def moveTempFile (s : FileLoadOperation) : FileLoadOperation :=
  match s.tempFile with
  | none => s
  | some _ =>
      if sys.succeeds .rename then
        { s with
          tempFile := none
          disk := Function.update (Function.update s.disk s.filePath (s.disk s.tempFilePath))
            s.tempFilePath none }
      else { s with tempFile := none, filePath := s.tempFilePath }

def onFinishLoadingFile (s : FileLoadOperation) : FileLoadOperation :=
  if s.state ≠ .downloading then s
  else
    let s := moveTempFile sys (dropIvFile sys { s with state := .finished })
    { s with onFinished := s.onFinished ++ [s.filePath], cleanups := s.cleanups + 1 }

/-- `onFailedLoadingFile`, which reports the same reason whatever it is given. -/
def onFailedLoadingFile (_reason : FileLoadFailReason) (s : FileLoadOperation) :
    FileLoadOperation :=
  if s.state = .failed then s
  else
    { s with
      state := .failed
      onFailed := s.onFailed ++ [.canceled]
      cleanups := s.cleanups + 1 }

/-- The tests that a part of the given size, counted in already, is the last one. -/
def finishedDownloading (s : FileLoadOperation) (currentBytesSize : ℤ) : Bool :=
  currentBytesSize ≠ s.currentDownloadChunkSize ||
    ((s.totalBytesCount = s.downloadedBytes || s.downloadedBytes.tmod s.currentDownloadChunkSize ≠
      0) &&
      (s.totalBytesCount ≤ 0 || s.totalBytesCount ≤ s.downloadedBytes))

/-- The bytes of a part as they go to the file, and the iv behind them. -/
def decryptPart (s : FileLoadOperation) (finishedDownloading : Bool) (bytes : List UInt8) :
    List UInt8 × FileLoadOperation :=
  match s.key with
  | none => (bytes, s)
  | some key =>
      let (bytes, iv) := aesIgeEncryption aes bytes key s.iv false true
      let bytes :=
        if finishedDownloading ∧ s.bytesCountPadding ≠ 0 then
          bytes.take (bytes.length - s.bytesCountPadding).toNat
        else bytes
      (bytes, { s with iv })

/-- `fwrite` to the temporary file, where it is open; whether all bytes are written. -/
def writePart (bytes : List UInt8) (s : FileLoadOperation) : Bool × FileLoadOperation :=
  match s.tempFile with
  | none => (true, s)
  | some position =>
      let count := sys.moved (.writePart s.downloadedBytes) bytes.length
      (count == bytes.length,
        { s with
          tempFile := some (position + count)
          disk := Function.update s.disk s.tempFilePath
            (some (splice ((s.disk s.tempFilePath).getD []) position (bytes.take count))) })

/-- `fseek` and `fwrite` to the file of the iv, where it is open; whether all bytes are written. -/
def writeIv (s : FileLoadOperation) : Bool × FileLoadOperation :=
  if s.tempIvFile then
    let count := sys.moved (.writeIv s.downloadedBytes) 32
    (count == 32,
      { s with
        disk := Function.update s.disk s.tempFileIvPath
          (some (splice ((s.disk s.tempFileIvPath).getD []) 0 (s.iv.take count))) })
  else (true, s)

/-- The operation with the bytes of a part counted in. -/
def counted (size : ℕ) (s : FileLoadOperation) : FileLoadOperation :=
  { s with downloadedBytes := int32 (s.downloadedBytes + size) }

/-- The bytes of a part on their way to the disk, up to the report of the progress: the operation
afterwards, and whether this was the last part, if nothing failed. -/
def storePart (bytes : List UInt8) (s : FileLoadOperation) : Option Bool × FileLoadOperation :=
  let s := s.counted bytes.length
  let last := s.finishedDownloading bytes.length
  let (bytes, s) := s.decryptPart aes last bytes
  let (written, s) := s.writePart sys bytes
  if written then
    let (written, s) := s.writeIv sys
    if written then (some last, s) else (none, s.onFailedLoadingFile .error)
  else (none, s.onFailedLoadingFile .error)

theorem delayedRequestInfos_onFailedLoadingFile (reason : FileLoadFailReason)
    (s : FileLoadOperation) :
    (s.onFailedLoadingFile reason).delayedRequestInfos = s.delayedRequestInfos := by
  unfold onFailedLoadingFile
  split <;> rfl

theorem delayedRequestInfos_storePart (bytes : List UInt8) (s : FileLoadOperation) :
    (storePart aes sys bytes s).2.delayedRequestInfos = s.delayedRequestInfos := by
  unfold storePart decryptPart writePart writeIv counted
  simp only
  repeat' split
  all_goals simp only [delayedRequestInfos_onFailedLoadingFile]

/-- `processRequestResult` from the test of the bytes on: a part whose turn it is, and behind it the
one that has been waiting for it. -/
def processPart (bytes : Option (List UInt8)) (s : FileLoadOperation) : FileLoadOperation :=
  match bytes with
  | none | some [] => s.onFinishLoadingFile sys
  | some (b :: bs) =>
      let stored := s.storePart aes sys (b :: bs)
      match stored.1 with
      | none => stored.2
      | some last =>
          let s :=
            match _waiting : stored.2.delayedRequestInfos.find? fun info =>
                stored.2.downloadedBytes == info.offset with
            | none => stored.2
            | some info =>
                processPart info.bytes
                  { stored.2 with delayedRequestInfos := stored.2.delayedRequestInfos.erase info }
          if last then s.onFinishLoadingFile sys else s.startDownloadRequest
termination_by s.delayedRequestInfos.length
decreasing_by
  have waits := List.mem_of_find?_eq_some _waiting
  rw [List.length_erase_of_mem waits, delayedRequestInfos_storePart] at *
  have := List.length_pos_of_mem waits
  omega

section ProcessPart

variable {aes : Aes} {sys : System} {bytes : List UInt8} {s t : FileLoadOperation} {last : Bool}

theorem processPart_empty : processPart aes sys (some []) s = s.onFinishLoadingFile sys := by
  rw [processPart]

theorem processPart_failed (some_bytes : bytes ≠ [])
    (stored : s.storePart aes sys bytes = (none, t)) :
    processPart aes sys (some bytes) s = t := by
  obtain ⟨b, bs, rfl⟩ := List.exists_cons_of_ne_nil some_bytes
  rw [processPart, stored]

theorem processPart_alone (some_bytes : bytes ≠ [])
    (stored : s.storePart aes sys bytes = (some last, t))
    (alone : t.delayedRequestInfos.find? (fun info => t.downloadedBytes == info.offset) = none) :
    processPart aes sys (some bytes) s =
      if last then t.onFinishLoadingFile sys else t.startDownloadRequest := by
  obtain ⟨b, bs, rfl⟩ := List.exists_cons_of_ne_nil some_bytes
  rw [processPart, stored]
  cases last <;> simp only [if_true, Bool.false_eq_true, if_false] <;> split
  · rfl
  · simp_all
  · rfl
  · simp_all

theorem processPart_followed {info : RequestInfo} (some_bytes : bytes ≠ [])
    (stored : s.storePart aes sys bytes = (some last, t))
    (follows : t.delayedRequestInfos.find? (fun info => t.downloadedBytes == info.offset) =
      some info) :
    processPart aes sys (some bytes) s =
      let rest := processPart aes sys info.bytes
        { t with delayedRequestInfos := t.delayedRequestInfos.erase info }
      if last then rest.onFinishLoadingFile sys else rest.startDownloadRequest := by
  obtain ⟨b, bs, rfl⟩ := List.exists_cons_of_ne_nil some_bytes
  rw [processPart, stored]
  cases last <;> simp only [if_true, Bool.false_eq_true, if_false] <;> split
  · simp_all
  · rename_i other found
    obtain rfl := Option.some.inj (found.symm.trans follows)
    rfl
  · simp_all
  · rename_i other found
    obtain rfl := Option.some.inj (found.symm.trans follows)
    rfl

end ProcessPart

/-- What an error does. -/
def processError (text : String) (s : FileLoadOperation) : FileLoadOperation :=
  let holds (word : String) := Text.occurs word.toList text.toList
  if holds "FILE_MIGRATE_" then s.onFailedLoadingFile .error
  else if holds "OFFSET_INVALID" then
    if s.downloadedBytes.tmod s.currentDownloadChunkSize = 0 then s.onFinishLoadingFile sys
    else s.onFailedLoadingFile .error
  else if holds "RETRY_LIMIT" then s.onFailedLoadingFile .retryLimit
  else s.onFailedLoadingFile .error

/-- `processRequestResult` for a request that is answered, where `next` is false. -/
def processRequestResult (info : RequestInfo) (error : Option String) (s : FileLoadOperation) :
    FileLoadOperation :=
  let s :=
    { s with
      requestInfos := s.requestInfos.eraseP fun p => p.requestToken == info.requestToken }
  match error with
  | some text => s.processError sys text
  | none =>
      if s.downloadedBytes ≠ info.offset then
        if s.state = .downloading then
          startDownloadRequest { s with delayedRequestInfos := s.delayedRequestInfos ++ [info] }
        else s
      else s.processPart aes sys info.bytes

/-! ## Starting -/

/-- The name of the files, or nothing where the location is refused. -/
def fileName (s : FileLoadOperation) : Option String :=
  if s.location.volume_id ≠ 0 ∧ s.location.local_id ≠ 0 then
    if s.datacenter_id = -2 ^ 31 ∨ s.location.volume_id.toInt = -2 ^ 31 ∨ s.datacenter_id = 0 then
      none
    else some (toString s.location.volume_id.toNat ++ "_" ++ toString s.location.local_id.toInt)
  else if s.datacenter_id = 0 ∨ s.location.id = 0 then none
  else some (toString s.datacenter_id ++ "_" ++ toString s.location.id.toNat)

/-- The file that is loaded already, if it is taken for the whole file: `ftell` is called before any
`fseek`. -/
def openDest (s : FileLoadOperation) : Bool × FileLoadOperation :=
  if sys.succeeds .openDest ∧ (s.disk s.filePath).isSome then
    let len : ℤ := 0
    if s.totalBytesCount ≠ 0 ∧ s.totalBytesCount ≠ len then
      (false,
        if sys.succeeds .removeDest then { s with disk := Function.update s.disk s.filePath none }
        else s)
    else (true, s)
  else (false, s)

/-- The temporary file of an earlier operation: whole parts count, and the position is its end. -/
def openTemp (s : FileLoadOperation) : FileLoadOperation :=
  match s.disk s.tempFilePath with
  | none => s
  | some file =>
      if sys.succeeds .openTemp ∧ sys.succeeds .seekEnd then
        let downloadedBytes :=
          (int32 file.length).tdiv s.currentDownloadChunkSize * s.currentDownloadChunkSize
        { s with
          tempFile := some file.length
          downloadedBytes
          nextDownloadOffset := downloadedBytes }
      else s

/-- The iv of an earlier operation. -/
def readIv (s : FileLoadOperation) : FileLoadOperation :=
  match s.tempFile, s.disk s.tempFileIvPath with
  | some _, some file =>
      if sys.succeeds .openIv then
        let read := file.take (sys.moved .readIv 32)
        { s with iv := splice s.iv 0 read, tempIvFile := read.length == 32 }
      else s
  | _, _ => s

/-- The file of the iv, for an encrypted file; whether the operation goes on. -/
def openIv (s : FileLoadOperation) : Bool × FileLoadOperation :=
  if s.key.isSome then
    let s := s.readIv sys
    if s.tempIvFile then (true, s)
    else
      let s := { s with nextDownloadOffset := 0, downloadedBytes := 0 }
      if sys.succeeds .createIv then
        (true, { s with
                 tempIvFile := true, disk := Function.update s.disk s.tempFileIvPath (some []) })
      else (false, s)
  else (true, s)

/-- The way back to the end of the whole parts. -/
def seekTemp (s : FileLoadOperation) : FileLoadOperation :=
  if s.tempFile.isSome ∧ s.downloadedBytes ≠ 0 then
    { s with tempFile := if sys.succeeds .seekTemp then some s.downloadedBytes.toNat else none }
  else s

/-- A new temporary file, if there is none; whether the operation goes on. -/
def createTemp (s : FileLoadOperation) : Bool × FileLoadOperation :=
  match s.tempFile with
  | some _ => (true, s)
  | none =>
      let s := { s with nextDownloadOffset := 0, downloadedBytes := 0 }
      if sys.succeeds .createTemp then
        (true, { s with
                 tempFile := some 0, disk := Function.update s.disk s.tempFilePath (some []) })
      else (false, s)

/-- The operation on its way, with the size and the number of its requests. -/
def sized (s : FileLoadOperation) : FileLoadOperation :=
  let big := downloadBigFileMinSize ≤ s.totalBytesCount
  { s with
    currentDownloadChunkSize := if big then downloadChunkBigSize else downloadChunkSize
    currentMaxDownloadRequests := if big then downloadMaxBigRequests else downloadMaxRequests
    state := .downloading }

/-- The operation with its paths. -/
def prepared (s : FileLoadOperation) (name : String) : FileLoadOperation :=
  { s with
    filePath := s.destPath ++ name ++ "." ++ s.ext
    tempFilePath := s.tempPath ++ name ++ ".temp"
    tempFileIvPath := if s.key.isSome then s.tempPath ++ name ++ ".iv" else s.tempFileIvPath }

/-- The task of `start`. -/
def start (s : FileLoadOperation) : FileLoadOperation :=
  if s.state ≠ .idle then s
  else
    let s := s.sized
    match s.fileName with
    | none => s.onFailedLoadingFile .error
    | some name =>
        let (found, s) := (s.prepared name).openDest sys
        if found then s.onFinishLoadingFile sys
        else
          let (ready, s) := (s.openTemp sys).openIv sys
          if ready then
            let (ready, s) := (s.seekTemp sys).createTemp sys
            if ready then
              if s.totalBytesCount ≠ 0 ∧ s.downloadedBytes = s.totalBytesCount then
                s.onFinishLoadingFile sys
              else s.startDownloadRequest
            else s.onFailedLoadingFile .error
          else s.onFailedLoadingFile .error

/-! ## The tasks -/

/-- The task of `cancel`. -/
def cancel (s : FileLoadOperation) : FileLoadOperation :=
  if s.state = .finished ∨ s.state = .failed then s else s.onFailedLoadingFile .canceled

/-- The task of `cleanup`, which destroys the operation. -/
def cleanup (s : FileLoadOperation) : FileLoadOperation :=
  { s with
    tempFile := none
    tempIvFile := false
    cancelled := s.cancelled ++ s.requestInfos.map RequestInfo.requestToken
    requestInfos := []
    delayedRequestInfos := []
    deleted := true }

/-- What the network thread runs: a task, or the answer to a request. -/
inductive Event
  | start
  | cancel
  | cleanup
  | answer (requestToken : ℕ) (response : Option (List UInt8)) (error : Option String)
deriving DecidableEq, Repr

/-- One event; only a request that is under way is answered, and nothing follows on the
destruction. -/
def step (e : Event) : Lib.Program FileLoadOperation Unit := fun s =>
  if s.deleted then none
  else
    match e with
    | .start => some ((), s.start sys)
    | .cancel => some ((), s.cancel)
    | .cleanup => if s.cleanups = 0 then none else some ((), s.cleanup)
    | .answer requestToken response error =>
        (s.requestInfos.find? fun info => info.requestToken == requestToken).map fun info =>
          ((), s.processRequestResult aes sys { info with bytes := response } error)

/-- All that an event can do. -/
theorem step_run {aes : Aes} {sys : System} {e : Event} {s t : FileLoadOperation}
    (run : step aes sys e s = some ((), t)) :
    ¬ s.deleted ∧
      (e = .start ∧ t = s.start sys ∨ e = .cancel ∧ t = s.cancel ∨ e = .cleanup ∧ t = s.cleanup ∨
        ∃ requestToken response error info, e = .answer requestToken response error ∧
          (s.requestInfos.find? fun info => info.requestToken == requestToken) = some info ∧
          t = s.processRequestResult aes sys { info with bytes := response } error) := by
  unfold step at run
  split at run
  · cases run
  rename_i live
  refine ⟨live, ?_⟩
  cases e with
  | start => exact .inl ⟨rfl, (Prod.mk.inj (Option.some.inj run)).2.symm⟩
  | cancel => exact .inr (.inl ⟨rfl, (Prod.mk.inj (Option.some.inj run)).2.symm⟩)
  | cleanup =>
      simp only at run
      split at run
      · cases run
      · exact .inr (.inr (.inl ⟨rfl, (Prod.mk.inj (Option.some.inj run)).2.symm⟩))
  | answer requestToken response error =>
      simp only [Option.map_eq_some_iff, Prod.mk.injEq, true_and] at run
      obtain ⟨info, found, rfl⟩ := run
      exact .inr (.inr (.inr ⟨requestToken, response, error, info, rfl, found, rfl⟩))

end FileLoadOperation

end Mtproto.Files
