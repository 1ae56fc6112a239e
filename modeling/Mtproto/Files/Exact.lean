import Mtproto.Files.Opening

/-!
# The file that is handed over

From a disk that an earlier operation left in order, with answers in any order, with any errors, and
whatever fails on the disk behind the first look at it, the file that is reported is the file of the
server.
-/

namespace Mtproto.Files

open Bytes Datacenter Lib FileLoadOperation

variable {aes : Aes} {sys : System} {r : Remote} {paths : Paths} {s t : FileLoadOperation}
  {low next done : ℕ}

/-! ## Answers -/

/-- The server sends the part that is asked for; it calls an offset invalid only beyond the end. -/
def Honest (r : Remote) (s : FileLoadOperation) : Event → Prop
  | .answer requestToken response error => ∀ info ∈ s.requestInfos, info.requestToken =
      requestToken →
      match error with
      | none => response = some (r.part info.offset.toNat)
      | some text => Text.occurs "OFFSET_INVALID".toList text.toList →
          (r.content.length : ℤ) ≤ info.offset
  | _ => True

theorem perm_of_find? {α : Type} {p : α → Bool} {a : α} :
    ∀ {as : List α}, as.find? p = some a → as.Perm (a :: as.eraseP p)
  | b :: bs, found => by
      by_cases hb : p b = true
      · rw [List.find?_cons_of_pos hb] at found
        obtain rfl := Option.some.inj found
        rw [List.eraseP_cons_of_pos hb]
      · rw [List.find?_cons_of_neg hb] at found
        rw [List.eraseP_cons_of_neg hb]
        exact ((perm_of_find? found).cons b).trans (List.Perm.swap a b _)

/-- A part that is not the next one waits. -/
theorem Loading.waits (proper : r.Proper) (loading : Loading aes r paths s done next)
    {info : RequestInfo}
    {infos : List RequestInfo} (perm : s.requestInfos.Perm (info :: infos))
    (offset : info.offset ≠ done)
    {bytes : Option (List UInt8)} (honest : bytes = some (r.part info.offset.toNat)) :
    Sound aes sys r paths (startDownloadRequest { s with
      requestInfos := infos
      delayedRequestInfos := s.delayedRequestInfos ++ [{ info with bytes }] }) := by
  obtain ⟨k, le, lt, dvd, same⟩ := (loading.covered.mem_iff info.offset).1
    (List.mem_map_of_mem (List.mem_append_left _ (perm.mem_iff.2 List.mem_cons_self)))
  have beyond := add_le_of_dvd lt dvd loading.covered.next_aligned
  have known : r.size ≠ 0 := fun unknown => by
    have := loading.single unknown
    have := add_le_of_dvd (show done < k by omega) loading.covered.low_aligned dvd
    omega
  have within := loading.covered.within known
  have offsets : s.offsets.Perm (({ s with
      requestInfos := infos
      delayedRequestInfos := s.delayedRequestInfos ++ [{ info with bytes }] } :
        FileLoadOperation)).offsets := by
    have moved :
        (s.requestInfos ++ s.delayedRequestInfos).Perm ((infos ++ s.delayedRequestInfos) ++
          [info]) :=
      (perm.append_right _).trans (List.perm_append_singleton info _).symm
    have mapped := moved.map RequestInfo.offset
    simp only [FileLoadOperation.offsets, List.map_append, List.map_cons, List.map_nil,
      List.append_assoc] at mapped ⊢
    exact mapped
  have length := perm.length_eq
  rw [List.length_cons] at length
  have few := loading.few
  obtain ⟨next', asked⟩ := startDownloadRequest_loading next proper loading.state
    (s := { s with
      requestInfos := infos
      delayedRequestInfos := s.delayedRequestInfos ++ [{ info with bytes }] })
    { loading.stored with }
    ⟨loading.covered.offset, loading.covered.low_aligned, loading.covered.next_aligned,
      loading.covered.low_le,
      loading.covered.within, fun o => by rw [← offsets.mem_iff, loading.covered.mem_iff],
      offsets.nodup_iff.1 loading.covered.nodup, fun other mem => by
        rcases List.mem_append.1 mem with mem | mem
        · exact loading.covered.waiting other mem
        · rw [List.mem_singleton.1 mem]
          exact honest, loading.covered.asked⟩
    (fun _ => by omega) (fun unknown => absurd unknown known)
    (fun other mem => by
      rcases List.mem_append.1 mem with mem | mem
      · exact loading.head other mem
      · rw [List.mem_singleton.1 mem]
        exact offset)
    (by show infos.length ≤ 4; omega) loading.quiet
  exact .loading done next' asked

/-- The next part has its turn. -/
theorem Loading.turn (loading : Loading aes r paths s done next) {info : RequestInfo}
    {infos : List RequestInfo}
    (perm : s.requestInfos.Perm (info :: infos)) (offset : info.offset = done) :
    Turn aes r paths { s with requestInfos := infos } done next := by
  have length := perm.length_eq
  rw [List.length_cons] at length
  have few := loading.few
  have offsets := (perm.append_right s.delayedRequestInfos).map RequestInfo.offset
  rw [List.cons_append, List.map_cons, offset] at offsets
  exact ⟨loading.state, { loading.stored with },
    loading.covered.turn loading.more offsets rfl (fun _ mem => mem) rfl,
    loading.single, by show infos.length ≤ 4; omega, loading.quiet⟩

/-- An error ends the operation, with the file only where the offset is beyond it. -/
theorem Loading.error (loading : Loading aes r paths s done next) {info : RequestInfo}
    {infos : List RequestInfo}
    (perm : s.requestInfos.Perm (info :: infos)) {text : String}
    (honest : Text.occurs "OFFSET_INVALID".toList text.toList →
      (r.content.length : ℤ) ≤ info.offset) :
    Sound aes sys r paths (processError sys text { s with requestInfos := infos }) := by
  have quiet : ({ s with requestInfos := infos } : FileLoadOperation).onFinished = [] :=
    loading.quiet
  have once : Once r { s with requestInfos := infos } := loading.once.of_sent rfl
  simp only [processError]
  split
  · exact sound_onFailedLoadingFile _ quiet once
  split
  · rename_i invalid
    have beyond := honest invalid
    obtain ⟨k, le, lt, dvd, same⟩ := (loading.covered.mem_iff info.offset).1
      (List.mem_map_of_mem (List.mem_append_left _ (perm.mem_iff.2 List.mem_cons_self)))
    have after := add_le_of_dvd lt dvd loading.covered.next_aligned
    have unknown : r.size = 0 := by
      by_contra known
      have := loading.covered.within known
      omega
    have first : k = done := by
      by_contra ne
      have := loading.single unknown
      have := add_le_of_dvd (show done < k by omega) loading.covered.low_aligned dvd
      omega
    subst first
    have turn := loading.turn perm same
    rw [if_pos]
    · exact .handed (turn.ends (by omega))
    · rw [turn.stored.downloaded, turn.stored.chunk]
      exact dvd_tmod dvd
  split
  · exact sound_onFailedLoadingFile _ quiet once
  · exact sound_onFailedLoadingFile _ quiet once

/-- Whatever the answer, the operation stays in order. -/
theorem Loading.answer (proper : r.Proper) (loading : Loading aes r paths s done next)
    {requestToken : ℕ}
    {response : Option (List UInt8)} {error : Option String} {info : RequestInfo}
    (found : s.requestInfos.find? (fun info => info.requestToken == requestToken) = some info)
    (honest : Honest r s (.answer requestToken response error)) :
    Sound aes sys r paths
      (s.processRequestResult aes sys { info with bytes := response } error) := by
  have token : info.requestToken = requestToken := by simpa using List.find?_some found
  have told := honest info (List.mem_of_find?_eq_some found) token
  have perm := perm_of_find? found
  rw [← token] at perm
  unfold processRequestResult
  cases error with
  | some text => exact loading.error perm told
  | none =>
      simp only at told ⊢
      split
      · rename_i later
        rw [if_pos loading.state]
        exact loading.waits proper perm (fun same =>
          later (loading.stored.downloaded.trans same.symm)) told
      · rename_i now
        have offset : info.offset = done :=
          (Decidable.not_not.1 now).symm.trans loading.stored.downloaded
        rw [told, offset, Int.toNat_natCast]
        exact processPart_sound proper _ rfl (loading.turn perm offset)

/-! ## Late answers -/

theorem onFinishLoadingFile_of_ne (state : s.state ≠ .downloading) :
    s.onFinishLoadingFile sys = s := by
  rw [onFinishLoadingFile, if_pos state]

theorem onFailedLoadingFile_of_failed (reason : FileLoadFailReason) (state : s.state = .failed) :
    s.onFailedLoadingFile reason = s := by
  rw [onFailedLoadingFile, if_pos state]

variable (aes sys) in
theorem storePart_failed (bytes : List UInt8) (state : s.state = .failed) :
    (s.storePart aes sys bytes).2.state = .failed ∧ (s.storePart aes sys bytes).2.onFinished =
      s.onFinished ∧
      (s.storePart aes sys bytes).2.sent = s.sent := by
  rcases storePart_cases aes sys bytes s with ⟨-, failed⟩ | ⟨-, -, result⟩
  · exact failed
  · have unasked := unasked_storePart result
    rw [result]
    exact ⟨unasked.state.trans state, unasked.onFinished, unasked.sent⟩

/-- An operation that has failed reports nothing more, whatever part comes late.  By induction on
how many wait. -/
theorem processPart_of_failed (waiting : ℕ) :
    ∀ {s : FileLoadOperation} (bytes : Option (List UInt8)),
    s.delayedRequestInfos.length = waiting → s.state = .failed →
      (s.processPart aes sys bytes).state = .failed ∧ (s.processPart aes sys bytes).onFinished =
        s.onFinished ∧
        (s.processPart aes sys bytes).sent = s.sent := by
  induction waiting using Nat.strong_induction_on with
  | h waiting ih =>
      intro s bytes length state
      have closing {t : FileLoadOperation} (last : Bool) (failed : t.state = .failed) :
          (if last then t.onFinishLoadingFile sys else t.startDownloadRequest) = t := by
        rw [onFinishLoadingFile_of_ne (by simp [failed]),
          startDownloadRequest_of_ne (by simp [failed]), ite_self]
      rcases bytes with - | bytes
      · rw [processPart, onFinishLoadingFile_of_ne (by simp [state])]
        exact ⟨state, rfl, rfl⟩
      by_cases empty : bytes = []
      · rw [empty, processPart_empty, onFinishLoadingFile_of_ne (by simp [state])]
        exact ⟨state, rfl, rfl⟩
      have kept := storePart_failed aes sys bytes state
      have delayed := delayedRequestInfos_storePart aes sys bytes s
      cases stored : s.storePart aes sys bytes with
      | mk result t =>
          rw [stored] at kept delayed
          simp only at kept delayed
          cases result with
          | none =>
              rw [processPart_failed empty stored]
              exact kept
          | some last =>
              cases follows : t.delayedRequestInfos.find? fun info =>
                t.downloadedBytes == info.offset with
              | none =>
                  rw [processPart_alone empty stored follows, closing last kept.1]
                  exact kept
              | some info =>
                  have mem := List.mem_of_find?_eq_some follows
                  have fewer : (t.delayedRequestInfos.erase info).length < waiting := by
                    rw [List.length_erase_of_mem mem, ← length, ← delayed]
                    have := List.length_pos_of_mem mem
                    omega
                  obtain ⟨failed, quiet, sent⟩ := ih _ fewer (s := { t with
                    delayedRequestInfos := t.delayedRequestInfos.erase info }) info.bytes rfl kept.1
                  rw [processPart_followed empty stored follows]
                  simp only
                  rw [closing last failed]
                  exact ⟨failed, quiet.trans kept.2.1, sent.trans kept.2.2⟩

variable (aes sys) in
theorem processRequestResult_of_failed (info : RequestInfo) (error : Option String)
    (state : s.state = .failed) :
    (s.processRequestResult aes sys info error).state = .failed ∧
      (s.processRequestResult aes sys info error).onFinished = s.onFinished ∧
      (s.processRequestResult aes sys info error).sent = s.sent := by
  unfold processRequestResult
  cases error with
  | some text =>
      simp only [processError]
      split
      · rw [onFailedLoadingFile_of_failed _ (by exact state)]
        exact ⟨state, rfl, rfl⟩
      split
      · split
        · rw [onFinishLoadingFile_of_ne (by simp [state])]
          exact ⟨state, rfl, rfl⟩
        · rw [onFailedLoadingFile_of_failed _ (by exact state)]
          exact ⟨state, rfl, rfl⟩
      split <;> rw [onFailedLoadingFile_of_failed _ (by exact state)] <;> exact ⟨state, rfl, rfl⟩
  | none =>
      simp only
      split
      · rw [if_neg (by simp [state])]
        exact ⟨state, rfl, rfl⟩
      · exact processPart_of_failed _ info.bytes rfl (by exact state)

/-! ## Whole runs -/

/-- What holds of an operation between two events. -/
inductive Kept (aes : Aes) (sys : System) (r : Remote) (paths : Paths)
    (s : FileLoadOperation) : Prop
  | idle : Idle aes r paths s → Kept aes sys r paths s
  | sound : Sound aes sys r paths s → Kept aes sys r paths s
  | deleted : s.deleted = true →
      (s.onFinished = [] ∨ ∃ path, s.onFinished = [path] ∧ s.disk path = some (r.file aes)) →
      Once r s → Kept aes sys r paths s

theorem Kept.reported (kept : Kept aes sys r paths s) :
    s.onFinished = [] ∨ ∃ path, s.onFinished = [path] ∧ s.disk path = some (r.file aes) := by
  rcases kept with idle | (⟨_, _, loading⟩ | ⟨-, quiet, -⟩ | handed) | ⟨-, reported, -⟩
  · exact .inl idle.quiet
  · exact .inl loading.quiet
  · exact .inl quiet
  · exact .inr handed.path
  · exact reported

theorem Kept.once (kept : Kept aes sys r paths s) : Once r s := by
  rcases kept with idle | (⟨_, _, loading⟩ | ⟨-, -, once⟩ | handed) | ⟨-, -, once⟩
  · exact once_of_nil idle.sent
  · exact loading.once
  · exact once
  · exact handed.once
  · exact once

theorem Sound.ne_idle (sound : Sound aes sys r paths s) : s.state ≠ .idle := by
  rcases sound with ⟨_, _, loading⟩ | ⟨state, -, -⟩ | handed
  · simp [loading.state]
  · simp [state]
  · simp [handed.state]

theorem Sound.start (sound : Sound aes sys r paths s) : s.start sys = s := by
  rw [FileLoadOperation.start, if_pos sound.ne_idle]

theorem Sound.cancel (sound : Sound aes sys r paths s) : Sound aes sys r paths s.cancel := by
  unfold FileLoadOperation.cancel
  split
  · exact sound
  · rename_i goes_on
    rcases sound with ⟨_, _, loading⟩ | ⟨state, -, -⟩ | handed
    · exact sound_onFailedLoadingFile _ loading.quiet loading.once
    · exact absurd (.inr state) goes_on
    · exact absurd (.inl handed.state) goes_on

/-- Every event keeps this. -/
theorem Kept.step (proper : r.Proper) (reads : sys.Reads r) {e : Event}
    (kept : Kept aes sys r paths s)
    (honest : Honest r s e) (run : FileLoadOperation.step aes sys e s = some ((), t)) :
    Kept aes sys r paths t := by
  obtain ⟨live, ⟨rfl, rfl⟩ | ⟨rfl, rfl⟩ | ⟨rfl, rfl⟩ | ⟨requestToken, response, error, info, rfl,
    found, rfl⟩⟩ := step_run run
  · rcases kept with idle | sound | ⟨gone, -, -⟩
    · exact .sound (idle.start proper reads)
    · rw [sound.start]
      exact .sound sound
    · exact absurd gone live
  · rcases kept with idle | sound | ⟨gone, -, -⟩
    · rw [FileLoadOperation.cancel, if_neg (by simp [idle.state])]
      exact .sound (sound_onFailedLoadingFile _ idle.quiet (once_of_nil idle.sent))
    · exact .sound sound.cancel
    · exact absurd gone live
  · exact .deleted rfl kept.reported kept.once
  · have none_left (empty : s.requestInfos = []) : False := by
      rw [empty] at found
      cases found
    rcases kept with idle | (⟨_, _, loading⟩ | ⟨state, quiet, once⟩ | handed) | ⟨gone, -, -⟩
    · exact (none_left idle.requestInfos).elim
    · exact .sound (loading.answer proper found honest)
    · obtain ⟨failed, unheard, sent⟩ := processRequestResult_of_failed aes sys
        { info with bytes := response } error state
      exact .sound (.failed failed (unheard.trans quiet) (once.of_sent sent))
    · exact (none_left handed.requestInfos).elim
    · exact absurd gone live

/-- The other arguments of the constructor, which lead to these paths. -/
structure Place (r : Remote) (paths : Paths) where
  dc_id : ℤ
  id : BitVec 64
  volume_id : BitVec 64
  access_hash : BitVec 64
  local_id : BitVec 32
  extension : String
  version : BitVec 32
  dest : String
  temp : String
  named : ∀ disk name,
    let s := newFileLoadOperation disk dc_id id volume_id access_hash local_id r.key extension
      version r.size dest temp
    s.fileName = some name → (s.prepared name).filePath = paths.file ∧
      (s.prepared name).tempFilePath = paths.temp ∧
      (r.key.isSome → (s.prepared name).tempFileIvPath = paths.iv)

/-- The operation that the constructor makes. -/
def Place.operation (place : Place r paths) (disk : Disk) : FileLoadOperation :=
  newFileLoadOperation disk place.dc_id place.id place.volume_id place.access_hash place.local_id
    r.key place.extension
    place.version r.size place.dest place.temp

/-- The constructor leaves an operation to be started. -/
theorem Place.idle (place : Place r paths) (proper : r.Proper) {disk : Disk}
    (resumable : Resumable aes r paths disk) :
    Idle aes r paths (place.operation disk) := by
  have small := proper.small
  have padding :
      (if r.key.isSome ∧ (r.size : ℤ).tmod 16 ≠ 0 then 16 - (r.size : ℤ).tmod 16 else 0) =
      r.padding := by
    have rest : (r.size : ℤ).tmod 16 = (r.size % 16 : ℕ) := by
      rw [Int.tmod_eq_emod_of_nonneg (by omega)]
      rfl
    rw [Remote.padding, rest]
    by_cases padded : r.key.isSome ∧ r.size % 16 ≠ 0
    · rw [if_pos ⟨padded.1, by omega⟩, if_pos padded]
      omega
    · rw [if_neg (fun both => padded ⟨both.1, by omega⟩), if_neg padded]
      rfl
  have total : int32 (r.size + r.padding) = r.total := by
    have size := proper.size
    have unknown := Remote.padding_eq_zero (r := r)
    rw [Remote.total] at size ⊢
    rw [int32_eq (by omega) (by omega)]
    omega
  exact {
    total := by simp only [operation, newFileLoadOperation, padding, total]
    padding := by simp only [operation, newFileLoadOperation, padding]
    key := rfl
    state := rfl
    named := place.named disk
    resumable
    downloaded := rfl
    offset := rfl
    requestInfos := rfl
    delayed := rfl
    tempFile := rfl
    tempIvFile := rfl
    iv := fun key iv known => by
      simp only [operation, newFileLoadOperation, known, Option.map_some, Option.getD_some]
    quiet := rfl
    sent := rfl }

/-- Every run keeps what `Kept` says. -/
theorem Place.kept (place : Place r paths) (proper : r.Proper) (reads : sys.Reads r) {disk : Disk}
    (resumable : Resumable aes r paths disk)
    (reached : Program.Reaches (FileLoadOperation.step aes sys) (· = place.operation disk)
      (Honest r) s) :
    Kept aes sys r paths s := by
  refine reached.invariant ?_ fun s e t kept honest run => kept.step proper reads honest run
  rintro s rfl
  exact .idle (place.idle proper resumable)

/-- A file of two parts that is not encrypted, so that no block cipher has a part in it. -/
def twoParts : Remote where
  content := List.replicate 40000 7
  size := 40000
  key := none

theorem twoParts_proper : twoParts.Proper where
  small := by
    rw [show twoParts.content.length = 40000 from List.length_replicate]
    decide
  size _ := List.length_replicate
  blocks encrypted := by cases encrypted
  iv _ _ known := by cases known

def samplePaths : Paths where
  file := "1_7.bin"
  temp := "1_7.temp"
  iv := "1_7.iv"
  temp_ne := by decide
  iv_ne := by decide
  iv_ne_temp := by decide

def twoPartsPlace : Place twoParts samplePaths where
  dc_id := 1
  id := 7
  volume_id := 0
  access_hash := 0
  local_id := 0
  extension := "bin"
  version := 0
  dest := ""
  temp := ""
  named disk name named := by
    obtain rfl : name = toString (1 : ℤ) ++ "_" ++ toString (7#64).toNat :=
      (Option.some.inj named).symm
    have filePath : directory "" ++ (toString (1 : ℤ) ++ "_" ++ toString (7#64).toNat) ++ "." ++
        "bin" = "1_7.bin" := by
      decide
    have tempFilePath : directory "" ++ (toString (1 : ℤ) ++ "_" ++ toString (7#64).toNat) ++
        ".temp" = "1_7.temp" := by
      decide
    exact ⟨filePath, tempFilePath, fun encrypted => by cases encrypted⟩

/-- A cipher that hides nothing. -/
def plainAes : Aes where
  encrypt _ b := b
  decrypt _ b := b
  decrypt_encrypt _ _ := rfl

/-- A disk that refuses nothing. -/
def flawless : System where
  failure _ := none

theorem flawless_faultless : flawless.Faultless := fun _ => rfl

/-- Both parts have been asked for. -/
def startedTwoParts : FileLoadOperation := (twoPartsPlace.operation fun _ => none).start flawless

/-- The second part has come and waits for the first one. -/
def waitingTwoParts : FileLoadOperation :=
  startedTwoParts.processRequestResult plainAes flawless ⟨1, 32768, some (twoParts.part 32768)⟩ none

/-- Both parts have come. -/
def loadedTwoParts : FileLoadOperation :=
  waitingTwoParts.processRequestResult plainAes flawless ⟨0, 0, some (twoParts.part 0)⟩ none

theorem honest_startedTwoParts :
    Honest twoParts startedTwoParts (.answer 1 (some (twoParts.part 32768)) none) := by
  have asked : startedTwoParts.requestInfos = [⟨0, 0, none⟩, ⟨1, 32768, none⟩] := rfl
  simp [Honest, asked]

theorem honest_waitingTwoParts :
    Honest twoParts waitingTwoParts (.answer 0 (some (twoParts.part 0)) none) := by
  have asked : waitingTwoParts.requestInfos = [⟨0, 0, none⟩] := rfl
  simp [Honest, asked]

theorem reaches_loadedTwoParts :
    Program.Reaches (FileLoadOperation.step plainAes flawless) (· = twoPartsPlace.operation fun _ =>
      none)
      (Honest twoParts) loadedTwoParts :=
  .step (.step (.step (.start rfl) trivial (i := .start) rfl) honest_startedTwoParts rfl)
    honest_waitingTwoParts rfl

end Mtproto.Files
