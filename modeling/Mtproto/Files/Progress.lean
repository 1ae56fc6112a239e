import Mtproto.Files.Exact

/-!
# The operation comes to its end

Every part is asked for once, one after the other, and up to four are under way until the file is
whole.  So with a disk and a server that refuse nothing, the operation ends after as many answers as
there are parts.
-/

namespace Mtproto.Files

open Bytes Datacenter Lib FileLoadOperation

variable {aes : Aes} {sys : System} {r : Remote} {paths : Paths} {s t : FileLoadOperation}
  {done next : ℕ}

/-! ## What is under way -/

/-- The part that is to be stored next is under way. -/
theorem Loading.requestInfos_ne_nil (loading : Loading aes r paths s done next) :
    s.requestInfos ≠ [] := by
  intro empty
  have mem : (done : ℤ) ∈ s.offsets := (loading.covered.mem_iff done).2
    ⟨done, le_rfl, loading.more, loading.stored.aligned, rfl⟩
  rw [offsets, empty, List.nil_append, List.mem_map] at mem
  obtain ⟨info, mem, offset⟩ := mem
  exact loading.head info mem offset

/-- What has been asked for lies within the file; where the size is unknown, its end may have been
asked for too. -/
theorem Once.within (once : Once r s) {request : GetFile} (mem : request ∈ s.sent) :
    ∃ offset : ℕ, request.offset = offset ∧ r.chunk ∣ offset ∧ offset ≤ r.content.length ∧
      (r.size ≠ 0 → offset < r.content.length) := by
  obtain ⟨next, ⟨first, aligned, reached, offsets⟩, le, lt⟩ := once
  have listed : request.offset ∈ s.sent.map GetFile.offset := List.mem_map_of_mem mem
  rw [offsets, List.mem_map] at listed
  obtain ⟨i, inside, offset⟩ := listed
  rw [List.mem_range] at inside
  have before := Nat.mul_le_mul_right r.chunk (Nat.succ_le_of_lt inside)
  rw [Nat.succ_mul] at before
  refine ⟨first + i * r.chunk, offset.symm,
    Nat.dvd_add aligned (Nat.dvd_mul_left _ _), by omega, fun known => ?_⟩
  have := lt known
  omega

theorem Once.length_le (once : Once r s) : s.sent.length ≤ r.content.length / r.chunk + 1 := by
  obtain ⟨next, ⟨first, -, reached, -⟩, le, -⟩ := once
  have pos := Remote.chunk_pos (r := r)
  rw [← Nat.add_div_right _ pos, Nat.le_div_iff_mul_le pos]
  omega

/-! ## What an answer moves -/

/-- Requests are sent, and each of them is under way; nothing fails. -/
structure Onward (s t : FileLoadOperation) : Prop where
  balanced : ∃ new, t.sent = s.sent ++ new ∧
    t.requestInfos.map RequestInfo.offset = s.requestInfos.map RequestInfo.offset ++
      new.map GetFile.offset
  alive : s.state ≠ .failed → t.state ≠ .failed
  live : t.deleted = s.deleted

theorem Onward.silent (sent : t.sent = s.sent) (requestInfos : t.requestInfos = s.requestInfos)
    (alive : s.state ≠ .failed → t.state ≠ .failed) (live : t.deleted = s.deleted) : Onward s t :=
  ⟨⟨[], by rw [sent, List.append_nil], by rw [requestInfos, List.map_nil, List.append_nil]⟩, alive,
    live⟩

theorem Onward.refl (s : FileLoadOperation) : Onward s s := .silent rfl rfl id rfl

theorem Onward.trans {u : FileLoadOperation} (first : Onward s t) (second : Onward t u) :
    Onward s u := by
  obtain ⟨one, sent, requestInfos⟩ := first.balanced
  obtain ⟨two, sent', requestInfos'⟩ := second.balanced
  refine ⟨⟨one ++ two, ?_, ?_⟩, fun alive => second.alive (first.alive alive),
    second.live.trans first.live⟩
  · rw [sent', sent, List.append_assoc]
  · rw [requestInfos', requestInfos, List.map_append, List.append_assoc]

theorem onward_sendRequest (isLast : Bool) : Onward s (s.sendRequest isLast) :=
  ⟨⟨_, rfl, List.map_append⟩, id, rfl⟩

theorem onward_requestLoop (rounds : ℕ) :
    ∀ s : FileLoadOperation, Onward s (requestLoop rounds s) := by
  induction rounds with
  | zero => exact Onward.refl
  | succ rounds ih =>
      intro s
      rw [requestLoop]
      split
      · exact .refl s
      · exact (onward_sendRequest _).trans (ih _)

theorem onward_startDownloadRequest (s : FileLoadOperation) : Onward s s.startDownloadRequest := by
  unfold startDownloadRequest
  split
  · exact .refl s
  · exact onward_requestLoop _ s

theorem onward_onFinishLoadingFile (s : FileLoadOperation) :
    Onward s (s.onFinishLoadingFile sys) := by
  unfold onFinishLoadingFile
  split
  · exact .refl s
  · unfold moveTempFile dropIvFile
    repeat' split
    all_goals exact .silent rfl rfl (fun _ => by simp) rfl

variable (aes) in
theorem onward_storePart (faultless : sys.Faultless) (bytes : List UInt8) (s : FileLoadOperation) :
    Onward s (s.storePart aes sys bytes).2 := by
  unfold storePart decryptPart writePart writeIv counted
  simp only [faultless.moved, beq_self_eq_true]
  repeat' split
  all_goals first
    | exact .silent rfl rfl id rfl
    | contradiction

/-- Storing parts, by induction on how many wait. -/
theorem onward_processPart (faultless : sys.Faultless) (waiting : ℕ) :
    ∀ (bytes : Option (List UInt8)) (s : FileLoadOperation), s.delayedRequestInfos.length =
      waiting →
      Onward s (s.processPart aes sys bytes) := by
  induction waiting using Nat.strong_induction_on with
  | h waiting ih =>
      intro bytes s length
      rcases bytes with - | bytes
      · rw [processPart]
        exact onward_onFinishLoadingFile s
      by_cases empty : bytes = []
      · rw [empty, processPart_empty]
        exact onward_onFinishLoadingFile s
      have onward := onward_storePart aes faultless bytes s
      have delayed := delayedRequestInfos_storePart aes sys bytes s
      have closing (last : Bool) (t : FileLoadOperation) :
          Onward t (if last then t.onFinishLoadingFile sys else t.startDownloadRequest) := by
        cases last with
        | true => exact onward_onFinishLoadingFile t
        | false => exact onward_startDownloadRequest t
      cases stored : s.storePart aes sys bytes with
      | mk result t =>
          rw [stored] at onward delayed
          simp only at onward delayed
          cases result with
          | none =>
              rw [processPart_failed empty stored]
              exact onward
          | some last =>
              cases follows : t.delayedRequestInfos.find? fun info =>
                t.downloadedBytes == info.offset with
              | none =>
                  rw [processPart_alone empty stored follows]
                  exact onward.trans (closing last t)
              | some info =>
                  have mem := List.mem_of_find?_eq_some follows
                  have fewer : (t.delayedRequestInfos.erase info).length < waiting := by
                    rw [List.length_erase_of_mem mem, ← length, ← delayed]
                    have := List.length_pos_of_mem mem
                    omega
                  have rest := ih _ fewer info.bytes
                    { t with delayedRequestInfos := t.delayedRequestInfos.erase info } rfl
                  have erased :
                      Onward t { t with delayedRequestInfos := t.delayedRequestInfos.erase info } :=
                    .silent rfl rfl id rfl
                  rw [processPart_followed empty stored follows]
                  exact ((onward.trans erased).trans rest).trans (closing last _)

variable (aes) in
/-- The answer to a request, which is no error. -/
theorem onward_processRequestResult (faultless : sys.Faultless) {info : RequestInfo}
    (found : s.requestInfos.find? (fun p => p.requestToken == info.requestToken) = some info)
    (response : Option (List UInt8)) :
    let t := s.processRequestResult aes sys { info with bytes := response } none
    (∃ new, t.sent = s.sent ++ new ∧
      t.requestInfos.length + 1 = s.requestInfos.length + new.length) ∧
      (s.state ≠ .failed → t.state ≠ .failed) ∧ t.deleted = s.deleted := by
  have length := (perm_of_find? found).length_eq
  rw [List.length_cons] at length
  have onward : ∀ t : FileLoadOperation,
      Onward
        { s with
          requestInfos := s.requestInfos.eraseP fun p => p.requestToken == info.requestToken } t →
      (∃ new, t.sent = s.sent ++ new ∧
        t.requestInfos.length + 1 = s.requestInfos.length + new.length) ∧
        (s.state ≠ .failed → t.state ≠ .failed) ∧ t.deleted = s.deleted := by
    intro t onward
    obtain ⟨new, sent, requestInfos⟩ := onward.balanced
    have balanced := congrArg List.length requestInfos
    simp only [List.length_map, List.length_append] at balanced
    exact ⟨⟨new, sent, by omega⟩, onward.alive, onward.live⟩
  refine onward _ ?_
  unfold processRequestResult
  simp only
  split
  · split
    · refine Onward.trans ?_ (onward_startDownloadRequest _)
      exact .silent rfl rfl id rfl
    · exact .refl _
  · exact onward_processPart faultless _ _ _ rfl

/-! ## What `start` moves -/

variable (sys) in
theorem onward_openDest (s : FileLoadOperation) : Onward s (s.openDest sys).2 := by
  unfold openDest
  simp only
  repeat' split
  all_goals exact .silent rfl rfl id rfl

variable (sys) in
theorem onward_openTemp (s : FileLoadOperation) : Onward s (s.openTemp sys) := by
  unfold openTemp
  repeat' split
  all_goals exact .silent rfl rfl id rfl

theorem onward_openIv (faultless : sys.Faultless) (s : FileLoadOperation) :
    (s.openIv sys).1 = true ∧ Onward s (s.openIv sys).2 := by
  have read : Onward s (s.readIv sys) := by
    unfold readIv
    repeat' split
    all_goals exact .silent rfl rfl id rfl
  unfold openIv
  simp only [faultless.succeeds, if_true]
  split
  · split
    · exact ⟨rfl, read⟩
    · exact ⟨rfl, read.trans (.silent rfl rfl id rfl)⟩
  · exact ⟨rfl, .refl s⟩

theorem onward_createTemp (faultless : sys.Faultless) (s : FileLoadOperation) :
    ((s.seekTemp sys).createTemp sys).1 = true ∧ Onward s ((s.seekTemp sys).createTemp sys).2 := by
  have sought : Onward s (s.seekTemp sys) := by
    unfold seekTemp
    split <;> exact .silent rfl rfl id rfl
  generalize s.seekTemp sys = t at sought ⊢
  unfold createTemp
  simp only [faultless.succeeds, if_true]
  split
  · exact ⟨rfl, sought⟩
  · exact ⟨rfl, sought.trans (.silent rfl rfl id rfl)⟩

/-- `start` fails only where the location is refused. -/
theorem onward_start (faultless : sys.Faultless) (state : s.state = .idle)
    (accepted : s.fileName ≠ none) :
    Onward s (s.start sys) := by
  obtain ⟨name, named⟩ := Option.ne_none_iff_exists'.1 accepted
  have start : s.sized.fileName = some name := named
  have prepared : Onward s (s.sized.prepared name) :=
    .silent rfl rfl (fun _ => by simp [FileLoadOperation.prepared, sized]) rfl
  have opened := prepared.trans (onward_openDest sys _)
  rw [FileLoadOperation.start, if_neg (by simp [state])]
  simp only [start]
  split
  · exact opened.trans (onward_onFinishLoadingFile _)
  · obtain ⟨ready, ivOpen⟩ :=
      onward_openIv faultless (((s.sized.prepared name).openDest sys).2.openTemp sys)
    obtain ⟨ready', tempOpen⟩ :=
      onward_createTemp faultless
        ((((s.sized.prepared name).openDest sys).2.openTemp sys).openIv sys).2
    rw [if_pos ready, if_pos ready']
    have there := ((opened.trans (onward_openTemp sys _)).trans ivOpen).trans tempOpen
    split
    · exact there.trans (onward_onFinishLoadingFile _)
    · exact there.trans (onward_startDownloadRequest _)

/-! ## Runs -/

/-- An answer that brings the part that is asked for. -/
def Plain (r : Remote) (s : FileLoadOperation) (e : Event) : Prop :=
  (∃ requestToken response, e = .answer requestToken response none) ∧ Honest r s e

/-- What holds behind `start` and the given number of answers. -/
structure Paced (aes : Aes) (sys : System) (r : Remote) (paths : Paths) (answers : ℕ)
    (s : FileLoadOperation) : Prop where
  sound : Sound aes sys r paths s
  alive : s.state ≠ .failed
  balanced : s.sent.length = s.requestInfos.length + answers
  live : s.deleted = false

theorem Paced.step (proper : r.Proper) (faultless : sys.Faultless) {answers : ℕ}
    (paced : Paced aes sys r paths answers s)
    {e : Event} (plain : Plain r s e) (run : FileLoadOperation.step aes sys e s = some ((), t)) :
    Paced aes sys r paths (answers + 1) t := by
  obtain ⟨⟨requestToken, response, rfl⟩, honest⟩ := plain
  rw [FileLoadOperation.step, if_neg (by simp [paced.live])] at run
  simp only [Option.map_eq_some_iff, Prod.mk.injEq, true_and] at run
  obtain ⟨info, found, rfl⟩ := run
  obtain rfl : info.requestToken = requestToken := by simpa using List.find?_some found
  obtain ⟨⟨new, sent, balanced⟩, alive, live⟩ := onward_processRequestResult aes faultless
    found response
  have before := paced.balanced
  have longer := congrArg List.length sent
  rw [List.length_append] at longer
  refine ⟨?_, alive paced.alive, by omega, live.trans paced.live⟩
  rcases paced.sound with ⟨_, _, loading⟩ | ⟨failed, -, -⟩ | handed
  · exact loading.answer proper found honest
  · exact absurd failed paced.alive
  · rw [handed.requestInfos] at found
    cases found

/-- However the events follow each other, one part after the other is asked for, each once and none
beyond the end. -/
theorem requests_once (proper : r.Proper) (reads : sys.Reads r) (place : Place r paths)
    {disk : Disk}
    (resumable : Resumable aes r paths disk)
    (reached : Program.Reaches (FileLoadOperation.step aes sys) (· = place.operation disk)
      (Honest r) s) :
    (∃ first, r.chunk ∣ first ∧
      s.sent.map GetFile.offset = (List.range s.sent.length).map fun i =>
        ((first + i * r.chunk : ℕ) : ℤ)) ∧
    (∀ request ∈ s.sent, request.offset ≤ r.content.length ∧
      (r.size ≠ 0 → request.offset < r.content.length)) ∧
    (s.deleted = false → s.state = .downloading → s.requestInfos ≠ [] ∧
      s.requestInfos.length ≤ 4) := by
  have kept := place.kept proper reads resumable reached
  refine ⟨?_, fun request mem => ?_, fun live state => ?_⟩
  · obtain ⟨next, ⟨first, aligned, -, offsets⟩, -⟩ := kept.once
    exact ⟨first, aligned, offsets⟩
  · obtain ⟨offset, same, -, le, lt⟩ := kept.once.within mem
    rw [same]
    exact ⟨by omega, fun known => by have := lt known; omega⟩
  · rcases kept with idle | (⟨_, _, loading⟩ | ⟨failed, -, -⟩ | handed) | ⟨gone, -, -⟩
    · cases idle.state.symm.trans state
    · exact ⟨loading.requestInfos_ne_nil, loading.few⟩
    · cases failed.symm.trans state
    · cases handed.state.symm.trans state
    · cases live.symm.trans gone

theorem requests_once_twoParts :
    (∃ first, twoParts.chunk ∣ first ∧ loadedTwoParts.sent.map GetFile.offset =
      (List.range loadedTwoParts.sent.length).map fun i => ((first + i * twoParts.chunk : ℕ) : ℤ)) ∧
    (∀ request ∈ loadedTwoParts.sent, request.offset ≤ twoParts.content.length ∧
      (twoParts.size ≠ 0 → request.offset < twoParts.content.length)) ∧
    (loadedTwoParts.deleted = false → loadedTwoParts.state = .downloading →
      loadedTwoParts.requestInfos ≠ [] ∧ loadedTwoParts.requestInfos.length ≤ 4) :=
  requests_once twoParts_proper (flawless_faultless.reads _) twoPartsPlace
    (resumable_empty : Resumable plainAes _ _ _) reaches_loadedTwoParts

/-- Where nothing fails, `start` and the parts in any order lead to the whole file, with as many
answers at most as there are parts and one more; before the file is whole there is always a part
under way. -/
theorem loads_whole_file (proper : r.Proper) (faultless : sys.Faultless) (place : Place r paths)
    {disk : Disk}
    (resumable : Resumable aes r paths disk) (accepted : (place.operation disk).fileName ≠ none)
    {answers : List Event}
    (run : Program.Runs (FileLoadOperation.step aes sys) (Plain r)
      ((place.operation disk).start sys) answers s) :
    answers.length + s.requestInfos.length ≤ r.content.length / r.chunk + 1 ∧
      (s.requestInfos = [] → ∃ path, s.onFinished = [path] ∧ s.disk path = some (r.file aes)) := by
  have idle := place.idle proper resumable
  have onward := onward_start faultless idle.state accepted
  have paced : Paced aes sys r paths answers.length s := by
    refine run.invariant (P := fun answers s => Paced aes sys r paths answers.length s) ?_ ?_
    · obtain ⟨new, sent, requestInfos⟩ := onward.balanced
      rw [idle.requestInfos, List.map_nil, List.nil_append] at requestInfos
      rw [idle.sent, List.nil_append] at sent
      have balanced := congrArg List.length requestInfos
      rw [List.length_map, List.length_map, ← sent] at balanced
      exact ⟨idle.start proper (faultless.reads r), onward.alive (by simp [idle.state]),
        balanced.symm, onward.live⟩
    · intro answers s e t paced plain run
      rw [List.length_append, List.length_singleton]
      exact paced.step proper faultless plain run
  obtain ⟨sound, alive, balanced, -⟩ := paced
  have once : Once r s := (Kept.sound sound).once
  refine ⟨by have := once.length_le; omega, fun none_left => ?_⟩
  rcases sound with ⟨_, _, loading⟩ | ⟨failed, -, -⟩ | handed
  · exact absurd none_left loading.requestInfos_ne_nil
  · exact absurd failed alive
  · exact handed.path

/-- The two parts of `twoParts` are the whole file, although the second one comes first. -/
theorem loads_whole_file_twoParts :
    ∃ path, loadedTwoParts.onFinished = [path] ∧
      loadedTwoParts.disk path = some (twoParts.file plainAes) := by
  have empty : Resumable plainAes twoParts samplePaths fun _ => none := resumable_empty
  have accepted : (twoPartsPlace.operation fun _ => none).fileName ≠ none :=
    Option.some_ne_none (toString (1 : ℤ) ++ "_" ++ toString (7#64).toNat)
  have run : Program.Runs (FileLoadOperation.step plainAes flawless)
      (Plain twoParts) startedTwoParts
      [.answer 1 (some (twoParts.part 32768)) none,
        .answer 0 (some (twoParts.part 0)) none] loadedTwoParts :=
    .snoc (.snoc .nil ⟨⟨_, _, rfl⟩, honest_startedTwoParts⟩ rfl) ⟨⟨_, _, rfl⟩,
      honest_waitingTwoParts⟩ rfl
  obtain ⟨few, whole⟩ :=
    loads_whole_file twoParts_proper flawless_faultless twoPartsPlace empty accepted run
  have parts : twoParts.content.length / twoParts.chunk + 1 = 2 := by
    rw [show twoParts.content.length = 40000 from List.length_replicate]
    decide
  rw [parts, List.length_cons, List.length_singleton] at few
  exact whole (List.length_eq_zero_iff.1 (by omega))

end Mtproto.Files
