import Mtproto.Files.Assembled

/-!
# Any order of the answers

A part that comes before its turn waits; when the part before it is stored, it follows.  So every
answer leaves the operation at a part that is under way, and when it is finished the file is whole.
-/

namespace Mtproto.Files

open Bytes Datacenter Lib FileLoadOperation

variable {aes : Aes} {sys : System} {r : Remote} {paths : Paths} {s t : FileLoadOperation}
  {low next done : ℕ}

theorem add_le_of_dvd {a b c : ℕ} (lt : a < b) (left : c ∣ a) (right : c ∣ b) : a + c ≤ b := by
  obtain ⟨x, rfl⟩ := left
  obtain ⟨y, rfl⟩ := right
  rw [← Nat.mul_succ]
  exact Nat.mul_le_mul_left c (Nat.lt_of_mul_lt_mul_left lt)

/-! ## Asking -/

/-- Only requests are new. -/
def Asks (s t : FileLoadOperation) : Prop :=
  t = { s with
    requestInfos := t.requestInfos
    nextDownloadOffset := t.nextDownloadOffset
    requestsCount := t.requestsCount
    sent := t.sent }

theorem Asks.trans {u : FileLoadOperation} (first : Asks s t) (second : Asks t u) : Asks s u := by
  rw [Asks] at first second ⊢
  rw [second, first]

theorem Started.asks (started : Started r paths s) (asks : Asks s t) : Started r paths t := by
  rw [asks]
  exact { started with }

theorem Stored.asks (stored : Stored aes r paths s done) (asks : Asks s t) :
    Stored aes r paths t done := by
  rw [asks]
  exact { stored with }

theorem asks_sendRequest (isLast : Bool) : Asks s (s.sendRequest isLast) := rfl

theorem offsets_sendRequest (isLast : Bool) :
    (s.sendRequest isLast).offsets.Perm (s.nextDownloadOffset :: s.offsets) := by
  simp only [offsets, sendRequest, List.map_append, List.map_cons, List.append_assoc,
    List.singleton_append]
  exact List.perm_middle

theorem Asked.sendRequest (asked : Asked r s next) (offset : s.nextDownloadOffset = next)
    (isLast : Bool) :
    Asked r (s.sendRequest isLast) (next + r.chunk) := by
  obtain ⟨first, aligned, reached, offsets⟩ := asked
  refine ⟨first, aligned, ?_, ?_⟩
  · simp only [FileLoadOperation.sendRequest, List.length_append, List.length_singleton]
    rw [reached, Nat.add_mul, Nat.one_mul, Nat.add_assoc]
  · simp only [FileLoadOperation.sendRequest, List.length_append, List.length_singleton,
      List.map_append, List.range_succ, offsets, List.map_cons, List.map_nil, offset, reached]

theorem Asked.of_sent (asked : Asked r s next) (sent : t.sent = s.sent) : Asked r t next := by
  rw [Asked, sent]
  exact asked

theorem Once.of_sent (once : Once r s) (sent : t.sent = s.sent) : Once r t := by
  obtain ⟨next, asked, bounds⟩ := once
  exact ⟨next, asked.of_sent sent, bounds⟩

/-- One more part is under way. -/
theorem Covered.sendRequest (proper : r.Proper) (started : Started r paths s)
    (covered : Covered r s low next)
    (within : next ≤ r.content.length) (known : r.size ≠ 0 → next < r.content.length)
    (isLast : Bool) :
    Covered r (s.sendRequest isLast) low (next + r.chunk) := by
  have pos := Remote.chunk_pos (r := r)
  have small := proper.small
  have chunk := Remote.chunk_le (r := r)
  have perm := offsets_sendRequest (s := s) isLast
  rw [covered.offset] at perm
  have aligned := Nat.dvd_add covered.next_aligned (Nat.dvd_refl r.chunk)
  refine ⟨?_, covered.low_aligned, aligned, Nat.le_add_right_of_le covered.low_le, fun size => ?_,
    fun o => ?_, ?_,
    covered.waiting, covered.asked.sendRequest covered.offset isLast⟩
  · simp only [FileLoadOperation.sendRequest, covered.offset, started.chunk]
    rw [int32_eq (by omega) (by omega)]
    omega
  · have := known size
    omega
  · rw [perm.mem_iff, List.mem_cons, covered.mem_iff]
    constructor
    · rintro (rfl | ⟨k, low_le, lt, dvd, rfl⟩)
      · exact ⟨next, covered.low_le, by omega, covered.next_aligned, rfl⟩
      · exact ⟨k, low_le, by omega, dvd, rfl⟩
    · rintro ⟨k, low_le, lt, dvd, rfl⟩
      by_cases before : k < next
      · exact .inr ⟨k, low_le, before, dvd, rfl⟩
      · refine .inl (congrArg Nat.cast ?_)
        by_contra ne
        have := add_le_of_dvd (by omega) covered.next_aligned dvd
        omega
  · rw [perm.nodup_iff, List.nodup_cons]
    refine ⟨fun mem => ?_, covered.nodup⟩
    obtain ⟨k, -, lt, -, same⟩ := (covered.mem_iff _).1 mem
    omega

variable (low) in
/-- The rounds of the loop, where the size is known. -/
theorem requestLoop_spec (proper : r.Proper) (size : r.size ≠ 0) (rounds : ℕ) :
    ∀ {s : FileLoadOperation} {next : ℕ}, Started r paths s → Covered r s low next →
      ∃ next', Asks s (requestLoop rounds s) ∧ Covered r (requestLoop rounds s) low next' ∧
        next ≤ next' ∧
        (0 < rounds → next < r.content.length → next < next') ∧
        (requestLoop rounds s).requestInfos.length ≤ s.requestInfos.length + rounds := by
  have total := proper.size size
  have pos := Remote.chunk_pos (r := r)
  induction rounds with
  | zero =>
      intro s next _ covered
      exact ⟨next, rfl, covered, le_rfl, by omega, le_rfl⟩
  | succ rounds ih =>
      intro s next started covered
      rw [requestLoop]
      split
      · rename_i stops
        rw [started.total, covered.offset] at stops
        exact ⟨next, rfl, covered, le_rfl, by omega, by omega⟩
      · rename_i goes_on
        rw [started.total, covered.offset] at goes_on
        have known := Remote.total_pos_iff.2 size
        have more : next < r.content.length := by omega
        obtain ⟨next', asks, covered', le, -, length⟩ := ih (started.asks (asks_sendRequest _))
          (covered.sendRequest proper started (by omega) (fun _ => more) _)
        refine ⟨next', (asks_sendRequest _).trans asks, covered', by omega, fun _ _ => by omega, ?_⟩
        rw [FileLoadOperation.sendRequest] at length ⊢
        simp only [List.length_append, List.length_cons, List.length_nil] at length
        omega

/-! ## What is known after every event -/

/-- The operation is loading: the next part is under way. -/
structure Loading (aes : Aes) (r : Remote) (paths : Paths) (s : FileLoadOperation)
    (done next : ℕ) : Prop where
  state : s.state = .downloading
  stored : Stored aes r paths s done
  covered : Covered r s done next
  more : done < next
  single : r.size = 0 → next = done + r.chunk
  head : ∀ info ∈ s.delayedRequestInfos, info.offset ≠ done
  few : s.requestInfos.length ≤ 4
  quiet : s.onFinished = []

/-- The operation is about to store the part at `done`, which is no longer counted among the
others. -/
structure Turn (aes : Aes) (r : Remote) (paths : Paths) (s : FileLoadOperation)
    (done next : ℕ) : Prop where
  state : s.state = .downloading
  stored : Stored aes r paths s done
  covered : Covered r s (done + r.chunk) next
  single : r.size = 0 → next = done + r.chunk
  few : s.requestInfos.length ≤ 4
  quiet : s.onFinished = []

/-- The file has been handed over, whole, and nothing is under way. -/
structure Handed (aes : Aes) (sys : System) (r : Remote) (paths : Paths)
    (s : FileLoadOperation) : Prop where
  state : s.state = .finished
  requestInfos : s.requestInfos = []
  path : ∃ path, s.onFinished = [path] ∧ s.disk path = some (r.file aes)
  once : Once r s
  left : sys.Faultless → Resumable aes r paths s.disk

/-- What an answer leaves. -/
inductive Sound (aes : Aes) (sys : System) (r : Remote) (paths : Paths)
    (s : FileLoadOperation) : Prop
  | loading (done next : ℕ) : Loading aes r paths s done next → Sound aes sys r paths s
  | failed : s.state = .failed → s.onFinished = [] → Once r s → Sound aes sys r paths s
  | handed : Handed aes sys r paths s → Sound aes sys r paths s

theorem Covered.once (covered : Covered r s low next)
    (single : r.size = 0 → next ≤ r.content.length + r.chunk) :
    Once r s := by
  refine ⟨next, covered.asked, ?_, covered.within⟩
  by_cases known : r.size = 0
  · exact single known
  · exact Nat.le_of_lt (covered.within known)

theorem Stored.le (stored : Stored aes r paths s done) : done ≤ r.content.length := by
  have within := stored.within
  rw [Remote.length_file] at within
  omega

theorem Loading.once (loading : Loading aes r paths s done next) : Once r s :=
  loading.covered.once fun unknown => by
    have := loading.stored.le
    rw [loading.single unknown]
    omega

theorem Turn.once (turn : Turn aes r paths s done next) : Once r s :=
  turn.covered.once fun unknown => by
    have := turn.stored.le
    rw [turn.single unknown]
    omega

variable (next) in
/-- After a part is stored, the next ones are asked for. -/
theorem startDownloadRequest_loading (proper : r.Proper) (state : s.state = .downloading)
    (stored : Stored aes r paths s done) (covered : Covered r s done next)
    (more : r.size ≠ 0 → done < r.content.length) (single : r.size = 0 → next = done)
    (head : ∀ info ∈ s.delayedRequestInfos, info.offset ≠ done) (few : s.requestInfos.length ≤ 4)
    (quiet : s.onFinished = []) :
    ∃ next', Loading aes r paths s.startDownloadRequest done next' := by
  have within := stored.within
  rw [Remote.length_file] at within
  have pos := Remote.chunk_pos (r := r)
  have total := Remote.total_pos_iff (r := r)
  have length : s.offsets.length = s.requestInfos.length + s.delayedRequestInfos.length := by
    rw [offsets, List.length_map, List.length_append]
  rw [startDownloadRequest, stored.total, covered.offset, stored.requests]
  by_cases size : r.size = 0
  · -- the size is unknown: nothing is under way, and one part is asked for
    obtain rfl := single size
    have empty : s.offsets = [] := List.eq_nil_iff_forall_not_mem.2 fun o mem => by
      obtain ⟨k, le, lt, -⟩ := (covered.mem_iff o).1 mem
      omega
    rw [empty, List.length_nil] at length
    rw [if_neg (by rw [state]; simp; omega), if_neg (by omega), requestLoop,
      if_neg (by rw [stored.total]; omega), requestLoop]
    refine ⟨next + r.chunk, state, stored.asks (asks_sendRequest _),
      covered.sendRequest proper stored.toStarted (by omega) (fun known =>
        more known) _, by omega, fun _ => rfl, head,
      ?_, quiet⟩
    simp only [FileLoadOperation.sendRequest, List.length_append, List.length_cons, List.length_nil]
    omega
  · have known := proper.size size
    split
    · rename_i stops
      refine ⟨next, state, stored, covered, ?_, fun unknown => absurd unknown size, head, few,
        quiet⟩
      -- something is under way, for else a part would be asked for
      by_contra none_left
      have empty : s.offsets = [] := List.eq_nil_iff_forall_not_mem.2 fun o mem => by
        obtain ⟨k, le, lt, -⟩ := (covered.mem_iff o).1 mem
        omega
      rw [empty, List.length_nil] at length
      have := more size
      have le := covered.low_le
      rcases stops with other | ends | full
      · exact other state
      · omega
      · omega
    · rename_i goes_on
      obtain ⟨next', asks, covered', le, lt, length'⟩ := requestLoop_spec done proper size
        (4 - s.requestInfos.length) stored.toStarted covered
      rw [if_pos (by omega)]
      push Not at goes_on
      have asks' := asks
      rw [Asks] at asks'
      refine ⟨next', ?_, stored.asks asks, covered', ?_, fun unknown => absurd unknown size,
        ?_, by omega, ?_⟩
      · rw [asks']
        exact state
      · have := covered.low_le
        have := goes_on.2.1 (by omega)
        have := lt (by omega) (by omega)
        omega
      · rw [asks']
        exact head
      · rw [asks']
        exact quiet

theorem startDownloadRequest_of_ne (state : s.state ≠ .downloading) :
    s.startDownloadRequest = s := by
  rw [startDownloadRequest, if_pos (.inl state)]

/-! ## Storing in turn -/

/-- The first part is taken out. -/
theorem Covered.turn (covered : Covered r s low next) (lt : low < next)
    (perm : s.offsets.Perm ((low : ℤ) :: t.offsets))
    (offset : t.nextDownloadOffset = s.nextDownloadOffset)
    (waiting : ∀ info ∈ t.delayedRequestInfos, info ∈ s.delayedRequestInfos)
    (sent : t.sent = s.sent) :
    Covered r t (low + r.chunk) next := by
  have pos := Remote.chunk_pos (r := r)
  have nodup := perm.nodup_iff.1 covered.nodup
  rw [List.nodup_cons] at nodup
  have aligned := Nat.dvd_add covered.low_aligned (Nat.dvd_refl r.chunk)
  refine ⟨offset.trans covered.offset, aligned, covered.next_aligned, ?_, covered.within, fun o =>
    ?_, nodup.2,
    fun info mem => covered.waiting info (waiting info mem), covered.asked.of_sent sent⟩
  · exact add_le_of_dvd lt covered.low_aligned covered.next_aligned
  · constructor
    · intro mem
      obtain ⟨k, le, lt, dvd, rfl⟩ :=
        (covered.mem_iff o).1 (perm.mem_iff.2 (List.mem_cons_of_mem _ mem))
      have ne : low ≠ k := by
        rintro rfl
        exact nodup.1 mem
      exact ⟨k, add_le_of_dvd (by omega) covered.low_aligned dvd, lt, dvd, rfl⟩
    · rintro ⟨k, le, lt, dvd, rfl⟩
      rcases List.mem_cons.1 (perm.mem_iff.1 ((covered.mem_iff _).2 ⟨k, by omega, lt, dvd, rfl⟩))
        with same | mem
      · omega
      · exact mem

/-- Handing the whole file over. -/
theorem onFinishLoadingFile_handed (state : s.state = .downloading)
    (complete : Complete aes r paths s)
    (requestInfos : s.requestInfos = []) (quiet : s.onFinished = []) (once : Once r s) :
    Handed aes sys r paths (s.onFinishLoadingFile sys) := by
  obtain ⟨position, opened⟩ := Option.isSome_iff_exists.1 complete.tempFile
  have kept : (dropIvFile sys { s with state := .finished }).disk paths.temp =
      some (r.file aes) := by
    unfold dropIvFile
    split
    · rename_i ivOpen
      have encrypted : r.key.isSome := complete.tempIvFile.symm.trans ivOpen
      simp only [complete.ivPath encrypted]
      split
      · rw [Function.update_of_ne paths.iv_ne_temp.symm]
        exact complete.disk
      · exact complete.disk
    · exact complete.disk
  have fields : (dropIvFile sys { s with state := .finished }).tempFile = some position ∧
      (dropIvFile sys { s with state := .finished }).state = .finished ∧
      (dropIvFile sys { s with state := .finished }).requestInfos = [] ∧
      (dropIvFile sys { s with state := .finished }).onFinished = [] ∧
      (dropIvFile sys { s with state := .finished }).filePath = paths.file ∧
      (dropIvFile sys { s with state := .finished }).tempFilePath = paths.temp ∧
      (dropIvFile sys { s with state := .finished }).sent = s.sent := by
    unfold dropIvFile
    split <;> exact ⟨opened, rfl, requestInfos, quiet, complete.filePath, complete.tempFilePath,
      rfl⟩
  rw [onFinishLoadingFile, if_neg (by simp [state])]
  generalize dropIvFile sys { s with state := .finished } = d at kept fields
  obtain ⟨tempFile, finished, none_left, unheard, filePath, tempFilePath, sent⟩ := fields
  unfold moveTempFile
  rw [tempFile]
  simp only
  split
  · have file : Function.update (Function.update d.disk d.filePath (d.disk d.tempFilePath))
        d.tempFilePath none
        paths.file = some (r.file aes) := by
      rw [tempFilePath, filePath, Function.update_of_ne paths.temp_ne.symm, Function.update_self,
        kept]
    have temp : Function.update (Function.update d.disk d.filePath (d.disk d.tempFilePath))
        d.tempFilePath none
        paths.temp = none := by
      rw [tempFilePath, Function.update_self]
    refine ⟨finished, none_left, ⟨paths.file, ?_, file⟩, once.of_sent sent, fun _ =>
      ⟨fun _ found onDisk => ?_,
      fun found onDisk => ?_⟩⟩
    · simp only [unheard, filePath, List.nil_append]
    · exact Option.some.inj (onDisk.symm.trans file)
    · cases onDisk.symm.trans temp
  · rename_i stays
    refine ⟨finished, none_left, ⟨paths.temp, ?_, kept⟩, once.of_sent sent, fun faultless => ?_⟩
    · simp only [unheard, tempFilePath, List.nil_append]
    · exact absurd (faultless.succeeds _) stays

/-- Nothing is under way beyond the end of the file. -/
theorem Covered.requestInfos_eq_nil (covered : Covered r s low next) (ends : r.content.length ≤ low)
    (single : r.size = 0 → next = low) : s.requestInfos = [] := by
  have none_left : s.offsets = [] := List.eq_nil_iff_forall_not_mem.2 fun o mem => by
    obtain ⟨k, le, lt, dvd, -⟩ := (covered.mem_iff o).1 mem
    have beyond := add_le_of_dvd lt dvd covered.next_aligned
    by_cases size : r.size = 0
    · have := single size
      omega
    · have := covered.within size
      omega
  rw [offsets, List.map_eq_nil_iff, List.append_eq_nil_iff] at none_left
  exact none_left.1

theorem startDownloadRequest_sound (proper : r.Proper) (size : r.size ≠ 0)
    (sound : Sound aes sys r paths s) :
    Sound aes sys r paths s.startDownloadRequest := by
  rcases sound with ⟨done, next, loading⟩ | ⟨state, quiet, once⟩ | handed
  · have more : r.size ≠ 0 → done < r.content.length := fun known => by
      have := loading.covered.within known
      have := add_le_of_dvd loading.more loading.covered.low_aligned loading.covered.next_aligned
      omega
    obtain ⟨next', asked⟩ :=
      startDownloadRequest_loading _ proper loading.state loading.stored loading.covered more
      (fun unknown => absurd unknown size) loading.head loading.few loading.quiet
    exact .loading done next' asked
  · rw [startDownloadRequest_of_ne (by simp [state])]
    exact .failed state quiet once
  · rw [startDownloadRequest_of_ne (by simp [handed.state])]
    exact .handed handed

/-- The offsets of what waits are among those that are under way or wait. -/
theorem Covered.of_waiting (covered : Covered r s low next) {info : RequestInfo}
    (mem : info ∈ s.delayedRequestInfos) :
    ∃ k : ℕ, low ≤ k ∧ k < next ∧ r.chunk ∣ k ∧ info.offset = k :=
  (covered.mem_iff _).1 (List.mem_map_of_mem (List.mem_append_right _ mem))

theorem Covered.unasked (covered : Covered r s low next) (unasked : Unasked s t) :
    Covered r t low next where
  offset := unasked.offset.trans covered.offset
  low_aligned := covered.low_aligned
  next_aligned := covered.next_aligned
  low_le := covered.low_le
  within := covered.within
  mem_iff := by
    rw [offsets, unasked.requestInfos, unasked.delayed]
    exact covered.mem_iff
  nodup := by
    rw [offsets, unasked.requestInfos, unasked.delayed]
    exact covered.nodup
  waiting := by
    rw [unasked.delayed]
    exact covered.waiting
  asked := covered.asked.of_sent unasked.sent

variable (sys) in
/-- The last part finishes the operation. -/
theorem Turn.last (turn : Turn aes r paths s done next) {size : ℕ} (piece : r.Piece done size true)
    (unasked : Unasked s t) (written : Written aes r paths s t (done + size)) :
    t.delayedRequestInfos.find? (fun info => t.downloadedBytes == info.offset) = none ∧
      Handed aes sys r paths (t.onFinishLoadingFile sys) := by
  have covered := turn.covered.unasked unasked
  have ends := piece.ends rfl
  have size_le : size ≤ r.chunk := by
    rw [← piece.length, Remote.length_part]
    exact Nat.min_le_left _ _
  have requestInfos := covered.requestInfos_eq_nil (by omega) turn.single
  refine ⟨?_, onFinishLoadingFile_handed (unasked.state.trans turn.state)
    (written.complete piece turn.stored.tempIvFile) requestInfos
      (unasked.onFinished.trans turn.quiet)
    (turn.once.of_sent unasked.sent)⟩
  rw [List.find?_eq_none]
  intro info mem found
  obtain ⟨k, le, lt, dvd, offset⟩ := covered.of_waiting mem
  have beyond := add_le_of_dvd lt dvd covered.next_aligned
  by_cases known : r.size = 0
  · have := turn.single known
    omega
  · have := covered.within known
    omega

/-- Where the server has nothing more, the file is whole. -/
theorem Turn.ends (turn : Turn aes r paths s done next) (ends : r.content.length ≤ done) :
    Handed aes sys r paths (s.onFinishLoadingFile sys) := by
  refine onFinishLoadingFile_handed turn.state { turn.stored.toStarted with
    tempFile := by rw [turn.stored.tempFile, Option.isSome_some]
    disk := ?_
    tempIvFile := turn.stored.tempIvFile } (turn.covered.requestInfos_eq_nil (by omega) turn.single)
      turn.quiet
    turn.once
  rw [turn.stored.disk]
  exact congrArg some (List.take_of_length_le (by rw [Remote.length_file]; omega))

section Goes

variable (turn : Turn aes r paths s done next) (unasked : Unasked s t)
  (stored : Stored aes r paths t (done + r.chunk))
include turn unasked stored

/-- Where nothing waits for this part, more is asked for. -/
theorem Turn.alone (proper : r.Proper) {size : ℕ} (piece : r.Piece done size false)
    (alone : t.delayedRequestInfos.find? (fun info => t.downloadedBytes == info.offset) = none) :
    Sound aes sys r paths t.startDownloadRequest := by
  have goes_on := piece.goes_on rfl
  have few : t.requestInfos.length ≤ 4 := by
    rw [unasked.requestInfos]
    exact turn.few
  obtain ⟨next', loading⟩ :=
    startDownloadRequest_loading _ proper (unasked.state.trans turn.state) stored
    (turn.covered.unasked unasked)
    (fun known => by
      rw [← goes_on.1]
      exact goes_on.2 known)
    turn.single
    (fun info mem same => by
      have differs := List.find?_eq_none.1 alone info mem
      simp [stored.downloaded, same] at differs)
    few (unasked.onFinished.trans turn.quiet)
  exact .loading _ next' loading

/-- A part that has waited for this one has its turn. -/
theorem Turn.follows {info : RequestInfo}
    (follows : t.delayedRequestInfos.find? (fun info => t.downloadedBytes == info.offset) =
      some info) :
    r.size ≠ 0 ∧ info.bytes = some (r.part (done + r.chunk)) ∧
      Turn aes r paths { t with delayedRequestInfos := t.delayedRequestInfos.erase info }
        (done + r.chunk) next := by
  have covered := turn.covered.unasked unasked
  have mem := List.mem_of_find?_eq_some follows
  have offset : info.offset = (done + r.chunk : ℕ) := by
    have found := List.find?_some follows
    simp only [stored.downloaded, beq_iff_eq] at found
    exact found.symm
  obtain ⟨k, le, lt, -, same⟩ := covered.of_waiting mem
  have known : r.size ≠ 0 := fun unknown => by
    have := turn.single unknown
    omega
  have bytes := covered.waiting info mem
  rw [offset, Int.toNat_natCast] at bytes
  have perm := ((List.perm_cons_erase mem).append_left t.requestInfos).trans List.perm_middle
  have offsets := perm.map RequestInfo.offset
  rw [List.map_cons, offset] at offsets
  refine ⟨known, bytes, unasked.state.trans turn.state, { stored with },
    covered.turn (by omega) offsets rfl (fun other mem => List.mem_of_mem_erase mem) rfl,
    fun unknown => absurd unknown known, ?_, unasked.onFinished.trans turn.quiet⟩
  show t.requestInfos.length ≤ 4
  rw [unasked.requestInfos]
  exact turn.few

end Goes

/-- The part whose turn it is, and those that have been waiting for it.  By induction on how many
wait. -/
theorem processPart_sound (proper : r.Proper) (waiting : ℕ) :
    ∀ {s : FileLoadOperation} {done next : ℕ}, s.delayedRequestInfos.length = waiting →
      Turn aes r paths s done next →
      Sound aes sys r paths (s.processPart aes sys (some (r.part done))) := by
  induction waiting using Nat.strong_induction_on with
  | h waiting ih =>
      intro s done next length turn
      have within := turn.stored.within
      rw [Remote.length_file] at within
      by_cases empty : r.part done = []
      · -- the server has nothing more
        have ends : r.content.length ≤ done := by
          have none_left := congrArg List.length empty
          have pos := Remote.chunk_pos (r := r)
          rw [Remote.length_part, List.length_nil] at none_left
          omega
        rw [empty, processPart_empty]
        exact .handed (turn.ends ends)
      cases stored : s.storePart aes sys (r.part done) with
      | mk result t =>
          cases result with
          | none =>
              rcases storePart_cases aes sys (r.part done) s with ⟨-, state, quiet, sent⟩ | ⟨-, -,
                wrong⟩
              · rw [processPart_failed empty stored]
                rw [stored] at state quiet sent
                exact .failed state (quiet.trans turn.quiet) (turn.once.of_sent sent)
              · rw [stored] at wrong
                cases wrong
          | some last =>
              have success : (s.storePart aes sys (r.part done)).1 = some last := by rw [stored]
              have written := storePart_written proper turn.stored success
              simp only [stored] at written
              obtain ⟨piece, unasked, written⟩ := written
              cases last with
              | true =>
                  obtain ⟨alone, handed⟩ := turn.last sys piece unasked written
                  rw [processPart_alone empty stored alone]
                  exact .handed handed
              | false =>
                  have stored' := written.stored proper piece turn.stored
                  cases follows : t.delayedRequestInfos.find? fun info =>
                    t.downloadedBytes == info.offset with
                  | none =>
                      rw [processPart_alone empty stored follows]
                      exact turn.alone unasked stored' proper piece follows
                  | some info =>
                      obtain ⟨known, bytes, turn'⟩ := turn.follows unasked stored' follows
                      have fewer : (t.delayedRequestInfos.erase info).length < waiting := by
                        have mem := List.mem_of_find?_eq_some follows
                        rw [List.length_erase_of_mem mem, ← length, ← unasked.delayed]
                        have := List.length_pos_of_mem mem
                        omega
                      rw [processPart_followed empty stored follows, bytes]
                      exact startDownloadRequest_sound proper known (ih _ fewer rfl turn')

end Mtproto.Files
