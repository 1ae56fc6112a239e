import Mathlib.Data.List.Induction
import Mtproto.Session.ConnectionSession

/-!
# Renewed sessions

`recreateSession` against the constructor: the calls that follow tell a renewed session from a new
one exactly if the threshold that it keeps rejects an id.
-/

namespace Mtproto.Session

/-- A value of an `int64_t`. -/
def IsInt64 (n : ℤ) : Prop := -2 ^ 63 ≤ n ∧ n < 2 ^ 63

/-! ## Calls and their results -/

inductive Call where
  | isMessageIdProcessed (messageId : ℤ)
  | addProcessedMessageId (messageId : ℤ)
  | hasMessagesToConfirm
  | addMessageToConfirm (messageId : ℤ)
  | generateConfirmationRequest (messageId : ℤ)
  | generateMessageSeqNo (increment : Bool)
  | isSessionProcessed (sessionId : ℤ)
  | addProcessedSession (sessionId : ℤ)

/-- The ids that are passed are values of their type. -/
def Call.Typed : Call → Prop
  | .isMessageIdProcessed messageId | .addProcessedMessageId messageId | .addMessageToConfirm
      messageId
  | .generateConfirmationRequest messageId => IsInt64 messageId
  | .isSessionProcessed sessionId | .addProcessedSession sessionId => IsInt64 sessionId
  | .hasMessagesToConfirm | .generateMessageSeqNo _ => True

inductive Answer where
  | nothing
  | bool (value : Bool)
  | seqNo (value : ℕ)
  | confirmation (value : Option Confirmation)
deriving DecidableEq, Repr

def Call.run (s : ConnectionSession) : Call → Answer × ConnectionSession
  | .isMessageIdProcessed messageId => (.bool (s.isMessageIdProcessed messageId), s)
  | .addProcessedMessageId messageId => (.nothing, s.addProcessedMessageId messageId)
  | .hasMessagesToConfirm => (.bool s.hasMessagesToConfirm, s)
  | .addMessageToConfirm messageId => (.nothing, s.addMessageToConfirm messageId)
  | .generateConfirmationRequest messageId =>
      (.confirmation (s.generateConfirmationRequest messageId).1,
        (s.generateConfirmationRequest messageId).2)
  | .generateMessageSeqNo increment =>
      (.seqNo (s.generateMessageSeqNo increment).1, (s.generateMessageSeqNo increment).2)
  | .isSessionProcessed sessionId => (.bool (s.isSessionProcessed sessionId), s)
  | .addProcessedSession sessionId => (.nothing, s.addProcessedSession sessionId)

/-- The results of the calls, one after the other. -/
def answers : ConnectionSession → List Call → List Answer
  | _, [] => []
  | s, call :: rest => (call.run s).1 :: answers (call.run s).2 rest

/-- The session answers every sequence of calls like a new one. -/
def LikeNew (s : ConnectionSession) : Prop :=
  ∀ sessionId calls, (∀ call ∈ calls, call.Typed) → answers s calls = answers { sessionId } calls

/-! ## The threshold -/

/-- No odd id of an `int64_t` lies below the threshold. -/
def RejectsNothing (least : ℤ) : Prop := least = 0 ∨ least ≤ -2 ^ 63 + 1

/-- Sessions that differ in their ids and in thresholds that reject nothing. -/
structure Alike (s t : ConnectionSession) : Prop where
  nextSeqNo : s.nextSeqNo = t.nextSeqNo
  processedMessageIds : s.processedMessageIds = t.processedMessageIds
  messagesIdsForConfirmation : s.messagesIdsForConfirmation = t.messagesIdsForConfirmation
  processedSessionChanges : s.processedSessionChanges = t.processedSessionChanges
  threshold : s.minProcessedMessageId = t.minProcessedMessageId ∨
    RejectsNothing s.minProcessedMessageId ∧ RejectsNothing t.minProcessedMessageId

section Alike

variable {s t : ConnectionSession}

theorem rejectsNothing_odd {least messageId : ℤ} (nothing : RejectsNothing least)
    (typed : IsInt64 messageId)
    (odd : messageId % 2 ≠ 0) : least = 0 ∨ ¬ messageId < least := by
  obtain ⟨lower, -⟩ := typed
  rcases nothing with zero | low
  · exact .inl zero
  · right
    omega

theorem isMessageIdProcessed_of_rejectsNothing {messageId : ℤ}
    (nothing : RejectsNothing s.minProcessedMessageId)
    (typed : IsInt64 messageId) :
    s.isMessageIdProcessed messageId =
      (messageId % 2 == 0 || s.processedMessageIds.contains messageId) := by
  rw [ConnectionSession.isMessageIdProcessed]
  by_cases even : messageId % 2 = 0
  · simp [even]
  · rcases rejectsNothing_odd nothing typed even with zero | above
    · simp [zero]
    · simp [above]

theorem Alike.isMessageIdProcessed (alike : Alike s t) {messageId : ℤ} (typed : IsInt64 messageId) :
    s.isMessageIdProcessed messageId = t.isMessageIdProcessed messageId := by
  rcases alike.threshold with same | ⟨nothing, nothing'⟩
  · rw [ConnectionSession.isMessageIdProcessed, ConnectionSession.isMessageIdProcessed, same,
      alike.processedMessageIds]
  · rw [isMessageIdProcessed_of_rejectsNothing nothing typed,
      isMessageIdProcessed_of_rejectsNothing nothing' typed, alike.processedMessageIds]

theorem Alike.addProcessedMessageId (alike : Alike s t) (messageId : ℤ) :
    Alike (s.addProcessedMessageId messageId) (t.addProcessedMessageId messageId) := by
  obtain ⟨seqNo, ids, pending, changes, threshold⟩ := alike
  rw [ConnectionSession.addProcessedMessageId, ConnectionSession.addProcessedMessageId, ids]
  split_ifs with long
  · exact ⟨seqNo, rfl, pending, changes, .inl rfl⟩
  · exact ⟨seqNo, rfl, pending, changes, threshold⟩

theorem Alike.addMessageToConfirm (alike : Alike s t) (messageId : ℤ) :
    Alike (s.addMessageToConfirm messageId) (t.addMessageToConfirm messageId) := by
  obtain ⟨seqNo, ids, pending, changes, threshold⟩ := alike
  rw [ConnectionSession.addMessageToConfirm, ConnectionSession.addMessageToConfirm, ids, pending]
  split_ifs with known
  · exact ⟨seqNo, ids, pending, changes, threshold⟩
  · exact ⟨seqNo, rfl, rfl, changes, threshold⟩

theorem Alike.generateMessageSeqNo (alike : Alike s t) (increment : Bool) :
    (s.generateMessageSeqNo increment).1 = (t.generateMessageSeqNo increment).1 ∧
      Alike (s.generateMessageSeqNo increment).2 (t.generateMessageSeqNo increment).2 := by
  obtain ⟨seqNo, ids, pending, changes, threshold⟩ := alike
  rw [ConnectionSession.generateMessageSeqNo, ConnectionSession.generateMessageSeqNo, seqNo]
  refine ⟨rfl, ?_⟩
  cases increment with
  | false => exact ⟨seqNo, ids, pending, changes, threshold⟩
  | true => exact ⟨rfl, ids, pending, changes, threshold⟩

theorem Alike.generateConfirmationRequest (alike : Alike s t) (messageId : ℤ) :
    (s.generateConfirmationRequest messageId).1 = (t.generateConfirmationRequest messageId).1 ∧
      Alike (s.generateConfirmationRequest messageId).2
        (t.generateConfirmationRequest messageId).2 := by
  have numbered := (alike.generateMessageSeqNo false).1
  obtain ⟨seqNo, ids, pending, changes, threshold⟩ := alike
  rw [ConnectionSession.generateConfirmationRequest, ConnectionSession.generateConfirmationRequest,
    numbered, pending]
  split_ifs with empty
  · exact ⟨rfl, seqNo, ids, pending, changes, threshold⟩
  · exact ⟨rfl, seqNo, ids, rfl, changes, threshold⟩

theorem Alike.run (alike : Alike s t) {call : Call} (typed : call.Typed) :
    (call.run s).1 = (call.run t).1 ∧ Alike (call.run s).2 (call.run t).2 := by
  cases call with
  | isMessageIdProcessed messageId =>
      exact ⟨congrArg Answer.bool (alike.isMessageIdProcessed typed), alike⟩
  | addProcessedMessageId messageId => exact ⟨rfl, alike.addProcessedMessageId messageId⟩
  | hasMessagesToConfirm =>
    refine ⟨congrArg Answer.bool ?_, alike⟩
    rw [ConnectionSession.hasMessagesToConfirm, ConnectionSession.hasMessagesToConfirm,
      alike.messagesIdsForConfirmation]
  | addMessageToConfirm messageId => exact ⟨rfl, alike.addMessageToConfirm messageId⟩
  | generateConfirmationRequest messageId =>
    obtain ⟨same, alike'⟩ := alike.generateConfirmationRequest messageId
    exact ⟨congrArg Answer.confirmation same, alike'⟩
  | generateMessageSeqNo increment =>
    obtain ⟨same, alike'⟩ := alike.generateMessageSeqNo increment
    exact ⟨congrArg Answer.seqNo same, alike'⟩
  | isSessionProcessed sessionId =>
    refine ⟨congrArg Answer.bool ?_, alike⟩
    rw [ConnectionSession.isSessionProcessed, ConnectionSession.isSessionProcessed,
      alike.processedSessionChanges]
  | addProcessedSession sessionId =>
    obtain ⟨seqNo, ids, pending, changes, threshold⟩ := alike
    exact ⟨rfl, seqNo, ids, pending, congrArg (· ++ [sessionId]) changes, threshold⟩

theorem Alike.answers (alike : Alike s t) {calls : List Call} (typed : ∀ call ∈ calls, call.Typed) :
    answers s calls = answers t calls := by
  induction calls generalizing s t with
  | nil => rfl
  | cons call rest ih =>
    obtain ⟨same, alike'⟩ := alike.run (typed call List.mem_cons_self)
    rw [Session.answers, Session.answers, same, ih alike' fun call mem =>
      typed call (List.mem_cons_of_mem _ mem)]

/-- The smallest odd id shows a threshold that rejects anything. -/
theorem likeNew_recreateSession_iff (s : ConnectionSession) (newSessionId : ℤ) :
    LikeNew (s.recreateSession newSessionId) ↔ RejectsNothing s.minProcessedMessageId := by
  constructor
  · intro likeNew
    by_contra rejects
    obtain ⟨nonzero, above⟩ := not_or.1 rejects
    have typed : ∀ call ∈ [Call.isMessageIdProcessed (-2 ^ 63 + 1)], call.Typed := by
      intro call mem
      rw [List.mem_singleton.1 mem]
      exact ⟨by decide, by decide⟩
    have same := likeNew 0 _ typed
    have rejected : (s.recreateSession newSessionId).isMessageIdProcessed (-2 ^ 63 + 1) = true := by
      have below : (-2 ^ 63 + 1 : ℤ) < s.minProcessedMessageId := by omega
      have kept : (s.recreateSession newSessionId).minProcessedMessageId =
        s.minProcessedMessageId := rfl
      simp only [ConnectionSession.isMessageIdProcessed, kept, decide_eq_true below]
      simp [nonzero]
    simp only [answers, Call.run, rejected] at same
    revert same
    decide
  · intro nothing sessionId calls typed
    have alike : Alike (s.recreateSession newSessionId) { sessionId } :=
      ⟨rfl, rfl, rfl, rfl, .inr ⟨nothing, .inl rfl⟩⟩
    exact alike.answers typed

end Alike

/-- After any run, a renewed session answers like a new one exactly if the threshold that stays is 0
or lies below every odd id. -/
theorem renewed_likeNew_iff (sessionId : ℤ) (operations : List Operation) (newSessionId : ℤ) :
    LikeNew ((runAll { sessionId } operations).recreateSession newSessionId) ↔
      (runAll { sessionId } operations).minProcessedMessageId = 0 ∨
        (runAll { sessionId } operations).minProcessedMessageId ≤ -2 ^ 63 + 1 :=
  likeNew_recreateSession_iff _ _

/-- The first 301 additions only make the list longer. -/
theorem processedMessageIds_adds (sessionId : ℤ) {messageIds : List ℤ}
    (short : messageIds.length ≤ 301) :
    (runAll { sessionId } (messageIds.map .addProcessedMessageId)).processedMessageIds =
      messageIds := by
  induction messageIds using List.reverseRecOn with
  | nil => rfl
  | append_singleton first messageId ih =>
    rw [List.length_append, List.length_singleton] at short
    have before := ih (by omega)
    rw [List.map_append, runAll, List.foldl_append]
    change (ConnectionSession.addProcessedMessageId
      (runAll { sessionId } (first.map .addProcessedMessageId))
      messageId).processedMessageIds = _
    rw [ConnectionSession.addProcessedMessageId, before, if_neg (by omega)]

/-- The next addition takes the oldest third away and remembers where it ended. -/
theorem minProcessedMessageId_adds (sessionId next : ℤ) {messageIds : List ℤ}
    (full : messageIds.length = 301)
    (sorted : messageIds.Pairwise (· ≤ ·)) :
    (runAll { sessionId }
      ((messageIds ++ [next]).map .addProcessedMessageId)).minProcessedMessageId =
      (messageIds.drop 100).headD 0 := by
  have before := processedMessageIds_adds sessionId (Nat.le_of_eq full)
  have inOrder : messageIds.mergeSort = messageIds := by
    apply List.mergeSort_of_pairwise
    exact sorted.imp fun le => decide_eq_true le
  rw [List.map_append, runAll, List.foldl_append]
  change (ConnectionSession.addProcessedMessageId
    (runAll { sessionId } (messageIds.map .addProcessedMessageId))
    next).minProcessedMessageId = _
  rw [ConnectionSession.addProcessedMessageId, before, if_pos (by omega)]
  change (messageIds.mergeSort.drop 100).headD 0 = _
  rw [inOrder]

/-- The ids of 301 messages, one after the other. -/
def firstIds : List ℤ := (List.range 301).map fun n : ℕ => 2 * (n : ℤ) + 1

theorem pairwise_firstIds : firstIds.Pairwise (· ≤ ·) := by
  rw [firstIds, List.pairwise_map]
  refine List.pairwise_lt_range.imp ?_
  intro a b lt
  omega

/-- The next message after a renewal may be older than the threshold. -/
theorem not_likeNew_renewed :
    ¬ LikeNew ((runAll { sessionId := 1 }
      ((firstIds ++ [603]).map .addProcessedMessageId)).recreateSession 2) := by
  have full : firstIds.length = 301 := by rw [firstIds, List.length_map, List.length_range]
  have threshold := minProcessedMessageId_adds 1 603 full pairwise_firstIds
  have oldest : (firstIds.drop 100).headD 0 = 201 := by decide +kernel
  rw [likeNew_recreateSession_iff, threshold, oldest, RejectsNothing]
  decide

end Mtproto.Session
