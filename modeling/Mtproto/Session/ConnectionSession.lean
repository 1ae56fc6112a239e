import Mathlib.Data.List.Sort
import Mtproto.Manager.Connections
import Mtproto.Tgnet.NativeByteBuffer

/-!
# Sessions

`ConnectionSession.cpp` on its own: the methods as functions on the fields, and what they promise
about the ids of received messages over a run of any length.  The manager reaches its sessions
through the same methods.
-/

namespace Mtproto.Session

open Tgnet

/-! ## The class -/

structure ConnectionSession where
  sessionId : ℤ
  nextSeqNo : ℕ := 0
  minProcessedMessageId : ℤ := 0
  processedMessageIds : List ℤ := []
  messagesIdsForConfirmation : List ℤ := []
  processedSessionChanges : List ℤ := []
deriving DecidableEq, Repr

/-- The message of `generateConfirmationRequest` with the ids of its `TL_msgs_ack`. -/
structure Confirmation where
  msgId : ℤ
  seqno : ℕ
  bytes : ℕ
  msgIds : List ℤ
deriving DecidableEq, Repr

namespace ConnectionSession

variable (s : ConnectionSession)

/-- `minProcessedMessageId` stays. -/
def recreateSession (newSessionId : ℤ) : ConnectionSession :=
  { s with
    processedMessageIds := []
    messagesIdsForConfirmation := []
    processedSessionChanges := []
    nextSeqNo := 0
    sessionId := newSessionId }

def generateMessageSeqNo (increment : Bool) : ℕ × ConnectionSession :=
  (u32 (s.nextSeqNo * 2 + if increment then 1 else 0),
    if increment then { s with nextSeqNo := u32 (s.nextSeqNo + 1) } else s)

def isMessageIdProcessed (messageId : ℤ) : Bool :=
  messageId % 2 == 0 ||
    (s.minProcessedMessageId != 0 && decide (messageId < s.minProcessedMessageId)) ||
    s.processedMessageIds.contains messageId

/-- What is left of the ids once the 100 smallest are gone. -/
def compacted (messageIds : List ℤ) : List ℤ := messageIds.mergeSort.drop 100

def addProcessedMessageId (messageId : ℤ) : ConnectionSession :=
  if 300 < s.processedMessageIds.length then
    { s with
      processedMessageIds := compacted s.processedMessageIds ++ [messageId]
      minProcessedMessageId := (compacted s.processedMessageIds).headD 0 }
  else { s with processedMessageIds := s.processedMessageIds ++ [messageId] }

def hasMessagesToConfirm : Bool := s.messagesIdsForConfirmation != []

def addMessageToConfirm (messageId : ℤ) : ConnectionSession :=
  if s.processedMessageIds.contains messageId then s
  else { s with messagesIdsForConfirmation := s.messagesIdsForConfirmation ++ [messageId] }

/-- `messageId` is what `generateMessageId` returns.  The bytes are those of the `TL_msgs_ack`. -/
def generateConfirmationRequest (messageId : ℤ) : Option Confirmation × ConnectionSession :=
  if s.messagesIdsForConfirmation = [] then (none, s)
  else
    (some
      { msgId := messageId
        seqno := (s.generateMessageSeqNo false).1
        bytes := u32 (12 + 8 * s.messagesIdsForConfirmation.length)
        msgIds := s.messagesIdsForConfirmation },
      { s with messagesIdsForConfirmation := [] })

def isSessionProcessed (sessionId : ℤ) : Bool := s.processedSessionChanges.contains sessionId

def addProcessedSession (sessionId : ℤ) : ConnectionSession :=
  { s with processedSessionChanges := s.processedSessionChanges ++ [sessionId] }

end ConnectionSession

/-! ## The sessions of the manager -/

section Manager

open Lib Lib.Program Manager

/-- The session of a connection. -/
def ofConnection (c : Manager.Connection) : ConnectionSession where
  sessionId := c.sessionId
  nextSeqNo := c.nextSeqNo
  minProcessedMessageId := c.minProcessedMessageId
  processedMessageIds := c.processedMessageIds
  messagesIdsForConfirmation := c.messagesIdsForConfirmation
  processedSessionChanges := c.processedSessionChanges

/-- The connection with its session changed. -/
def onSession (f : ConnectionSession → ConnectionSession) (c : Manager.Connection) :
    Manager.Connection :=
  { c with
    sessionId := (f (ofConnection c)).sessionId
    nextSeqNo := (f (ofConnection c)).nextSeqNo
    minProcessedMessageId := (f (ofConnection c)).minProcessedMessageId
    processedMessageIds := (f (ofConnection c)).processedMessageIds
    messagesIdsForConfirmation := (f (ofConnection c)).messagesIdsForConfirmation
    processedSessionChanges := (f (ofConnection c)).processedSessionChanges }

theorem isMessageIdProcessed_eq (c : Manager.Connection) (messageId : ℤ) :
    Manager.isMessageIdProcessed c messageId = (ofConnection c).isMessageIdProcessed messageId :=
      rfl

theorem addProcessedMessageId_eq (c : ConnectionId) (messageId : ℤ) :
    Manager.addProcessedMessageId c messageId =
      modifyConnection c (onSession fun s => s.addProcessedMessageId messageId) := by
  apply congrArg (modifyConnection c)
  funext connection
  by_cases long : 300 < connection.processedMessageIds.length
  · simp [onSession, ConnectionSession.addProcessedMessageId, ConnectionSession.compacted,
      ofConnection, long]
  · simp [onSession, ConnectionSession.addProcessedMessageId, ofConnection, long]

theorem addMessageToConfirm_eq (c : ConnectionId) (messageId : ℤ) :
    Manager.addMessageToConfirm c messageId =
      modifyConnection c (onSession fun s => s.addMessageToConfirm messageId) := by
  apply congrArg (modifyConnection c)
  funext connection
  by_cases known : messageId ∈ connection.processedMessageIds
  · simp [onSession, ConnectionSession.addMessageToConfirm, ofConnection, known]
  · simp [onSession, ConnectionSession.addMessageToConfirm, ofConnection, known]

theorem recreateSession_eq (env : Env) (c : ConnectionId) :
    Manager.recreateSession env c = (do
      let n ← reading
      modifyConnection c (onSession fun s => s.recreateSession (env.newSessionId n))) := rfl

/-- What the manager calls on a connection is called on its session. -/
structure CallsSession : Prop where
  isMessageIdProcessed : ∀ (c : Manager.Connection) (messageId : ℤ),
    Manager.isMessageIdProcessed c messageId = (ofConnection c).isMessageIdProcessed messageId
  addProcessedMessageId : ∀ (c : ConnectionId) (messageId : ℤ),
    Manager.addProcessedMessageId c messageId =
      modifyConnection c (onSession fun s => s.addProcessedMessageId messageId)
  addMessageToConfirm : ∀ (c : ConnectionId) (messageId : ℤ),
    Manager.addMessageToConfirm c messageId =
      modifyConnection c (onSession fun s => s.addMessageToConfirm messageId)
  recreateSession : ∀ (env : Env) (c : ConnectionId), Manager.recreateSession env c = (do
    let n ← reading
    modifyConnection c (onSession fun s => s.recreateSession (env.newSessionId n)))

theorem callsSession : CallsSession where
  isMessageIdProcessed := isMessageIdProcessed_eq
  addProcessedMessageId := addProcessedMessageId_eq
  addMessageToConfirm := addMessageToConfirm_eq
  recreateSession := recreateSession_eq

end Manager

/-! ## Runs -/

inductive Operation where
  | addProcessedMessageId (messageId : ℤ)
  | addMessageToConfirm (messageId : ℤ)
  | generateConfirmationRequest (messageId : ℤ)
  | generateMessageSeqNo (increment : Bool)
  | addProcessedSession (sessionId : ℤ)
  | setSessionId (id : ℤ)
  | recreateSession (newSessionId : ℤ)
deriving DecidableEq, Repr

def Operation.run (s : ConnectionSession) : Operation → ConnectionSession
  | .addProcessedMessageId messageId => s.addProcessedMessageId messageId
  | .addMessageToConfirm messageId => s.addMessageToConfirm messageId
  | .generateConfirmationRequest messageId => (s.generateConfirmationRequest messageId).2
  | .generateMessageSeqNo increment => (s.generateMessageSeqNo increment).2
  | .addProcessedSession sessionId => s.addProcessedSession sessionId
  | .setSessionId id => { s with sessionId := id }
  | .recreateSession newSessionId => s.recreateSession newSessionId

/-- The session after the operations. -/
def runAll (s : ConnectionSession) (operations : List Operation) : ConnectionSession :=
  operations.foldl Operation.run s

/-- The ids that were added since the session was created last, behind those that were there. -/
def Operation.added (messageIds : List ℤ) : Operation → List ℤ
  | .addProcessedMessageId messageId => messageIds ++ [messageId]
  | .recreateSession _ => []
  | _ => messageIds

def addedIds (operations : List Operation) : List ℤ := operations.foldl Operation.added []

/-- Only new ids are added: odd, positive and not processed. -/
def Operation.Guarded (s : ConnectionSession) : Operation → Prop
  | .addProcessedMessageId messageId =>
      0 < messageId ∧ messageId % 2 = 1 ∧ s.isMessageIdProcessed messageId = false
  | _ => True

def Guarded : ConnectionSession → List Operation → Prop
  | _, [] => True
  | s, operation :: rest => operation.Guarded s ∧ Guarded (operation.run s) rest

/-! ## Replay protection -/

/-- The invariant between the ids in the session and the ids that were added.  The id that was added
behind a compaction may lie below the new threshold; no other id of the list does. -/
structure Tracked (s : ConnectionSession) (messageIds : List ℤ) : Prop where
  nonneg : 0 ≤ s.minProcessedMessageId
  positive : ∀ id ∈ messageIds, 0 < id
  listed : ∀ id ∈ s.processedMessageIds, id ∈ messageIds
  below : (s.processedMessageIds.filter (· < s.minProcessedMessageId)).length ≤ 1
  remembered : ∀ id ∈ messageIds, id ∈ s.processedMessageIds ∨ id < s.minProcessedMessageId

section Compaction

variable {messageIds : List ℤ}

theorem pairwise_mergeSort_int (messageIds : List ℤ) : messageIds.mergeSort.Pairwise (· ≤ ·) := by
  have sorted : messageIds.mergeSort.Pairwise fun a b => decide (a ≤ b) = true :=
    List.pairwise_mergeSort
      (fun a b c first
        second => by simpa using Int.le_trans (by simpa using first) (by simpa using second))
      (fun a b => by simpa using Int.le_total a b) messageIds
  exact sorted.imp fun le => by simpa using le

/-- The threshold of a compaction is one of the kept ids and separates them from the dropped
ones. -/
theorem compacted_spec (long : 300 < messageIds.length) :
    ∃ least, (ConnectionSession.compacted messageIds).headD 0 = least ∧
      least ∈ ConnectionSession.compacted messageIds ∧
      (∀ id ∈ ConnectionSession.compacted messageIds, least ≤ id) ∧
      ∀ id ∈ messageIds.mergeSort.take 100, id ≤ least := by
  have sorted := pairwise_mergeSort_int messageIds
  have length : messageIds.mergeSort.length = messageIds.length := List.length_mergeSort _
  have whole := List.take_append_drop 100 messageIds.mergeSort
  rw [← whole, List.pairwise_append] at sorted
  obtain ⟨-, kept_sorted, across⟩ := sorted
  rw [ConnectionSession.compacted]
  cases kept : messageIds.mergeSort.drop 100 with
  | nil =>
    have := congrArg List.length kept
    rw [List.length_drop, List.length_nil] at this
    omega
  | cons least rest =>
    rw [kept] at kept_sorted across
    refine ⟨least, rfl, List.mem_cons_self, ?_, fun id mem =>
      across id mem least List.mem_cons_self⟩
    intro id mem
    rcases List.mem_cons.1 mem with rfl | mem
    · exact Int.le_refl _
    · exact (List.pairwise_cons.1 kept_sorted).1 id mem

theorem mem_take_or_compacted {id : ℤ} (mem : id ∈ messageIds) :
    id ∈ messageIds.mergeSort.take 100 ∨ id ∈ ConnectionSession.compacted messageIds := by
  have mem : id ∈ messageIds.mergeSort := List.mem_mergeSort.2 mem
  have whole := List.take_append_drop 100 messageIds.mergeSort
  rw [← whole] at mem
  exact List.mem_append.1 mem

theorem mem_of_mem_compacted {id : ℤ} (mem : id ∈ ConnectionSession.compacted messageIds) :
    id ∈ messageIds :=
  List.mem_mergeSort.1 (List.mem_of_mem_drop mem)

/-- With at most one id below a bound, the hundred smallest reach up to the bound. -/
theorem le_of_few_below {bound least : ℤ} (long : 300 < messageIds.length)
    (few : (messageIds.filter (· < bound)).length ≤ 1)
    (smallest : ∀ id ∈ messageIds.mergeSort.take 100, id ≤ least) : bound ≤ least := by
  by_contra less
  have all_below : (messageIds.mergeSort.take 100).filter (· < bound) =
      messageIds.mergeSort.take 100 := by
    apply List.filter_eq_self.2
    intro id mem
    have := smallest id mem
    simp only [decide_eq_true_eq]
    omega
  have within : ((messageIds.mergeSort.take 100).filter (· < bound)).length ≤
      (messageIds.mergeSort.filter (· < bound)).length :=
    ((List.take_sublist 100 _).filter _).length_le
  have same : (messageIds.mergeSort.filter (· < bound)).length =
      (messageIds.filter (· < bound)).length :=
    ((List.mergeSort_perm messageIds _).filter _).length_eq
  rw [all_below, same, List.length_take, List.length_mergeSort] at within
  omega

end Compaction

section Track

variable {s : ConnectionSession} {messageIds : List ℤ} {messageId : ℤ}

theorem isMessageIdProcessed_eq_false_iff (odd : messageId % 2 = 1) :
    s.isMessageIdProcessed messageId = false ↔
      (s.minProcessedMessageId = 0 ∨ s.minProcessedMessageId ≤ messageId) ∧
        messageId ∉ s.processedMessageIds := by
  simp [ConnectionSession.isMessageIdProcessed, odd, or_iff_not_imp_left]

theorem Tracked.start (sessionId : ℤ) : Tracked { sessionId } [] :=
  ⟨Int.le_refl 0, by simp, by simp, by simp, by simp⟩

/-- An operation that leaves the ids and the threshold alone. -/
theorem Tracked.of_same {s' : ConnectionSession} (tracked : Tracked s messageIds)
    (least : s'.minProcessedMessageId = s.minProcessedMessageId)
    (ids : s'.processedMessageIds = s.processedMessageIds) : Tracked s' messageIds := by
  obtain ⟨nonneg, positive, listed, below, remembered⟩ := tracked
  rw [← least] at nonneg below remembered
  rw [← ids] at listed below remembered
  exact ⟨nonneg, positive, listed, below, remembered⟩

/-- A new id lies at or above the threshold. -/
theorem Tracked.le_new (positive : 0 < messageId) (odd : messageId % 2 = 1)
    (new : s.isMessageIdProcessed messageId = false) : s.minProcessedMessageId ≤ messageId := by
  rcases ((isMessageIdProcessed_eq_false_iff odd).1 new).1 with zero | le
  · omega
  · exact le

/-- A new id goes to the end of the list, as long as not two of the list lie below the threshold. -/
theorem Tracked.push (tracked : Tracked s messageIds) (positive : 0 < messageId)
    (few : ((s.processedMessageIds ++ [messageId]).filter (· < s.minProcessedMessageId)).length ≤
      1) :
    Tracked { s with processedMessageIds := s.processedMessageIds ++ [messageId] } (messageIds ++
      [messageId]) := by
  refine ⟨tracked.nonneg, ?_, ?_, few, ?_⟩
  · rw [List.forall_mem_append, List.forall_mem_singleton]
    exact ⟨tracked.positive, positive⟩
  · rw [List.forall_mem_append, List.forall_mem_singleton]
    refine ⟨fun id mem => List.mem_append_left _ (tracked.listed id mem), ?_⟩
    exact List.mem_append_right _ (List.mem_singleton_self messageId)
  · rw [List.forall_mem_append, List.forall_mem_singleton]
    refine ⟨fun id mem => ?_, .inl (List.mem_append_right _ (List.mem_singleton_self messageId))⟩
    exact (tracked.remembered id mem).imp_left (List.mem_append_left _)

/-- A compaction raises the threshold to an id that the list keeps, and leaves none below it. -/
theorem Tracked.compact (tracked : Tracked s messageIds)
    (long : 300 < s.processedMessageIds.length) :
    ∃ least, (ConnectionSession.compacted s.processedMessageIds).headD 0 = least ∧
      s.minProcessedMessageId ≤ least ∧
      (ConnectionSession.compacted s.processedMessageIds).filter (· < least) = [] ∧
      Tracked { s with
        processedMessageIds := ConnectionSession.compacted s.processedMessageIds
        minProcessedMessageId := least } messageIds := by
  obtain ⟨least, head, inside, lowest, dropped⟩ := compacted_spec long
  have grows : s.minProcessedMessageId ≤ least := le_of_few_below long tracked.below dropped
  have none_below : (ConnectionSession.compacted s.processedMessageIds).filter (· < least) =
      [] := by
    apply List.filter_eq_nil_iff.2
    intro id mem
    simpa using lowest id mem
  refine ⟨least, head, grows, none_below, Int.le_trans tracked.nonneg grows, tracked.positive, ?_,
    ?_, ?_⟩
  · exact fun id mem => tracked.listed id (mem_of_mem_compacted mem)
  · rw [none_below]
    exact Nat.zero_le 1
  · intro id mem
    by_cases kept : id ∈ ConnectionSession.compacted s.processedMessageIds
    · exact .inl kept
    · right
      change id < least
      rcases tracked.remembered id mem with there | less
      · have le := dropped id ((mem_take_or_compacted there).resolve_right kept)
        have ne : id ≠ least := fun same => kept (same ▸ inside)
        omega
      · omega

/-- The threshold grows, and what was tracked stays tracked. -/
theorem Tracked.add (tracked : Tracked s messageIds) (positive : 0 < messageId)
    (odd : messageId % 2 = 1)
    (new : s.isMessageIdProcessed messageId = false) :
    Tracked (s.addProcessedMessageId messageId) (messageIds ++ [messageId]) ∧
      s.minProcessedMessageId ≤ (s.addProcessedMessageId messageId).minProcessedMessageId := by
  rw [ConnectionSession.addProcessedMessageId]
  split_ifs with long
  · obtain ⟨least, head, grows, none_below, compacted⟩ := tracked.compact long
    rw [head]
    refine ⟨compacted.push positive ?_, grows⟩
    rw [List.filter_append, none_below, List.nil_append]
    exact List.length_filter_le _ _
  · have above : ¬ messageId < s.minProcessedMessageId :=
      Int.not_lt.2 (Tracked.le_new positive odd new)
    refine ⟨tracked.push positive ?_, Int.le_refl _⟩
    rw [List.filter_append, List.filter_cons_of_neg (by simpa using above), List.filter_nil,
      List.append_nil]
    exact tracked.below

theorem Tracked.step (tracked : Tracked s messageIds) {operation : Operation}
    (guarded : operation.Guarded s) :
    Tracked (operation.run s) (operation.added messageIds) ∧
      s.minProcessedMessageId ≤ (operation.run s).minProcessedMessageId := by
  cases operation with
  | addProcessedMessageId messageId =>
    obtain ⟨positive, odd, new⟩ := guarded
    exact tracked.add positive odd new
  | addMessageToConfirm messageId =>
    have same : (s.addMessageToConfirm messageId).minProcessedMessageId = s.minProcessedMessageId ∧
        (s.addMessageToConfirm messageId).processedMessageIds = s.processedMessageIds := by
      rw [ConnectionSession.addMessageToConfirm]
      split_ifs <;> exact ⟨rfl, rfl⟩
    exact ⟨tracked.of_same same.1 same.2, same.1.ge⟩
  | generateConfirmationRequest messageId =>
    have same : (s.generateConfirmationRequest messageId).2.minProcessedMessageId =
      s.minProcessedMessageId ∧
        (s.generateConfirmationRequest messageId).2.processedMessageIds =
          s.processedMessageIds := by
      rw [ConnectionSession.generateConfirmationRequest]
      split_ifs <;> exact ⟨rfl, rfl⟩
    exact ⟨tracked.of_same same.1 same.2, same.1.ge⟩
  | generateMessageSeqNo increment =>
    have same : (s.generateMessageSeqNo increment).2.minProcessedMessageId =
      s.minProcessedMessageId ∧
        (s.generateMessageSeqNo increment).2.processedMessageIds = s.processedMessageIds := by
      cases increment <;> exact ⟨rfl, rfl⟩
    exact ⟨tracked.of_same same.1 same.2, same.1.ge⟩
  | addProcessedSession sessionId => exact ⟨tracked.of_same rfl rfl, Int.le_refl _⟩
  | setSessionId id => exact ⟨tracked.of_same rfl rfl, Int.le_refl _⟩
  | recreateSession newSessionId =>
    exact ⟨⟨tracked.nonneg, by simp [Operation.added],
      by simp [Operation.run, ConnectionSession.recreateSession],
      by simp [Operation.run, ConnectionSession.recreateSession], by simp [Operation.added]⟩,
        Int.le_refl _⟩

theorem Tracked.runAll (tracked : Tracked s messageIds) {operations : List Operation}
    (guarded : Guarded s operations) :
    Tracked (runAll s operations) (operations.foldl Operation.added messageIds) ∧
      s.minProcessedMessageId ≤ (Session.runAll s operations).minProcessedMessageId := by
  induction operations generalizing s messageIds with
  | nil => exact ⟨tracked, Int.le_refl _⟩
  | cons operation rest ih =>
    obtain ⟨tracked', grows⟩ := tracked.step guarded.1
    obtain ⟨end_tracked, end_grows⟩ := ih tracked' guarded.2
    exact ⟨end_tracked, Int.le_trans grows end_grows⟩

theorem Guarded.append {first rest : List Operation} (guarded : Guarded s (first ++ rest)) :
    Guarded s first ∧ Guarded (Session.runAll s first) rest := by
  induction first generalizing s with
  | nil => exact ⟨trivial, guarded⟩
  | cons operation first ih => exact ⟨⟨guarded.1, (ih guarded.2).1⟩, (ih guarded.2).2⟩

theorem Tracked.processed (tracked : Tracked s messageIds) {id : ℤ} (mem : id ∈ messageIds) :
    s.isMessageIdProcessed id = true := by
  rw [ConnectionSession.isMessageIdProcessed]
  rcases tracked.remembered id mem with there | less
  · simp [there]
  · have positive := tracked.positive id mem
    have nonzero : s.minProcessedMessageId ≠ 0 := by omega
    simp [less, nonzero]

theorem Tracked.notProcessed (tracked : Tracked s messageIds) {id : ℤ} (odd : id % 2 = 1)
    (le : s.minProcessedMessageId ≤ id) (mem : id ∉ messageIds) :
    s.isMessageIdProcessed id = false :=
  (isMessageIdProcessed_eq_false_iff odd).2 ⟨.inr le, fun there => mem (tracked.listed id there)⟩

end Track

/-- In a run that adds only new ids, an id that was added stays processed until the session is
created again, the threshold never falls, and an odd id at or above it that was not added is not
processed.  The manager's connections call these functions. -/
theorem replay_protected (sessionId : ℤ) (operations : List Operation)
    (guarded : Guarded { sessionId } operations) :
    (∀ id ∈ addedIds operations, (runAll { sessionId } operations).isMessageIdProcessed id = true) ∧
    (∀ first, first <+: operations → (runAll { sessionId } first).minProcessedMessageId ≤
      (runAll { sessionId } operations).minProcessedMessageId) ∧
    (∀ id, id % 2 = 1 → (runAll { sessionId } operations).minProcessedMessageId ≤ id →
      id ∉ addedIds operations → (runAll { sessionId } operations).isMessageIdProcessed id =
        false) ∧
    CallsSession := by
  obtain ⟨tracked, -⟩ := (Tracked.start sessionId).runAll guarded
  refine ⟨fun id mem => tracked.processed mem, ?_, fun id odd le mem =>
    tracked.notProcessed odd le mem,
    callsSession⟩
  rintro first ⟨rest, rfl⟩
  obtain ⟨guarded_first, guarded_rest⟩ := guarded.append
  have grows := (((Tracked.start sessionId).runAll guarded_first).1.runAll guarded_rest).2
  rwa [runAll, runAll, List.foldl_append]

/-! ## Ids in order -/

section InOrder

variable {s : ConnectionSession} {bound id : ℤ}

/-- The threshold and the ids that are kept are not above the bound. -/
structure ConnectionSession.Below (s : ConnectionSession) (bound : ℤ) : Prop where
  threshold : s.minProcessedMessageId ≤ bound
  listed : ∀ id ∈ s.processedMessageIds, id ≤ bound

theorem ConnectionSession.Below.mono (below : s.Below bound) (le : bound ≤ id) : s.Below id :=
  ⟨Int.le_trans below.threshold le, fun other mem => Int.le_trans (below.listed other mem) le⟩

theorem ConnectionSession.Below.add (below : s.Below bound) (nonneg : 0 ≤ bound) (le : id ≤ bound) :
    (s.addProcessedMessageId id).Below bound := by
  have kept : ∀ other ∈ ConnectionSession.compacted s.processedMessageIds, other ≤ bound := by
    intro other mem
    exact below.listed other (List.mem_mergeSort.1 (List.mem_of_mem_drop mem))
  unfold ConnectionSession.addProcessedMessageId
  split
  · refine ⟨?_, fun other mem => ?_⟩
    · cases found : ConnectionSession.compacted s.processedMessageIds with
      | nil => exact nonneg
      | cons first rest => exact kept first (by simp [found])
    · rcases List.mem_append.1 mem with old | new
      · exact kept other old
      · exact List.mem_singleton.1 new ▸ le
  · refine ⟨below.threshold, fun other mem => ?_⟩
    rcases List.mem_append.1 mem with old | new
    · exact below.listed other old
    · exact List.mem_singleton.1 new ▸ le

/-- Odd ids in increasing order are new. -/
theorem guarded_increasing {ids : List ℤ} (below : s.Below bound) (nonneg : 0 ≤ bound)
    (increasing : (bound :: ids).Pairwise (· < ·)) (odd : ∀ id ∈ ids, id % 2 = 1) :
    Guarded s (ids.map .addProcessedMessageId) := by
  induction ids generalizing s bound with
  | nil => trivial
  | cons id ids ih =>
    obtain ⟨above, later⟩ := List.pairwise_cons.1 increasing
    have less : bound < id := above id (List.mem_cons_self ..)
    have here : id % 2 = 1 := odd id (List.mem_cons_self ..)
    refine ⟨⟨by omega, here, ?_⟩, ?_⟩
    · refine (isMessageIdProcessed_eq_false_iff here).2 ⟨.inr ?_, fun mem => ?_⟩
      · exact Int.le_of_lt (Int.lt_of_le_of_lt below.threshold less)
      · exact absurd (below.listed id mem) (by omega)
    · exact ih ((below.mono (Int.le_of_lt less)).add (by omega) (Int.le_refl id)) (by omega) later
        fun other mem => odd other (List.mem_cons_of_mem _ mem)

theorem ConnectionSession.Below.runAll {ids : List ℤ} (below : s.Below bound) (nonneg : 0 ≤ bound)
    (le : ∀ id ∈ ids, id ≤ bound) :
    (Session.runAll s (ids.map .addProcessedMessageId)).Below bound := by
  induction ids generalizing s with
  | nil => exact below
  | cons id ids ih =>
    rw [List.forall_mem_cons] at le
    exact ih (below.add nonneg le.1) le.2

/-- How many ids are kept when one is added to so many. -/
def lengthAfter (n : ℕ) : ℕ := if 300 < n then n - 100 + 1 else n + 1

theorem length_addProcessedMessageId (s : ConnectionSession) (id : ℤ) :
    (s.addProcessedMessageId id).processedMessageIds.length =
      lengthAfter s.processedMessageIds.length := by
  unfold ConnectionSession.addProcessedMessageId lengthAfter
  split <;> simp [ConnectionSession.compacted]

theorem length_runAll (ids : List ℤ) :
    (runAll s (ids.map .addProcessedMessageId)).processedMessageIds.length =
      lengthAfter^[ids.length] s.processedMessageIds.length := by
  induction ids generalizing s with
  | nil => rfl
  | cons id ids ih =>
    rw [List.length_cons, Function.iterate_succ_apply, ← length_addProcessedMessageId s id]
    exact ih

end InOrder

/-- More ids than are kept. -/
def manyIds : List ℤ := (List.range 303).map fun n : ℕ => 2 * n + 5

/-- All of them stay processed although the list was compacted, and an id that was not added is
not. -/
theorem replay_protected_manyIds :
    (∀ id ∈ manyIds,
      (runAll { sessionId := 1 } (manyIds.map .addProcessedMessageId)).isMessageIdProcessed id =
        true) ∧
    (runAll { sessionId := 1 } (manyIds.map .addProcessedMessageId)).processedMessageIds.length =
      203 ∧
    (runAll { sessionId := 1 } (manyIds.map .addProcessedMessageId)).isMessageIdProcessed 2001 =
      false := by
  have below (bound : ℤ) (nonneg : 0 ≤ bound) :
      ({ sessionId := 1 } : ConnectionSession).Below bound :=
    ⟨nonneg, by simp⟩
  have increasing : ((0 : ℤ) :: manyIds).Pairwise (· < ·) :=
    List.pairwise_cons.2 ⟨by decide +kernel,
      List.pairwise_map.2 (List.pairwise_lt_range.imp fun less => by omega)⟩
  have guarded :=
    guarded_increasing (below 0 (Int.le_refl 0)) (Int.le_refl 0) increasing (by decide +kernel)
  obtain ⟨known, -, unknown, -⟩ := replay_protected 1 _ guarded
  have added : addedIds (manyIds.map .addProcessedMessageId) = manyIds := by decide +kernel
  rw [added] at known unknown
  refine ⟨known, (length_runAll manyIds).trans (by decide +kernel),
    unknown 2001 (by decide) ?_ (by decide +kernel)⟩
  exact ((below 2001 (by decide)).runAll (by decide) (by decide +kernel)).threshold

end Mtproto.Session
