import Mtproto.Session.ConnectionSession

/-!
# Acknowledgements

What `onConnectionDataReceived` and the container loop of `processServerResponse` do to the session
of a received message.  The other handlers appear through their calls of the session.
-/

namespace Mtproto.Session

/-! ## A message and what it holds -/

/-- The calls of a handler that change the session. -/
inductive SessionCall where
  | addMessageToConfirm (messageId : ℤ)
  | generateConfirmationRequest (messageId : ℤ)
  | generateMessageSeqNo (increment : Bool)
  | addProcessedSession (sessionId : ℤ)
  | recreateSession (newSessionId : ℤ)

mutual

/-- An object as `processServerResponse` sees it. -/
inductive Body where
  | handled (calls : List SessionCall)
  | container (messages : InnerMessages)
  | gzipPacked (object : Body)
  | unparsed

/-- The `TL_message`s of a container. -/
inductive InnerMessages where
  | nil
  | cons (msgId seqno : ℤ) (body : Body) (rest : InnerMessages)

end

mutual

/-- The ids and sequence numbers of the messages inside. -/
def Body.headers : Body → List (ℤ × ℤ)
  | .handled _ => []
  | .container messages => messages.headers
  | .gzipPacked object => object.headers
  | .unparsed => []

def InnerMessages.headers : InnerMessages → List (ℤ × ℤ)
  | .nil => []
  | .cons msgId seqno body rest => (msgId, seqno) :: (body.headers ++ rest.headers)

end

/-- A decrypted message. -/
structure Message where
  sessionId : ℤ
  messageId : ℤ
  seqNo : ℤ
  body : Body

def Message.headers (m : Message) : List (ℤ × ℤ) := (m.messageId, m.seqNo) :: m.body.headers

/-! ## Receiving -/

/-- The session while a message is received, and the confirmations that were built meanwhile. -/
structure Receiving where
  session : ConnectionSession
  acks : List Confirmation := []

namespace Receiving

variable (r : Receiving)

/-- A message with an odd number wants a confirmation. -/
def arrive (messageId seqNo : ℤ) : Receiving :=
  if seqNo % 2 ≠ 0 then { r with session := r.session.addMessageToConfirm messageId } else r

def addProcessedMessageId (messageId : ℤ) : Receiving :=
  { r with session := r.session.addProcessedMessageId messageId }

/-- `sendMessagesToConnectionWithConfirmation` without other messages. -/
def confirm (messageId : ℤ) : Receiving where
  session := (r.session.generateConfirmationRequest messageId).2
  acks := r.acks ++ (r.session.generateConfirmationRequest messageId).1.toList

end Receiving

def SessionCall.run (r : Receiving) : SessionCall → Receiving
  | .addMessageToConfirm messageId => { r with session := r.session.addMessageToConfirm messageId }
  | .generateConfirmationRequest messageId => r.confirm messageId
  | .generateMessageSeqNo increment =>
      { r with session := (r.session.generateMessageSeqNo increment).2 }
  | .addProcessedSession sessionId => { r with session := r.session.addProcessedSession sessionId }
  | .recreateSession newSessionId => { r with session := r.session.recreateSession newSessionId }

mutual

def processServerResponse : Body → Receiving → Receiving
  | .handled calls, r => calls.foldl SessionCall.run r
  | .container messages, r => processMessages messages r
  | .gzipPacked object, r => processServerResponse object r
  | .unparsed, r => r

/-- The loop over a container: processed messages are skipped. -/
def processMessages : InnerMessages → Receiving → Receiving
  | .nil, r => r
  | .cons msgId seqno body rest, r =>
      if (r.arrive msgId seqno).session.isMessageIdProcessed msgId then
        processMessages rest (r.arrive msgId seqno)
      else
        processMessages rest
          ((processServerResponse body (r.arrive msgId seqno)).addProcessedMessageId msgId)

end

/-- An object that was parsed is handled and remembered; the push connection confirms at once. -/
def processObject (push : Bool) (ackId : ℤ) (m : Message) (r : Receiving) : Receiving :=
  match m.body with
  | .unparsed => r
  | body =>
      if push then ((processServerResponse body r).addProcessedMessageId m.messageId).confirm ackId
      else (processServerResponse body r).addProcessedMessageId m.messageId

/-- `onConnectionDataReceived` behind the decryption.  `ackId` is the id that a confirmation would
get. -/
def onConnectionDataReceived (push : Bool) (ackId : ℤ) (m : Message) (s : ConnectionSession) :
    Receiving :=
  if m.sessionId ≠ s.sessionId then { session := s }
  else if s.isMessageIdProcessed m.messageId then
    (Receiving.arrive { session := s } m.messageId m.seqNo).confirm ackId
  else processObject push ackId m (Receiving.arrive { session := s } m.messageId m.seqNo)

/-! ## What is confirmed stays confirmed -/

/-- The id waits for the next confirmation or is in one that was built. -/
def Receiving.Covers (r : Receiving) (messageId : ℤ) : Prop :=
  messageId ∈ r.session.messagesIdsForConfirmation ∨ ∃ ack ∈ r.acks, messageId ∈ ack.msgIds

instance (r : Receiving) (messageId : ℤ) : Decidable (r.Covers messageId) :=
  inferInstanceAs (Decidable (_ ∨ _))

def SessionCall.IsRenewal : SessionCall → Prop
  | .recreateSession _ => True
  | _ => False

section Covers

variable {r : Receiving} {messageId : ℤ}

theorem Receiving.Covers.of_pending {r' : Receiving} (covers : r.Covers messageId)
    (pending : messageId ∈ r.session.messagesIdsForConfirmation →
      messageId ∈ r'.session.messagesIdsForConfirmation)
    (acks : r'.acks = r.acks) : r'.Covers messageId := by
  rcases covers with waiting | built
  · exact .inl (pending waiting)
  · right
    rwa [acks]

theorem mem_addMessageToConfirm {s : ConnectionSession}
    (mem : messageId ∈ s.messagesIdsForConfirmation) (id : ℤ) :
    messageId ∈ (s.addMessageToConfirm id).messagesIdsForConfirmation := by
  rw [ConnectionSession.addMessageToConfirm]
  split_ifs
  · exact mem
  · exact List.mem_append_left _ mem

theorem addMessageToConfirm_new {s : ConnectionSession} (new : messageId ∉ s.processedMessageIds) :
    messageId ∈ (s.addMessageToConfirm messageId).messagesIdsForConfirmation := by
  rw [ConnectionSession.addMessageToConfirm, if_neg (by simpa using new)]
  exact List.mem_append_right _ (List.mem_singleton_self _)

theorem messagesIdsForConfirmation_addProcessedMessageId (s : ConnectionSession) (id : ℤ) :
    (s.addProcessedMessageId id).messagesIdsForConfirmation = s.messagesIdsForConfirmation := by
  rw [ConnectionSession.addProcessedMessageId]
  split_ifs <;> rfl

/-- A confirmation takes every waiting id along. -/
theorem confirmation_of_pending {s : ConnectionSession}
    (mem : messageId ∈ s.messagesIdsForConfirmation) (ackId : ℤ) :
    ∃ ack, (s.generateConfirmationRequest ackId).1 = some ack ∧ messageId ∈ ack.msgIds := by
  rw [ConnectionSession.generateConfirmationRequest, if_neg (List.ne_nil_of_mem mem)]
  exact ⟨_, rfl, mem⟩

theorem Receiving.Covers.arrive (covers : r.Covers messageId) (id seqNo : ℤ) :
    (r.arrive id seqNo).Covers messageId := by
  rw [Receiving.arrive]
  split_ifs
  · exact covers.of_pending (fun mem => mem_addMessageToConfirm mem id) rfl
  · exact covers

theorem Receiving.Covers.addProcessedMessageId (covers : r.Covers messageId) (id : ℤ) :
    (r.addProcessedMessageId id).Covers messageId := by
  refine covers.of_pending (fun mem => ?_) rfl
  change messageId ∈ (r.session.addProcessedMessageId id).messagesIdsForConfirmation
  rwa [messagesIdsForConfirmation_addProcessedMessageId]

theorem Receiving.Covers.confirm (covers : r.Covers messageId) (ackId : ℤ) :
    (r.confirm ackId).Covers messageId := by
  right
  rcases covers with waiting | ⟨ack, built, mem⟩
  · obtain ⟨ack, now, mem⟩ := confirmation_of_pending waiting ackId
    refine ⟨ack, List.mem_append_right _ ?_, mem⟩
    rw [now]
    exact List.mem_singleton_self ack
  · exact ⟨ack, List.mem_append_left _ built, mem⟩

theorem Receiving.Covers.call (covers : r.Covers messageId) {call : SessionCall}
    (stays : ¬ call.IsRenewal) :
    (call.run r).Covers messageId := by
  cases call with
  | addMessageToConfirm id =>
      exact covers.of_pending (fun mem => mem_addMessageToConfirm mem id) rfl
  | generateConfirmationRequest ackId => exact covers.confirm ackId
  | generateMessageSeqNo increment => cases increment <;> exact covers
  | addProcessedSession sessionId => exact covers
  | recreateSession newSessionId => exact absurd trivial stays

theorem Receiving.Covers.calls (covers : r.Covers messageId) {calls : List SessionCall}
    (stays : ∀ call ∈ calls, ¬ call.IsRenewal) :
    (calls.foldl SessionCall.run r).Covers messageId := by
  induction calls generalizing r with
  | nil => exact covers
  | cons call rest ih =>
    have next := covers.call (stays call List.mem_cons_self)
    exact ih next fun call mem => stays call (List.mem_cons_of_mem _ mem)

end Covers

/-! ## When every message is answered -/

/-- An odd number is no duplicate whose confirmation is gone. -/
def Receiving.Confirmable (r : Receiving) (messageId seqNo : ℤ) : Prop :=
  seqNo % 2 ≠ 0 → messageId ∉ r.session.processedMessageIds ∨ r.Covers messageId

/-- The messages inside of a skipped one are covered as they are. -/
def Receiving.CoversAll (r : Receiving) (headers : List (ℤ × ℤ)) : Prop :=
  ∀ header ∈ headers, header.2 % 2 ≠ 0 → r.Covers header.1

/-- One of the messages wants a confirmation. -/
def Owes (headers : List (ℤ × ℤ)) : Prop := ∃ header ∈ headers, header.2 % 2 ≠ 0

mutual

/-- No message with an odd number is a duplicate that was confirmed in an earlier receipt, and no
handler renews the session once a message of the receipt wants a confirmation, which is what `owed`
says. -/
def Body.Answerable : Body → Prop → Receiving → Prop
  | .handled calls, owed, _ => owed → ∀ call ∈ calls, ¬ call.IsRenewal
  | .container messages, owed, r => messages.Answerable owed r
  | .gzipPacked object, owed, r => object.Answerable owed r
  | .unparsed, _, _ => True

def InnerMessages.Answerable : InnerMessages → Prop → Receiving → Prop
  | .nil, _, _ => True
  | .cons msgId seqno body rest, owed, r =>
      r.Confirmable msgId seqno ∧
        if (r.arrive msgId seqno).session.isMessageIdProcessed msgId then
          (r.arrive msgId seqno).CoversAll body.headers ∧
            rest.Answerable (owed ∨ Owes ((msgId, seqno) :: body.headers)) (r.arrive msgId seqno)
        else
          body.Answerable (owed ∨ seqno % 2 ≠ 0) (r.arrive msgId seqno) ∧
            rest.Answerable (owed ∨ Owes ((msgId, seqno) :: body.headers))
              ((processServerResponse body (r.arrive msgId seqno)).addProcessedMessageId msgId)

end

/-- The same of a message as a whole. -/
def Message.Answerable (m : Message) (s : ConnectionSession) : Prop :=
  Receiving.Confirmable { session := s } m.messageId m.seqNo ∧
    if s.isMessageIdProcessed m.messageId then
      (Receiving.arrive { session := s } m.messageId m.seqNo).CoversAll m.body.headers
    else m.body.Answerable (m.seqNo % 2 ≠ 0) (Receiving.arrive { session := s } m.messageId m.seqNo)

theorem Receiving.Confirmable.arrive {r : Receiving} {messageId seqNo : ℤ}
    (confirmable : r.Confirmable messageId seqNo)
    (odd : seqNo % 2 ≠ 0) : (r.arrive messageId seqNo).Covers messageId := by
  rcases confirmable odd with new | covers
  · rw [Receiving.arrive, if_pos odd]
    exact .inl (addMessageToConfirm_new new)
  · exact covers.arrive messageId seqNo

mutual

/-- While a message wants its confirmation, what is covered stays covered. -/
theorem Body.covers : ∀ (body : Body) (owed : Prop) (r : Receiving), body.Answerable owed r → owed →
    ∀ messageId, r.Covers messageId → (processServerResponse body r).Covers messageId
  | .handled calls, owed, r, answerable, owing, messageId, covers => by
      rw [Body.Answerable] at answerable
      rw [processServerResponse]
      exact covers.calls (answerable owing)
  | .container messages, owed, r, answerable, owing, messageId, covers => by
      rw [Body.Answerable] at answerable
      rw [processServerResponse]
      exact messages.covers owed r answerable owing messageId covers
  | .gzipPacked object, owed, r, answerable, owing, messageId, covers => by
      rw [Body.Answerable] at answerable
      rw [processServerResponse]
      exact object.covers owed r answerable owing messageId covers
  | .unparsed, _, r, _, _, messageId, covers => by
      rwa [processServerResponse]

theorem InnerMessages.covers : ∀ (messages : InnerMessages) (owed : Prop) (r : Receiving),
    messages.Answerable owed r → owed →
      ∀ messageId, r.Covers messageId → (processMessages messages r).Covers messageId
  | .nil, _, r, _, _, messageId, covers => by
      rwa [processMessages]
  | .cons msgId seqno body rest, owed, r, answerable, owing, messageId, covers => by
      rw [InnerMessages.Answerable] at answerable
      obtain ⟨-, answerable⟩ := answerable
      have arrived := covers.arrive msgId seqno
      rw [processMessages]
      split_ifs at answerable ⊢ with known
      · exact rest.covers _ _ answerable.2 (.inl owing) messageId arrived
      · have handled := body.covers _ _ answerable.1 (.inl owing) messageId arrived
        exact rest.covers _ _ answerable.2 (.inl owing) messageId
          (handled.addProcessedMessageId msgId)

end

mutual

/-- Every message inside is covered once the object is processed. -/
theorem Body.coversAll : ∀ (body : Body) (owed : Prop) (r : Receiving), body.Answerable owed r →
    (processServerResponse body r).CoversAll body.headers
  | .handled calls, _, r, _ => by
      intro header mem
      rw [Body.headers] at mem
      exact absurd mem List.not_mem_nil
  | .container messages, owed, r, answerable => by
      rw [Body.Answerable] at answerable
      rw [processServerResponse, Body.headers]
      exact messages.coversAll owed r answerable
  | .gzipPacked object, owed, r, answerable => by
      rw [Body.Answerable] at answerable
      rw [processServerResponse, Body.headers]
      exact object.coversAll owed r answerable
  | .unparsed, _, r, _ => by
      intro header mem
      rw [Body.headers] at mem
      exact absurd mem List.not_mem_nil

theorem InnerMessages.coversAll : ∀ (messages : InnerMessages) (owed : Prop) (r : Receiving),
    messages.Answerable owed r → (processMessages messages r).CoversAll messages.headers
  | .nil, _, r, _ => by
      intro header mem
      rw [InnerMessages.headers] at mem
      exact absurd mem List.not_mem_nil
  | .cons msgId seqno body rest, owed, r, answerable => by
      rw [InnerMessages.Answerable] at answerable
      obtain ⟨confirmable, answerable⟩ := answerable
      rw [processMessages, InnerMessages.headers]
      intro header mem odd
      split_ifs at answerable ⊢ with known
      · obtain ⟨inside, answerable⟩ := answerable
        rcases List.mem_cons.1 mem with rfl | mem
        · have owing : Owes ((msgId, seqno) :: body.headers) := ⟨_, List.mem_cons_self, odd⟩
          exact rest.covers _ _ answerable (.inr owing) _ (confirmable.arrive odd)
        · rcases List.mem_append.1 mem with mem | mem
          · have owing : Owes ((msgId, seqno) :: body.headers) :=
              ⟨header, List.mem_cons_of_mem _ mem, odd⟩
            exact rest.covers _ _ answerable (.inr owing) _ (inside header mem odd)
          · exact rest.coversAll _ _ answerable header mem odd
      · obtain ⟨inside, answerable⟩ := answerable
        rcases List.mem_cons.1 mem with rfl | mem
        · have owing : Owes ((msgId, seqno) :: body.headers) := ⟨_, List.mem_cons_self, odd⟩
          have handled := body.covers _ _ inside (.inr odd) _ (confirmable.arrive odd)
          exact rest.covers _ _ answerable (.inr owing) _ (handled.addProcessedMessageId msgId)
        · rcases List.mem_append.1 mem with mem | mem
          · have owing : Owes ((msgId, seqno) :: body.headers) :=
              ⟨header, List.mem_cons_of_mem _ mem, odd⟩
            have handled := body.coversAll _ _ inside header mem odd
            exact rest.covers _ _ answerable (.inr owing) _ (handled.addProcessedMessageId msgId)
          · exact rest.coversAll _ _ answerable header mem odd

end

theorem processObject_cases (push : Bool) (ackId : ℤ) (m : Message) (r : Receiving) :
    (m.body = .unparsed ∧ processObject push ackId m r = r) ∨
      processObject push ackId m r =
        (processServerResponse m.body r).addProcessedMessageId m.messageId ∨
      processObject push ackId m r =
        ((processServerResponse m.body r).addProcessedMessageId m.messageId).confirm ackId := by
  obtain ⟨sessionId, messageId, seqNo, body⟩ := m
  cases push <;> cases body <;> simp [processObject]

section Receipt

variable {m : Message} {s : ConnectionSession} {r : Receiving}

theorem covers_processObject (push : Bool) (ackId : ℤ) {messageId : ℤ}
    (covers : (processServerResponse m.body r).Covers messageId) :
    (processObject push ackId m r).Covers messageId := by
  have processed := covers.addProcessedMessageId m.messageId
  rcases processObject_cases push ackId m r with ⟨unparsed, same⟩ | same | same
  · rw [unparsed, processServerResponse] at covers
    rwa [same]
  · rwa [same]
  · rw [same]
    exact processed.confirm ackId

/-- What one receipt leaves: every message of it is confirmed or will be. -/
theorem Message.Answerable.coversAll (answerable : m.Answerable s)
    (same : m.sessionId = s.sessionId) (push : Bool)
    (ackId : ℤ) : (onConnectionDataReceived push ackId m s).CoversAll m.headers := by
  obtain ⟨confirmable, inside⟩ := answerable
  intro header mem odd
  rw [onConnectionDataReceived, if_neg (by simpa using same)]
  split_ifs at inside ⊢ with known
  · rcases List.mem_cons.1 mem with rfl | mem
    · exact (confirmable.arrive odd).confirm ackId
    · exact (inside header mem odd).confirm ackId
  · apply covers_processObject push ackId
    rcases List.mem_cons.1 mem with rfl | mem
    · exact m.body.covers _ _ inside odd _ (confirmable.arrive odd)
    · exact m.body.coversAll _ _ inside header mem odd

/-- A message that comes alone is answered exactly if it is no duplicate whose confirmation is
gone. -/
theorem covers_alone_iff (push : Bool) (ackId messageId seqNo : ℤ) {calls : List SessionCall}
    (odd : seqNo % 2 ≠ 0)
    (stays : ∀ call ∈ calls, ¬ call.IsRenewal) :
    (onConnectionDataReceived push ackId ⟨s.sessionId, messageId, seqNo, .handled calls⟩ s).Covers
      messageId ↔
      messageId ∉ s.processedMessageIds ∨ messageId ∈ s.messagesIdsForConfirmation := by
  constructor
  · intro covers
    by_contra gone
    obtain ⟨known, confirmed⟩ := not_or.1 gone
    have known := Classical.not_not.1 known
    have processed : s.isMessageIdProcessed messageId = true := by
      simp [ConnectionSession.isMessageIdProcessed, known]
    have skipped : Receiving.arrive { session := s } messageId seqNo = { session := s } := by
      rw [Receiving.arrive, if_pos odd, ConnectionSession.addMessageToConfirm,
        if_pos (by simpa using known)]
    rw [onConnectionDataReceived, if_neg (by simp), if_pos processed, skipped] at covers
    rcases covers with waiting | ⟨ack, built, mem⟩
    · change messageId ∈ (s.generateConfirmationRequest ackId).2.messagesIdsForConfirmation
        at waiting
      rw [ConnectionSession.generateConfirmationRequest] at waiting
      split_ifs at waiting with empty
      · exact confirmed waiting
      · exact List.not_mem_nil waiting
    · change ack ∈ [] ++ (s.generateConfirmationRequest ackId).1.toList at built
      rw [ConnectionSession.generateConfirmationRequest] at built
      split_ifs at built with empty
      · exact List.not_mem_nil built
      · rw [List.mem_singleton.1 built] at mem
        exact confirmed mem
  · intro fresh
    have confirmable : Receiving.Confirmable { session := s } messageId seqNo :=
      fun _ => fresh.imp_right Or.inl
    have answerable : Message.Answerable ⟨s.sessionId, messageId, seqNo, .handled calls⟩ s := by
      refine ⟨confirmable, ?_⟩
      split_ifs
      · intro header mem
        exact absurd mem List.not_mem_nil
      · exact fun _ => stays
    exact answerable.coversAll rfl push ackId _ List.mem_cons_self odd

end Receipt

/-! ## Runs -/

/-- What happens to the session of a connection. -/
inductive Event where
  | received (ackId : ℤ) (m : Message)
  | other (operation : Operation)

def Event.after (push : Bool) (s : ConnectionSession) : Event → ConnectionSession
  | .received ackId m => (onConnectionDataReceived push ackId m s).session
  | .other operation => operation.run s

/-- Every receipt of the run can answer its messages. -/
def AnswerableRun (push : Bool) : ConnectionSession → List Event → Prop
  | _, [] => True
  | s, event :: rest =>
      (∀ ackId m, event = .received ackId m → m.sessionId = s.sessionId → m.Answerable s) ∧
        AnswerableRun push (event.after push s) rest

/-- After every receipt of the run its content messages wait for a confirmation or are in one that
the receipt built. -/
def Acknowledged (push : Bool) : ConnectionSession → List Event → Prop
  | _, [] => True
  | s, event :: rest =>
      (∀ ackId m, event = .received ackId m → m.sessionId = s.sessionId →
          (onConnectionDataReceived push ackId m s).CoversAll m.headers) ∧
        Acknowledged push (event.after push s) rest

theorem AnswerableRun.acknowledged {push : Bool} {s : ConnectionSession} {events : List Event}
    (answerable : AnswerableRun push s events) : Acknowledged push s events := by
  induction events generalizing s with
  | nil => trivial
  | cons event rest ih =>
    obtain ⟨now, later⟩ := answerable
    refine ⟨?_, ih later⟩
    intro ackId m received same
    exact (now ackId m received same).coversAll same push ackId

/-- In a run whose receipts hold no duplicate that was confirmed before, every content message is
confirmed by its receipt or waits.  A confirmation takes every waiting id along, and a message that
comes alone is answered only if it is no such duplicate. -/
theorem acknowledged_unless_resent (push : Bool) (sessionId : ℤ) (events : List Event)
    (answerable : AnswerableRun push { sessionId } events) :
    Acknowledged push { sessionId } events ∧
      (∀ (s : ConnectionSession) (ackId : ℤ), ∀ messageId ∈ s.messagesIdsForConfirmation,
        ∃ ack, (s.generateConfirmationRequest ackId).1 = some ack ∧ messageId ∈ ack.msgIds) ∧
      ∀ (s : ConnectionSession) (ackId messageId seqNo : ℤ) (calls : List SessionCall),
        seqNo % 2 ≠ 0 →
        (∀ call ∈ calls, ¬ call.IsRenewal) →
        ((onConnectionDataReceived push ackId ⟨s.sessionId, messageId, seqNo,
          .handled calls⟩ s).Covers messageId ↔
          messageId ∉ s.processedMessageIds ∨ messageId ∈ s.messagesIdsForConfirmation) := by
  refine ⟨answerable.acknowledged, ?_, ?_⟩
  · intro s ackId messageId mem
    exact confirmation_of_pending mem ackId
  · intro s ackId messageId seqNo calls odd stays
    exact covers_alone_iff push ackId messageId seqNo odd stays

/-- A message, its confirmation, a container with a packed message in it, a message whose handler
renews the session and wants no confirmation, and one of the new session. -/
theorem acknowledged_unless_resent_renewed :
    Acknowledged false { sessionId := 1 }
      [.received 4 ⟨1, 5, 1, .handled []⟩, .other (.generateConfirmationRequest 8),
        .received 12 ⟨1, 13, 3, .container (.cons 9 5 (.gzipPacked (.handled [])) .nil)⟩,
        .received 16 ⟨1, 17, 6, .handled [.recreateSession 2]⟩,
        .received 20 ⟨2, 21, 1, .handled []⟩] := by
  refine (acknowledged_unless_resent false 1 _ ?_).1
  refine ⟨?_, ?_, ?_, ?_, ?_, trivial⟩
  · intro ackId m received _
    cases received
    refine ⟨fun _ => .inl (by decide), ?_⟩
    rw [if_neg (by decide)]
    exact fun _ => List.forall_mem_nil _
  · intro ackId m received
    cases received
  · intro ackId m received _
    cases received
    refine ⟨fun _ => .inl (by decide), ?_⟩
    rw [if_neg (by decide)]
    refine ⟨fun _ => .inl (by decide), ?_⟩
    rw [if_neg (by decide)]
    exact ⟨fun _ => List.forall_mem_nil _, trivial⟩
  · intro ackId m received _
    cases received
    refine ⟨fun odd => absurd rfl odd, ?_⟩
    rw [if_neg (by decide)]
    exact fun odd => absurd rfl odd
  · intro ackId m received _
    cases received
    refine ⟨fun _ => .inl (by decide), ?_⟩
    rw [if_neg (by decide)]
    exact fun _ => List.forall_mem_nil _

/-- The server sends the message again because the confirmation got lost. -/
theorem not_acknowledged_resent :
    ¬ Acknowledged false { sessionId := 1 }
      [.received 4 ⟨1, 5, 1, .handled []⟩, .other (.generateConfirmationRequest 8),
        .received 12 ⟨1, 5, 1, .handled []⟩] := by
  rintro ⟨-, -, again, -⟩
  have covers := again 12 _ rfl rfl (5, 1) List.mem_cons_self (by decide)
  revert covers
  decide

end Mtproto.Session
