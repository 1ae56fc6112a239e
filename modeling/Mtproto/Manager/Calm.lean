import Mtproto.Manager.Machine

/-!
What the commands of the manager do to the parts of the state that its properties are about, said
once.  Sending is a run of *calm* changes: these leave the requests, the datacenters and the token
of every connected connection alone.  A property that each kind of calm change keeps is kept by all
the commands below.
-/

namespace Mtproto.Manager

open Lib Program Relation

/-! ## Calm changes -/

/-- Nothing the properties are about has changed. -/
structure SameCore (s t : ConnectionsManager) : Prop where
  requestsQueue : t.requestsQueue = s.requestsQueue
  runningRequests : t.runningRequests = s.runningRequests
  nextRequest : t.nextRequest = s.nextRequest
  datacenters : t.datacenters = s.datacenters
  currentDatacenterId : t.currentDatacenterId = s.currentDatacenterId
  movingToDatacenterId : t.movingToDatacenterId = s.movingToDatacenterId
  movingAuthorization : t.movingAuthorization = s.movingAuthorization
  connections : t.connections = s.connections
  lastConnectionToken : t.lastConnectionToken = s.lastConnectionToken
  lastOutgoingMessageId : t.lastOutgoingMessageId = s.lastOutgoingMessageId
  networkAvailable : t.networkAvailable = s.networkAvailable
  pushSessionId : t.pushSessionId = s.pushSessionId
  pendingTasks : t.pendingTasks = s.pendingTasks
  sessionsToDestroy : t.sessionsToDestroy = s.sessionsToDestroy
  lastDestroySessionRequestTime : t.lastDestroySessionRequestTime = s.lastDestroySessionRequestTime
  batch : t.batch = s.batch
  trace : t.trace = s.trace
  readings : s.readings ≤ t.readings

/-- The requests that the manager sends itself: none for a push connection, and no callback of its
own for a download. -/
def proper (connectionType : Nat) (callback : Callback) : Prop :=
  connectionSlot connectionType ≠ some .push ∧
    (hasBits connectionType ConnectionType.download = true → callback.isPlain = true)

instance (connectionType : Nat) (callback : Callback) :
    Decidable (proper connectionType callback) :=
  inferInstanceAs (Decidable (_ ∧ _))

def Request.Proper (r : Request) : Prop := proper r.connectionType r.onCompleteRequestCallback

def Task.Proper : Task → Prop
  | .sendRequest args => proper args.connectionType args.onComplete
  | _ => True

/-- Whether a stage has a token. -/
def Stage.isConnected : Stage → Bool
  | .connected _ => true
  | _ => false

variable (env : Env)

/-- The changes that sending is made of. -/
inductive Calm : ConnectionsManager → ConnectionsManager → Prop
  | other {s t : ConnectionsManager} : SameCore s t → Calm s t
  | schedule {s : ConnectionsManager} (task : Task)
      (known : (∀ r ∈ s.runningRequests, r.Proper) → task.Proper) :
      Calm s { s with pendingTasks := s.pendingTasks ++ [task] }
  | create {s : ConnectionsManager} (c : ConnectionId) (new : s.connections c = none) :
      Calm s
        { s with
          readings := s.readings + 1
          connections := Function.update s.connections c
            (some { sessionId := env.newSessionId s.readings }) }
  | opening {s : ConnectionsManager} (c : ConnectionId) (f : Connection → Connection)
      (closed : ∀ x, s.connections c = some x → x.stage.isConnected = false)
      (stays : ∀ x, x.stage.isConnected = false → (f x).stage.isConnected = false)
      (same : ∀ x, (f x).sessionId = x.sessionId ∧ (f x).nextSeqNo = x.nextSeqNo) :
      Calm s (s.modifyConnection c f)
  | session {s : ConnectionsManager} (c : ConnectionId) (f : Connection → Connection)
      (same : ∀ x, (f x).stage = x.stage ∧ (f x).sessionId = x.sessionId ∧
        (f x).nextSeqNo = x.nextSeqNo) :
      Calm s (s.modifyConnection c f)
  | newId {s : ConnectionsManager} (msgId : Int) (later : s.lastOutgoingMessageId < msgId) :
      Calm s { s with readings := s.readings + 1, lastOutgoingMessageId := msgId }
  -- the messages that sending itself adds have no content
  | message {s : ConnectionsManager} (c : ConnectionId) (x : Connection) (msgId : Int)
      (exist : s.connections c = some x) (later : s.lastOutgoingMessageId < msgId)
      (aligned : msgId % 4 = 0) :
      Calm s
        { s with
          readings := s.readings + 1
          lastOutgoingMessageId := msgId
          trace := s.trace ++ [.assigned x.sessionId msgId (x.nextSeqNo * 2 % 2 ^ 32)] }
  | send {s : ConnectionsManager} (c : ConnectionId) (msgIds : List Int) :
      Calm s (s.record (.sendData c (s.token c) msgIds))
  | batch {s : ConnectionsManager} (b : Batch) (d : Nat) (messages : List NetworkMessage)
      (plain : ∀ m ∈ messages, m.destroySession = none) :
      Calm s (s.setBatch b ((s.batch b).insert d (((s.batch b).find d).getD [] ++ messages)))
  | nullEntry {s : ConnectionsManager} (unknown : s.datacenters.find s.currentDatacenterId = none) :
      Calm s { s with datacenters := s.datacenters.insert s.currentDatacenterId none }

/-- Runs of calm changes. -/
abbrev Calms := ReflTransGen (Calm env)

variable {env}

theorem keeps_other {f : ConnectionsManager → ConnectionsManager} (same : ∀ s, SameCore s (f s)) :
    Keeps (Calms env) (update f) :=
  keeps_update fun s => .single (.other (same s))

theorem keeps_session {c : ConnectionId} {f : Connection → Connection}
    (same : ∀ x, (f x).stage = x.stage ∧ (f x).sessionId = x.sessionId ∧
      (f x).nextSeqNo = x.nextSeqNo) : Keeps (Calms env) (modifyConnection c f) :=
  keeps_update fun _ => .single (.session c f same)

theorem keeps_scheduleTask {task : Task} (own : task.Proper) :
    Keeps (Calms env) (scheduleTask task) :=
  keeps_update fun _ => .single (.schedule task fun _ => own)

/-! ## Pointers and readings -/

section Reads

variable {R : ConnectionsManager → ConnectionsManager → Prop} [IsPreorder ConnectionsManager R]

@[simp] theorem keeps_datacenter (d : Nat) : Keeps R (datacenter d) :=
  keeps_bind keeps_read fun _ => keeps_require _

@[simp] theorem keeps_connection (c : ConnectionId) : Keeps R (connection c) :=
  keeps_bind keeps_read fun _ => keeps_require _

@[simp] theorem keeps_runningRequest (p : Nat) : Keeps R (runningRequest p) :=
  keeps_bind keeps_read fun _ => keeps_require _

@[simp] theorem keeps_queuedRequest (p : Nat) : Keeps R (queuedRequest p) :=
  keeps_bind keeps_read fun _ => keeps_require _

@[simp] theorem keeps_hasAuthKey (d : Nat) : Keeps R (hasAuthKey d) :=
  keeps_bind (keeps_datacenter d) fun _ => keeps_pure _

end Reads

theorem reading_bind {β : Type} (f : Nat → M β) (s : ConnectionsManager) :
    (reading >>= f) s = f s.readings { s with readings := s.readings + 1 } := rfl

theorem connection_run {s t : ConnectionsManager} {c : ConnectionId} {x : Connection}
    (run : connection c s = some (x, t)) : s.connections c = some x ∧ t = s :=
  require_run ((read_bind _ s).symm.trans run)

theorem connection_bind {β : Type} {s t : ConnectionsManager} {c : ConnectionId}
    {f : Connection → M β}
    {b : β} (run : (connection c >>= f) s = some (b, t)) :
    ∃ x, s.connections c = some x ∧ f x s = some (b, t) := by
  obtain ⟨x, u, found, rest⟩ := bind_run run
  obtain ⟨exist, rfl⟩ := connection_run found
  exact ⟨x, exist, rest⟩

theorem datacenter_run {s t : ConnectionsManager} {d : Nat} {x : Datacenter}
    (run : datacenter d s = some (x, t)) : s.datacenter d = some x ∧ t = s :=
  require_run ((read_bind _ s).symm.trans run)

theorem datacenter_bind {β : Type} {s t : ConnectionsManager} {d : Nat} {f : Datacenter → M β}
    {b : β} (run : (datacenter d >>= f) s = some (b, t)) :
    ∃ x, s.datacenter d = some x ∧ f x s = some (b, t) := by
  obtain ⟨x, u, found, rest⟩ := bind_run run
  obtain ⟨exist, rfl⟩ := datacenter_run found
  exact ⟨x, exist, rest⟩

theorem runningRequest_run {s t : ConnectionsManager} {p : Nat} {x : Request}
    (run : runningRequest p s = some (x, t)) :
    s.runningRequests.find? (fun r => r.id == p) = some x ∧ t = s :=
  require_run ((read_bind _ s).symm.trans run)

theorem runningRequest_bind {β : Type} {s t : ConnectionsManager} {p : Nat} {f : Request → M β}
    {b : β} (run : (runningRequest p >>= f) s = some (b, t)) :
    ∃ x, s.runningRequests.find? (fun r => r.id == p) = some x ∧ f x s = some (b, t) := by
  obtain ⟨x, u, found, rest⟩ := bind_run run
  obtain ⟨exist, rfl⟩ := runningRequest_run found
  exact ⟨x, exist, rest⟩

theorem queuedRequest_run {s t : ConnectionsManager} {p : Nat} {x : Request}
    (run : queuedRequest p s = some (x, t)) :
    s.requestsQueue.find? (fun r => r.id == p) = some x ∧ t = s :=
  require_run ((read_bind _ s).symm.trans run)

theorem queuedRequest_bind {β : Type} {s t : ConnectionsManager} {p : Nat} {f : Request → M β}
    {b : β} (run : (queuedRequest p >>= f) s = some (b, t)) :
    ∃ x, s.requestsQueue.find? (fun r => r.id == p) = some x ∧ f x s = some (b, t) := by
  obtain ⟨x, u, found, rest⟩ := bind_run run
  obtain ⟨exist, rfl⟩ := queuedRequest_run found
  exact ⟨x, exist, rest⟩

theorem sameCore_reading (s : ConnectionsManager) :
    SameCore s { s with readings := s.readings + 1 } := by
  refine ⟨rfl, rfl, rfl, rfl, rfl, rfl, rfl, rfl, rfl, rfl, rfl, rfl, rfl, rfl, rfl, rfl, rfl, ?_⟩
  exact Nat.le_succ s.readings

theorem keeps_reading : Keeps (Calms env) reading :=
  keeps_bind keeps_read fun _ => keeps_bind (keeps_other sameCore_reading) fun _ => keeps_pure _

/-! ## Message ids -/

theorem alignedId_emod (messageId : Int) : alignedId messageId % 4 = 0 := by
  unfold alignedId
  omega

theorem le_alignedId (messageId : Int) : messageId ≤ alignedId messageId := by
  unfold alignedId
  omega

/-- Ids grow, whatever the clock says. -/
theorem lt_nextMessageId (s : ConnectionsManager) (time : Int) :
    s.lastOutgoingMessageId < s.nextMessageId time := by
  unfold ConnectionsManager.nextMessageId
  split
  · have := le_alignedId (s.lastOutgoingMessageId + 1)
    omega
  · have := le_alignedId time
    omega

theorem generateMessageId_run {s t : ConnectionsManager} {msgId : Int}
    (run : generateMessageId env s = some (msgId, t)) :
    s.lastOutgoingMessageId < msgId ∧ msgId % 4 = 0 ∧
      t = { s with readings := s.readings + 1, lastOutgoingMessageId := msgId } := by
  rw [generateMessageId, reading_bind, read_bind] at run
  dsimp only at run
  split at run
  · rw [update_bind] at run
    obtain ⟨same, last⟩ := pure_run run
    rw [same]
    exact ⟨lt_nextMessageId _ _, alignedId_emod _, last⟩
  · simp at run

theorem keeps_generateMessageId : Keeps (Calms env) (generateMessageId env) := by
  intro s msgId t run
  obtain ⟨later, -, rfl⟩ := generateMessageId_run run
  exact .single (.newId msgId later)

/-- The connection after a message took its sequence number. -/
def Connection.numbered (x : Connection) (increment : Bool) : Connection :=
  if increment then { x with nextSeqNo := (x.nextSeqNo + 1) % 2 ^ 32 } else x

/-- The sequence number of the next message. -/
def Connection.seqNo (x : Connection) (increment : Bool) : Nat :=
  (x.nextSeqNo * 2 + if increment then 1 else 0) % 2 ^ 32

theorem generateMessageSeqNo_run {s t : ConnectionsManager} {c : ConnectionId} {increment : Bool}
    {seqNo : Nat} (run : generateMessageSeqNo c increment s = some (seqNo, t)) :
    ∃ x, s.connections c = some x ∧ seqNo = x.seqNo increment ∧
      t = { s with
        connections := Function.update s.connections c (some (x.numbered increment)) } := by
  obtain ⟨x, exist, run⟩ := connection_bind run
  dsimp only at run
  obtain ⟨y, v, written, ended⟩ := bind_run run
  obtain ⟨value, last⟩ := pure_run ended
  refine ⟨x, exist, value, ?_⟩
  rw [last]
  rcases when_run written with ⟨holds, written⟩ | ⟨fails, unchanged⟩
  · rw [update_run written]
    simp [ConnectionsManager.modifyConnection, Connection.numbered, exist, holds]
  · rw [unchanged]
    simp [Connection.numbered, fails, ← exist]

theorem assigned_run {s t : ConnectionsManager} {c : ConnectionId} {msgId : Int} {seqNo : Nat}
    {u : Unit} (run : assigned c msgId seqNo s = some (u, t)) :
    ∃ x, s.connections c = some x ∧ t = s.record (.assigned x.sessionId msgId seqNo) := by
  obtain ⟨x, exist, noted⟩ := connection_bind run
  exact ⟨x, exist, update_run noted⟩

theorem keeps_newMessage (c : ConnectionId) : Keeps (Calms env) (newMessage env c false) := by
  intro s m t run
  obtain ⟨msgId, u, generated, run1⟩ := bind_run run
  obtain ⟨later, aligned, hu⟩ := generateMessageId_run generated
  obtain ⟨seqNo, v, numbered, run2⟩ := bind_run run1
  obtain ⟨x, exist, hseq, hv⟩ := generateMessageSeqNo_run numbered
  obtain ⟨y, w, noted, run3⟩ := bind_run run2
  obtain ⟨z, here, hw⟩ := assigned_run noted
  have exist : s.connections c = some x := by rw [hu] at exist; exact exist
  have same : Function.update s.connections c (some (x.numbered false)) = s.connections := by
    simp [Connection.numbered, ← exist]
  rw [hv, hu] at here hw
  simp only [same] at here hw
  rw [exist] at here
  cases here
  rw [(pure_run run3).2, hw, hseq]
  exact .single (.message c x msgId exist later aligned)

/-! ## Connections -/

theorem keeps_generateConfirmationRequest (c : ConnectionId) :
    Keeps (Calms env) (generateConfirmationRequest env c) := by
  unfold generateConfirmationRequest
  refine keeps_bind (keeps_connection c) fun session => keeps_ite (fun _ => keeps_pure _) fun _ =>
    ?_
  refine keeps_bind (keeps_newMessage c) fun m => keeps_bind keeps_reading fun n => ?_
  exact keeps_bind (keeps_session fun _ => ⟨rfl, rfl, rfl⟩) fun _ => keeps_pure _

theorem keeps_addMessageToConfirm (c : ConnectionId) (messageId : Int) :
    Keeps (Calms env) (addMessageToConfirm c messageId) :=
  keeps_session fun x => by split <;> exact ⟨rfl, rfl, rfl⟩

theorem keeps_addProcessedMessageId (c : ConnectionId) (messageId : Int) :
    Keeps (Calms env) (addProcessedMessageId c messageId) :=
  keeps_session fun x => by split <;> exact ⟨rfl, rfl, rfl⟩

theorem keeps_onConnectionClosed (c : ConnectionId) : Keeps (Calms env) (onConnectionClosed c) := by
  unfold onConnectionClosed
  split
  · exact keeps_other fun _ => by constructor <;> rfl
  · exact keeps_scheduleTask trivial
  · exact keeps_pure _

/-- Losing a socket that never got a token is calm. -/
theorem onDisconnected_calm {s t : ConnectionsManager} {c : ConnectionId} {error : Int} {u : Unit}
    (closed : ∀ x, s.connections c = some x → x.stage.isConnected = false)
    (run : onDisconnected c error s = some (u, t)) : Calms env s t := by
  rw [onDisconnected, modifyConnection, update_bind] at run
  refine .trans (.single (.opening c _ closed ?_ ?_)) (keeps_onConnectionClosed c _ _ _ run)
  · intro x _
    dsimp only
    split <;> rfl
  · intro x
    exact ⟨rfl, rfl⟩

/-- A socket is opened: the connection waits for it, or has lost it again at once. -/
theorem openSocket_calm {s t : ConnectionsManager} {c : ConnectionId} {media : Bool} {u : Unit}
    (closed : ∀ x, s.connections c = some x → x.stage.isConnected = false)
    (run : (do
      modifyConnection c fun connection =>
        { connection with stage := .connecting, isMediaConnection := media }
      let n ← reading
      when (env.opens n = false) (onDisconnected c (-1)) : M Unit) s = some (u, t)) :
    Calms env s t := by
  rw [modifyConnection, update_bind, reading_bind] at run
  refine .trans (.single (.opening c (fun connection =>
    { connection with stage := .connecting, isMediaConnection := media }) closed
    (fun _ _ => rfl) fun _ => ⟨rfl, rfl⟩)) ?_
  have waits : ∀ y, (s.modifyConnection c fun connection =>
      { connection with stage := .connecting, isMediaConnection := media }).connections c =
        some y → y.stage.isConnected = false := by
    intro y here
    simp only [ConnectionsManager.modifyConnection, Function.update_self,
      Option.map_eq_some_iff] at here
    obtain ⟨x, -, rfl⟩ := here
    rfl
  generalize s.modifyConnection c _ = v at run waits ⊢
  refine .head (.other (t := { v with readings := v.readings + 1 }) (sameCore_reading v)) ?_
  rcases when_run run with ⟨-, run⟩ | ⟨-, rfl⟩
  · exact onDisconnected_calm waits run
  · rfl

theorem keeps_connect (c : ConnectionId) : Keeps (Calms env) (connect env c) := by
  intro s u t run
  obtain ⟨x, exist, run⟩ := connection_bind run
  rw [read_bind] at run
  split at run
  · rw [(pure_run run).2]
  · split at run
    · exact keeps_onConnectionClosed c _ _ _ run
    · cases stage : x.stage with
      | connected _ | connecting =>
          rw [stage] at run
          rw [(pure_run run).2]
      | idle | reconnecting | suspended =>
          rw [stage] at run
          obtain ⟨dc, -, run⟩ := datacenter_bind run
          refine openSocket_calm (fun y same => ?_) run
          rw [exist] at same
          cases same
          rw [stage]
          rfl

theorem keeps_createConnection (c : ConnectionId) : Keeps (Calms env) (createConnection env c) := by
  intro s u t run
  rw [createConnection, read_bind] at run
  rcases when_run run with ⟨new, run⟩ | ⟨-, rfl⟩
  · rw [reading_bind] at run
    rw [update_run run]
    exact .single (.create c new)
  · rfl

theorem keeps_getConnection (c : ConnectionId) (create : Bool) :
    Keeps (Calms env) (getConnection env c create) := by
  unfold getConnection
  refine keeps_bind (keeps_hasAuthKey _) fun key => keeps_ite (fun _ => ?_) fun _ => keeps_pure _
  refine keeps_bind (keeps_when fun _ => ?_) fun _ => keeps_bind keeps_read fun _ => keeps_pure _
  exact keeps_bind (keeps_createConnection c) fun _ => keeps_connect c

/-- A lookup that does not create the connection changes nothing. -/
theorem getConnection_lookup {s t : ConnectionsManager} {c : ConnectionId}
    {found : Option ConnectionId} (run : getConnection env c false s = some (found, t)) :
    t = s := by
  obtain ⟨key, u, checked, rest⟩ := bind_run run
  obtain ⟨dc, -, ended⟩ := datacenter_bind checked
  have same := (pure_run ended).2
  split at rest
  · exact (pure_run rest).2.trans same
  · exact (pure_run rest).2.trans same

theorem keeps_getConnectionByType (d connectionType : Nat) (create : Bool) :
    Keeps (Calms env) (getConnectionByType env d connectionType create) := by
  unfold getConnectionByType
  split
  · exact keeps_getConnection _ _
  · exact keeps_pure _

/-! ## Sending -/

theorem keeps_sendData (c : ConnectionId) (msgIds : List Int) :
    Keeps (Calms env) (sendData env c msgIds) := by
  intro s u t run
  rw [sendData, read_bind, record, update_bind] at run
  refine .trans (.single (.send c msgIds)) ?_
  refine keeps_bind (R := Calms env) (keeps_connection c) (fun x => ?_) _ _ _ run
  exact keeps_when fun _ => keeps_connect c

theorem keeps_createRequestsData (requests : List NetworkMessage) (c : ConnectionId) :
    Keeps (Calms env) (createRequestsData env requests c) := by
  unfold createRequestsData
  refine keeps_bind (keeps_hasAuthKey _) fun key => keeps_ite (fun _ => ?_) fun _ => keeps_pure _
  split
  · refine keeps_bind keeps_reading fun n => keeps_bind keeps_read fun s => ?_
    refine keeps_ite (fun _ => ?_) fun _ => keeps_pure _
    exact keeps_bind (keeps_newMessage c) fun _ => keeps_pure _
  · exact keeps_bind (keeps_newMessage c) fun _ => keeps_pure _

theorem keeps_sendPacket (messages : List NetworkMessage) (c : ConnectionId) :
    Keeps (Calms env) (sendPacket env messages c) := by
  refine keeps_bind (keeps_createRequestsData _ c) fun data => ?_
  split
  · exact keeps_sendData c _
  · exact keeps_pure _

theorem keeps_sendChunks (c : ConnectionId) (current : List NetworkMessage) (size : Nat)
    (messages : List NetworkMessage) :
    Keeps (Calms env) (sendChunks env c current size messages) := by
  induction messages generalizing current size with
  | nil => exact keeps_pure _
  | cons message rest ih =>
      unfold sendChunks
      exact keeps_ite (fun _ => keeps_bind (keeps_sendPacket _ c) fun _ => ih _ _) fun _ => ih _ _

theorem keeps_sendMessagesToConnection (messages : List NetworkMessage) (c : ConnectionId) :
    Keeps (Calms env) (sendMessagesToConnection env messages c) :=
  keeps_sendChunks c [] 0 messages

theorem keeps_sendMessagesToConnectionWithConfirmation (messages : List NetworkMessage)
    (c : ConnectionId) :
    Keeps (Calms env) (sendMessagesToConnectionWithConfirmation env messages c) :=
  keeps_bind (keeps_generateConfirmationRequest c) fun _ => keeps_sendMessagesToConnection _ c

theorem keeps_sendPing (d : Nat) (usePushConnection : Bool) :
    Keeps (Calms env) (sendPing env d usePushConnection) := by
  unfold sendPing
  refine keeps_bind keeps_read fun s => keeps_when fun _ => ?_
  refine keeps_bind (keeps_getConnection _ _) fun found => ?_
  split
  · exact keeps_pure _
  · refine keeps_bind keeps_read fun s => keeps_when fun _ => ?_
    refine keeps_bind (keeps_other fun _ => by constructor <;> rfl) fun _ =>
      keeps_bind (keeps_when fun _ => ?_) fun _ => ?_
    · exact keeps_bind keeps_reading fun _ => keeps_other fun _ => by constructor <;> rfl
    · refine keeps_bind (keeps_newMessage _) fun m => keeps_bind keeps_reading fun n => ?_
      refine keeps_bind (keeps_createRequestsData _ _) fun data => ?_
      refine keeps_bind (keeps_when fun _ => keeps_other fun _ => by constructor <;> rfl) fun _ =>
        ?_
      split
      · exact keeps_sendData _ _
      · exact keeps_pure _

theorem keeps_sendHandshakeData (d : Nat) (type : HandshakeType) :
    Keeps (Calms env) (sendHandshakeData env d type) :=
  keeps_bind keeps_generateMessageId fun _ =>
    keeps_bind (keeps_createConnection _) fun _ => keeps_sendData _ _

/-! ## Requests of the manager itself -/

theorem keeps_getDatacenterWithId (id : Nat) : Keeps (Calms env) (getDatacenterWithId id) := by
  intro s d t run
  rw [getDatacenterWithId, read_bind] at run
  split at run
  · cases entry : s.datacenters.find s.currentDatacenterId with
    | none =>
        rw [entry] at run
        rw [(pure_run run).2]
        exact .single (.nullEntry entry)
    | some known =>
        rw [entry] at run
        cases known with
        | none => rw [(pure_run run).2]
        | some dc => rw [(pure_run run).2]
  · rw [(pure_run run).2]

theorem keeps_saveConfig : Keeps (Calms env) saveConfig := by
  refine keeps_bind keeps_read fun s => keeps_bind (keeps_getDatacenterWithId _) fun found => ?_
  refine keeps_when fun _ => keeps_bind keeps_read fun s => keeps_each fun d _ => ?_
  exact keeps_bind (keeps_datacenter d) fun _ => keeps_pure _

theorem keeps_newRequestToken : Keeps (Calms env) newRequestToken :=
  keeps_bind keeps_read fun _ => keeps_bind (keeps_other fun _ => by constructor <;> rfl) fun _ =>
    keeps_pure _

theorem keeps_sendRequest {args : RequestArgs} (own : proper args.connectionType args.onComplete) :
    Keeps (Calms env) (sendRequest args) := by
  refine keeps_bind keeps_read fun s => keeps_when fun _ => keeps_bind ?_ fun token => ?_
  · split
    · exact keeps_newRequestToken
    · exact keeps_pure _
  · exact keeps_scheduleTask own

theorem keeps_sendNewRequest {object : Query} {callback : Callback} {flags d type : Nat}
    (own : proper type callback) :
    Keeps (Calms env) (sendNewRequest object callback flags d type) :=
  keeps_bind keeps_newRequestToken fun _ => keeps_sendRequest own

theorem proper_generic (callback : Callback) : proper ConnectionType.generic callback :=
  ⟨by decide, fun download => absurd download (by decide)⟩

theorem proper_temp (callback : Callback) : proper ConnectionType.temp callback :=
  ⟨by decide, fun download => absurd download (by decide)⟩

theorem keeps_callQueue (call : QueueCall) : Keeps (Calms env) (callQueue call) :=
  keeps_other fun _ => by constructor <;> rfl

theorem keeps_requestSaltsForDatacenter (d : Nat) :
    Keeps (Calms env) (requestSaltsForDatacenter d) := by
  refine keeps_bind keeps_read fun s => keeps_when fun _ => ?_
  exact keeps_bind (keeps_other fun _ => by constructor <;> rfl) fun _ =>
    keeps_sendNewRequest (proper_generic _)

theorem keeps_updateDcSettings (dcNum : Nat) (workaround : Bool) :
    Keeps (Calms env) (updateDcSettings env dcNum workaround) := by
  refine keeps_bind keeps_read fun s => keeps_when fun _ => keeps_bind keeps_reading fun n => ?_
  refine keeps_bind (keeps_other fun s => ?_) fun _ => keeps_sendNewRequest ?_
  · split <;> constructor <;> rfl
  · split
    · exact proper_temp _
    · exact proper_generic _

theorem keeps_checkNextProxy : Keeps (Calms env) checkNextProxy := by
  refine keeps_bind keeps_read fun s => ?_
  split
  · exact keeps_pure _
  · exact keeps_bind (keeps_other fun _ => by constructor <;> rfl) fun _ =>
      keeps_scheduleTask trivial

theorem keeps_correctTime (messageId : Int) : Keeps (Calms env) (correctTime env messageId) :=
  keeps_bind keeps_reading fun _ => keeps_other fun _ => by constructor <;> rfl

theorem keeps_requestResend (c : ConnectionId) (answerMsgId : Int) :
    Keeps (Calms env) (requestResend env c answerMsgId) := by
  refine keeps_bind (keeps_newMessage c) fun m => keeps_bind keeps_reading fun n => ?_
  exact keeps_bind (keeps_other fun _ => by constructor <;> rfl) fun _ =>
    keeps_sendMessagesToConnection _ c

/-! ## Messages of the queue -/

theorem keeps_addMessageToDatacenter (d : Nat) {message : NetworkMessage} (b : Batch)
    (plain : message.destroySession = none) :
    Keeps (Calms env) (addMessageToDatacenter d message b) :=
  keeps_update fun _ => .single (.batch b d [message] (by simpa using plain))

theorem keeps_dispatch (r : Request) (c : ConnectionId) : Keeps (Calms env) (dispatch env r c) := by
  unfold dispatch
  split
  · exact keeps_addMessageToDatacenter _ _ rfl
  · exact keeps_addMessageToDatacenter _ _ rfl
  · exact keeps_addMessageToDatacenter _ _ rfl
  · exact keeps_sendMessagesToConnection _ c
  · exact keeps_sendMessagesToConnectionWithConfirmation _ c
  · exact keeps_sendMessagesToConnectionWithConfirmation _ c
  · exact keeps_pure _

theorem keeps_addUnknownDatacenter (id : Nat) : Keeps (Calms env) (addUnknownDatacenter id) :=
  keeps_other fun s => by split <;> constructor <;> rfl

theorem keeps_addNeededDatacenter (d connectionType : Nat) :
    Keeps (Calms env) (addNeededDatacenter d connectionType) :=
  keeps_other fun s => by split <;> constructor <;> rfl

theorem keeps_addUnauthorizedDatacenter (d : Nat) :
    Keeps (Calms env) (addUnauthorizedDatacenter d) :=
  keeps_other fun s => by split <;> constructor <;> rfl

theorem keeps_countRunning (r : Request) (datacenterId : Nat) :
    Keeps (Calms env) (countRunning r datacenterId) :=
  keeps_other fun s => by split <;> constructor <;> rfl

theorem keeps_leavesForDifferentDc (currentTime : Int) (r : Request) :
    Keeps (Calms env) (leavesForDifferentDc currentTime r) := by
  refine keeps_bind keeps_read fun s => keeps_ite (fun _ => ?_) fun _ => keeps_pure _
  exact keeps_bind (keeps_when fun _ => keeps_other fun _ => by constructor <;> rfl) fun _ =>
    keeps_pure _

theorem keeps_admitRequest (r : Request) (datacenterId : Nat) :
    Keeps (Calms env) (admitRequest r datacenterId) := by
  have counted : ∀ f : ConnectionsManager → ConnectionsManager, (∀ s, SameCore s (f s)) →
      Keeps (Calms env) (update f >>= fun _ => (pure true : M Bool)) :=
    fun f same => keeps_bind (keeps_other same) fun _ => keeps_pure _
  refine keeps_bind keeps_read fun s => ?_
  split
  · exact keeps_ite (fun _ => keeps_pure _) fun _ => counted _ fun _ => by constructor <;> rfl
  · exact keeps_ite (fun _ => keeps_pure _) fun _ => counted _ fun _ => by constructor <;> rfl
  · exact keeps_ite (fun _ => keeps_pure _) fun _ => counted _ fun _ => by constructor <;> rfl
  · exact keeps_pure _
  · exact keeps_pure _
  · exact keeps_ite (fun _ => keeps_pure _) fun _ => counted _ fun _ => by constructor <;> rfl
  · exact keeps_pure _

theorem keeps_addConfirmation (d : Nat) (b : Batch) :
    Keeps (Calms env) (addConfirmation env d b) := by
  intro s u t run
  obtain ⟨dc, -, run⟩ := datacenter_bind run
  rw [read_bind] at run
  rcases when_run run with ⟨absent, run⟩ | ⟨-, rfl⟩
  · obtain ⟨found, v, looked, run⟩ := bind_run run
    refine .trans (keeps_getConnection _ _ _ _ _ looked) ?_
    have same : v = s := getConnection_lookup looked
    subst same
    cases found with
    | none => rw [(pure_run run).2]
    | some c =>
        dsimp only at run
        rw [read_bind] at run
        obtain ⟨session, -, run⟩ := connection_bind run
        rcases when_run run with ⟨-, run⟩ | ⟨-, rfl⟩
        · rw [update_run run]
          have entry : Calm env v _ := .batch b d [] (by simp)
          rw [absent] at entry
          exact .single entry
        · rfl
  · rfl

theorem keeps_confirmationLoop : Keeps (Calms env) (confirmationLoop env) := by
  refine keeps_bind keeps_read fun s => keeps_each fun d _ => ?_
  refine keeps_bind (keeps_addConfirmation d _) fun _ => ?_
  exact keeps_bind (keeps_addConfirmation d _) fun _ => keeps_addConfirmation d _

theorem keeps_sendBatch (call : QueueCall) (b : Batch) (entry : Nat × List NetworkMessage) :
    Keeps (Calms env) (sendBatch env call b entry) := by
  refine keeps_bind (keeps_getDatacenterWithId _) fun found => ?_
  split
  · exact keeps_pure _
  · refine keeps_bind keeps_read fun s => keeps_bind (keeps_getConnection _ _) fun connection => ?_
    exact keeps_bind (keeps_require _) fun c =>
      keeps_sendMessagesToConnectionWithConfirmation _ c

theorem keeps_sendBatches (call : QueueCall) (b : Batch) :
    Keeps (Calms env) (sendBatches env call b) :=
  keeps_bind keeps_read fun _ => keeps_each fun entry _ => keeps_sendBatch call b entry

theorem keeps_sendAllBatches (call : QueueCall) : Keeps (Calms env) (sendAllBatches env call) := by
  refine keeps_bind (keeps_sendBatches call _) fun _ => ?_
  exact keeps_bind (keeps_sendBatches call _) fun _ => keeps_sendBatches call _

theorem keeps_pingCurrent (call : QueueCall) : Keeps (Calms env) (pingCurrent env call) := by
  refine keeps_bind keeps_read fun s => keeps_when fun _ => ?_
  refine keeps_bind (keeps_getDatacenterWithId _) fun found => ?_
  exact keeps_bind (keeps_require _) fun d => keeps_sendPing d _

end Mtproto.Manager
