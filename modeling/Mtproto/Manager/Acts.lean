import Mtproto.Manager.Calm

/-!
The next two kinds of changes.  An *edit* touches one request and leaves it where the properties
see it: it keeps its place in the world, and either its message and token or no token at all.  An
*act* may also close connections, renew sessions, change datacenters and drop requests.  The
callbacks, the handshakes and most handlers are runs of acts.
-/

namespace Mtproto.Manager

open Lib Program Relation

/-! ## Frames of calm changes -/

section Frames

variable {env : Env} {s t : ConnectionsManager}

/-- What calm changes leave alone. -/
structure Undisturbed (s t : ConnectionsManager) : Prop where
  requestsQueue : t.requestsQueue = s.requestsQueue
  runningRequests : t.runningRequests = s.runningRequests
  nextRequest : t.nextRequest = s.nextRequest
  currentDatacenterId : t.currentDatacenterId = s.currentDatacenterId
  movingToDatacenterId : t.movingToDatacenterId = s.movingToDatacenterId
  movingAuthorization : t.movingAuthorization = s.movingAuthorization
  networkAvailable : t.networkAvailable = s.networkAvailable
  lastConnectionToken : t.lastConnectionToken = s.lastConnectionToken

theorem Undisturbed.trans {u : ConnectionsManager} (first : Undisturbed s t)
    (second : Undisturbed t u) : Undisturbed s u where
  requestsQueue := second.requestsQueue.trans first.requestsQueue
  runningRequests := second.runningRequests.trans first.runningRequests
  nextRequest := second.nextRequest.trans first.nextRequest
  currentDatacenterId := second.currentDatacenterId.trans first.currentDatacenterId
  movingToDatacenterId := second.movingToDatacenterId.trans first.movingToDatacenterId
  movingAuthorization := second.movingAuthorization.trans first.movingAuthorization
  networkAvailable := second.networkAvailable.trans first.networkAvailable
  lastConnectionToken := second.lastConnectionToken.trans first.lastConnectionToken

theorem Calm.undisturbed (calm : Calm env s t) : Undisturbed s t := by
  cases calm with
  | other same =>
      exact ⟨same.requestsQueue, same.runningRequests, same.nextRequest, same.currentDatacenterId,
        same.movingToDatacenterId, same.movingAuthorization, same.networkAvailable,
        same.lastConnectionToken⟩
  | batch b d messages plain => cases b <;> constructor <;> rfl
  | _ => constructor <;> rfl

theorem Calms.undisturbed (calm : Calms env s t) : Undisturbed s t := by
  induction calm with
  | refl => constructor <;> rfl
  | tail _ last ih => exact ih.trans last.undisturbed

end Frames

/-! ## Edits -/

/-- A request after an edit: an edited request that still has a token still has its message. -/
structure Settled (r r' : Request) : Prop where
  id : r'.id = r.id
  rawRequest : r'.rawRequest = r.rawRequest
  callback : r'.onCompleteRequestCallback = r.onCompleteRequestCallback
  connectionType : r'.connectionType = r.connectionType
  datacenterId : r'.datacenterId = r.datacenterId
  tryDifferentDc :
    r'.hasFlag RequestFlag.tryDifferentDc = r.hasFlag RequestFlag.tryDifferentDc
  startTime : r'.startTime = r.startTime ∨ r'.startTime = 0
  sent : r'.connectionToken = 0 ∨
    (r'.connectionToken = r.connectionToken ∧ r'.messageId = r.messageId)

theorem settled_clear (r : Request) (time : Bool) : Settled r (r.clear time) := by
  refine ⟨rfl, rfl, rfl, rfl, rfl, rfl, ?_, .inl rfl⟩
  cases time
  · exact .inl rfl
  · exact .inr rfl

theorem settled_wrapInLayer (r : Request) (dc : Option Datacenter) (version : Nat) :
    Settled r (wrapInLayer r dc version) := by
  unfold wrapInLayer
  dsimp only
  split
  · split <;> exact ⟨rfl, rfl, rfl, rfl, rfl, rfl, .inl rfl, .inr ⟨rfl, rfl⟩⟩
  · exact ⟨rfl, rfl, rfl, rfl, rfl, rfl, .inl rfl, .inr ⟨rfl, rfl⟩⟩

theorem settled_retryAfterError (r : Request) (code : Int) (text : String) (now : Int) :
    Settled r ((retryAfterError r code text now).getD r) := by
  unfold retryAfterError
  dsimp only
  split
  · exact ⟨rfl, rfl, rfl, rfl, rfl, rfl, .inr rfl, .inr ⟨rfl, rfl⟩⟩
  · split
    · split
      · exact ⟨rfl, rfl, rfl, rfl, rfl, rfl, .inl rfl, .inr ⟨rfl, rfl⟩⟩
      · split
        · exact ⟨rfl, rfl, rfl, rfl, rfl, rfl, .inr rfl, .inr ⟨rfl, rfl⟩⟩
        · split
          · exact ⟨rfl, rfl, rfl, rfl, rfl, rfl, .inr rfl, .inr ⟨rfl, rfl⟩⟩
          · exact ⟨rfl, rfl, rfl, rfl, rfl, rfl, .inl rfl, .inr ⟨rfl, rfl⟩⟩
    · exact ⟨rfl, rfl, rfl, rfl, rfl, rfl, .inl rfl, .inr ⟨rfl, rfl⟩⟩

variable (env : Env)

/-- The changes around one request. -/
inductive Edit (p : Nat) : ConnectionsManager → ConnectionsManager → Prop
  | calm {s t : ConnectionsManager} : Calm env s t → Edit p s t
  | request {s : ConnectionsManager} (f : Request → Request) (settled : ∀ r, Settled r (f r)) :
      Edit p s (s.modifyRequest p f)

abbrev Edits (p : Nat) := ReflTransGen (Edit env p)

/-! ## Acts -/

/-- The changes that handlers make. -/
inductive Act : ConnectionsManager → ConnectionsManager → Prop
  | edit {s t : ConnectionsManager} (p : Nat) : Edit env p s t → Act s t
  | close {s : ConnectionsManager} (c : ConnectionId) (f : Connection → Connection)
      (closed : ∀ x, (f x).stage.isConnected = false)
      (same : ∀ x, (f x).sessionId = x.sessionId ∧ (f x).nextSeqNo = x.nextSeqNo) :
      Act s (s.modifyConnection c f)
  | recreate {s : ConnectionsManager} (c : ConnectionId) (f : Connection → Connection)
      (new : ∀ x, (f x).sessionId = env.newSessionId s.readings ∧ (f x).nextSeqNo = 0)
      (same : ∀ x, (f x).stage = x.stage) :
      Act s { s with
        readings := s.readings + 1
        connections := Function.update s.connections c ((s.connections c).map f) }
  | datacenter {s : ConnectionsManager} (d : Nat) (f : Datacenter → Datacenter)
      (same : ∀ dc, (f dc).isCdnDatacenter = dc.isCdnDatacenter) : Act s (s.modifyDatacenter d f)
  | drop {s : ConnectionsManager} (queue running : List Request)
      (queued : queue.Sublist s.requestsQueue) (ran : running.Sublist s.runningRequests) :
      Act s { s with requestsQueue := queue, runningRequests := running }
  | forget {s : ConnectionsManager} (tasks : List Task) (planned : tasks.Sublist s.pendingTasks) :
      Act s { s with pendingTasks := tasks }

abbrev Acts := ReflTransGen (Act env)

variable {env}

theorem Calms.edits {s t : ConnectionsManager} (p : Nat) (calm : Calms env s t) : Edits env p s t :=
  calm.lift id fun _ _ one => .calm one

theorem Edits.acts {s t : ConnectionsManager} {p : Nat} (edit : Edits env p s t) : Acts env s t :=
  edit.lift id fun _ _ one => .edit p one

theorem Calms.acts {s t : ConnectionsManager} (calm : Calms env s t) : Acts env s t :=
  (calm.edits 0).acts

/-- What is calm is a run of acts. -/
theorem acts_of_calm {α : Type} {m : M α} (kept : Keeps (Calms env) m) : Keeps (Acts env) m :=
  kept.mono fun _ _ calm => calm.acts

theorem acts_modifyRequest {p : Nat} {f : Request → Request} (settled : ∀ r, Settled r (f r)) :
    Keeps (Acts env) (modifyRequest p f) :=
  keeps_update fun _ => .single (.edit p (.request f settled))

theorem acts_modifyDatacenter {d : Nat} {f : Datacenter → Datacenter}
    (same : ∀ dc, (f dc).isCdnDatacenter = dc.isCdnDatacenter) :
    Keeps (Acts env) (modifyDatacenter d f) :=
  keeps_update fun _ => .single (.datacenter d f same)

theorem acts_eraseRunning (p : Nat) : Keeps (Acts env) (eraseRunning p) :=
  keeps_update fun s => .single (.drop s.requestsQueue _ (.refl _) List.eraseP_sublist)

theorem acts_eraseQueued (p : Nat) : Keeps (Acts env) (eraseQueued p) :=
  keeps_update fun s => .single (.drop _ s.runningRequests List.eraseP_sublist (.refl _))

/-! ## Connections and handshakes -/

theorem acts_onDisconnected (c : ConnectionId) (error : Int) :
    Keeps (Acts env) (onDisconnected c error) := by
  refine keeps_bind (keeps_update fun s => .single (.close c _ (fun x => ?_) fun _ => ⟨rfl, rfl⟩))
    fun _ => acts_of_calm (keeps_onConnectionClosed c)
  dsimp only
  split <;> rfl

theorem acts_suspendConnection (c : ConnectionId) (idle : Bool) :
    Keeps (Acts env) (suspendConnection c idle) := by
  refine keeps_bind (keeps_connection c) fun x => ?_
  refine keeps_bind (acts_of_calm (keeps_session fun _ => ⟨rfl, rfl, rfl⟩)) fun _ => ?_
  refine keeps_when fun _ => keeps_bind (keeps_update fun s => .single ?_) fun _ => ?_
  · refine .close c _ (fun x => ?_) fun _ => ⟨rfl, rfl⟩
    cases idle <;> rfl
  · exact keeps_bind (acts_onDisconnected c 0) fun _ => acts_of_calm (keeps_onConnectionClosed c)

theorem acts_reconnect (c : ConnectionId) : Keeps (Acts env) (reconnect env c) := by
  unfold reconnect
  split
  · exact acts_suspendConnection c _
  · exact keeps_bind (acts_suspendConnection c _) fun _ => acts_of_calm (keeps_connect c)

theorem acts_suspendConnections (d : Nat) : Keeps (Acts env) (suspendConnections d) :=
  keeps_each fun _ _ => keeps_bind keeps_read fun _ => keeps_when fun _ =>
    acts_suspendConnection _ _

theorem acts_recreateSession (c : ConnectionId) : Keeps (Acts env) (recreateSession env c) := by
  intro s u t run
  rw [recreateSession, reading_bind] at run
  rw [update_run run]
  exact .single (.recreate c _ (fun _ => ⟨rfl, rfl⟩) fun _ => rfl)

theorem acts_recreateSessions (d : Nat) (type : HandshakeType) :
    Keeps (Acts env) (recreateSessions env d type) :=
  keeps_each fun _ _ => keeps_bind keeps_read fun _ => keeps_when fun _ => acts_recreateSession _

theorem acts_startHandshake (d : Nat) (type : HandshakeType) (reopen : Bool) :
    Keeps (Acts env) (startHandshake env d type reopen) := by
  refine keeps_bind (acts_of_calm (keeps_createConnection _)) fun _ => ?_
  refine keeps_bind (keeps_when fun _ => ?_) fun _ => acts_of_calm (keeps_sendHandshakeData d type)
  exact keeps_bind (acts_suspendConnection _ _) fun _ => acts_of_calm (keeps_connect _)

theorem acts_addHandshake (d : Nat) (type : HandshakeType) (reopen : Bool) :
    Keeps (Acts env) (addHandshake env d type reopen) := by
  refine keeps_bind (keeps_datacenter d) fun dc => keeps_when fun _ => ?_
  exact keeps_bind (acts_modifyDatacenter fun _ => rfl) fun _ => acts_startHandshake d type reopen

theorem acts_beginHandshake (d : Nat) (type : HandshakeType) (reopen : Bool) :
    Keeps (Acts env) (beginHandshake env d type reopen) := by
  refine keeps_bind (keeps_datacenter d) fun dc => ?_
  refine keeps_ite (fun _ => keeps_each fun _ _ => acts_startHandshake d _ reopen) fun _ => ?_
  refine keeps_ite (fun _ => acts_addHandshake d _ reopen) fun _ => keeps_ite (fun _ => ?_) fun _ =>
    keeps_pure _
  exact keeps_ite (fun _ => acts_addHandshake d _ reopen) fun _ =>
    keeps_when fun _ => acts_addHandshake d _ reopen

theorem acts_clearAuthKey (d : Nat) (type : HandshakeType) :
    Keeps (Acts env) (clearAuthKey d type) :=
  acts_modifyDatacenter fun _ => rfl

theorem acts_restartHandshake (c : ConnectionId) (reopen : Bool) :
    Keeps (Acts env) (restartHandshake env c reopen) := by
  refine keeps_bind (keeps_connection c) fun x => keeps_bind (keeps_datacenter _) fun dc => ?_
  refine keeps_when fun _ => keeps_bind (acts_clearAuthKey _ _) fun _ => ?_
  exact keeps_bind (keeps_when fun _ => acts_of_calm keeps_saveConfig) fun _ =>
    acts_beginHandshake _ _ _

theorem acts_onKeyNotFound (c : ConnectionId) : Keeps (Acts env) (onKeyNotFound env c) :=
  keeps_bind (keeps_datacenter _) fun _ =>
    keeps_ite (fun _ => acts_restartHandshake c true) fun _ =>
      acts_reconnect c

theorem acts_exportAuthorization (d : Nat) : Keeps (Acts env) (exportAuthorization d) := by
  refine keeps_bind (keeps_datacenter d) fun dc => keeps_when fun _ => ?_
  exact keeps_bind (acts_modifyDatacenter fun _ => rfl) fun _ =>
    acts_of_calm (keeps_sendNewRequest (proper_generic _))

/-! ## Requests -/

theorem acts_clearRequestsForDatacenter (d : Option Nat) (type : HandshakeType) :
    Keeps (Acts env) (clearRequestsForDatacenter d type) := by
  refine keeps_bind keeps_read fun s => keeps_each fun p _ => ?_
  refine keeps_bind (keeps_runningRequest p) fun r => ?_
  refine keeps_bind (acts_of_calm (keeps_getDatacenterWithId _)) fun found => ?_
  refine keeps_bind (keeps_require _) fun _ => keeps_bind (keeps_require _) fun _ => ?_
  exact keeps_when fun _ => acts_modifyRequest fun r => settled_clear r true

theorem acts_onNewSession (c : ConnectionId) (firstMsgId uniqueId : Int) :
    Keeps (Acts env) (onNewSession c firstMsgId uniqueId) := by
  refine keeps_bind (keeps_connection c) fun x => keeps_when fun _ => keeps_bind keeps_read fun s =>
    ?_
  refine keeps_bind (keeps_each fun p _ => ?_) fun _ => keeps_bind (acts_of_calm keeps_saveConfig)
    fun _ => acts_of_calm (keeps_session fun _ => ⟨rfl, rfl, rfl⟩)
  refine keeps_bind (keeps_runningRequest p) fun r => ?_
  refine keeps_bind (acts_of_calm (keeps_getDatacenterWithId _)) fun found => ?_
  exact keeps_when fun _ => acts_modifyRequest fun r => settled_clear r true

theorem acts_clearResponding (c : ConnectionId) (messageId : Int) (confirm : Bool) :
    Keeps (Acts env) (clearResponding c messageId confirm) := by
  refine keeps_bind keeps_read fun s => ?_
  split
  · refine keeps_when fun _ => keeps_bind (keeps_when fun _ => ?_) fun _ => ?_
    · exact acts_of_calm (keeps_addMessageToConfirm c messageId)
    · exact acts_modifyRequest fun r => settled_clear r true
  · exact keeps_pure _

theorem acts_failBySalt (d : Nat) : Keeps (Acts env) (failBySalt d) := by
  refine keeps_bind keeps_read fun s => keeps_each fun p _ => ?_
  refine keeps_bind (keeps_runningRequest p) fun r => keeps_when fun _ => ?_
  refine keeps_bind (acts_of_calm (keeps_getDatacenterWithId _)) fun found => ?_
  exact keeps_when fun _ => acts_modifyRequest fun _ =>
    ⟨rfl, rfl, rfl, rfl, rfl, rfl, .inl rfl, .inr ⟨rfl, rfl⟩⟩

theorem acts_onMsgsStateInfo (c : ConnectionId) (reqMsgId : Int) :
    Keeps (Acts env) (onMsgsStateInfo c reqMsgId) := by
  refine keeps_bind keeps_read fun s => ?_
  split
  · refine keeps_bind (acts_of_calm (keeps_addMessageToConfirm c _)) fun _ => ?_
    exact keeps_bind (acts_clearResponding c _ _) fun _ =>
      acts_of_calm (keeps_other fun _ => by constructor <;> rfl)
  · exact keeps_pure _

theorem acts_onMsgDetailedInfo (c : ConnectionId) (msgId answerMsgId : Int) :
    Keeps (Acts env) (onMsgDetailedInfo env c msgId answerMsgId) := by
  refine keeps_bind keeps_read fun s => ?_
  split
  · exact acts_of_calm (keeps_addMessageToConfirm c _)
  · refine keeps_ite (fun _ => acts_of_calm (keeps_addMessageToConfirm c _)) fun _ => ?_
    refine keeps_bind (acts_of_calm keeps_reading) fun n => keeps_when fun _ => ?_
    refine keeps_bind (acts_modifyRequest fun _ => ?_) fun _ =>
      acts_of_calm (keeps_requestResend c _)
    exact ⟨rfl, rfl, rfl, rfl, rfl, rfl, .inl rfl, .inr ⟨rfl, rfl⟩⟩

theorem acts_onMsgNewDetailedInfo (c : ConnectionId) (messageId answerMsgId : Int) :
    Keeps (Acts env) (onMsgNewDetailedInfo env c messageId answerMsgId) := by
  refine keeps_bind (keeps_connection c) fun x => keeps_ite (fun _ => ?_) fun _ => ?_
  · exact acts_of_calm (keeps_addMessageToConfirm c _)
  · exact acts_of_calm (keeps_requestResend c _)

/-- The end of a proxy check takes its request with it. -/
theorem acts_endProxyCheck (s : ConnectionsManager) (matching : Request → Bool)
    (active : List ProxyCheckInfo) :
    Acts env s
      { s with
        runningRequests := s.runningRequests.eraseP matching
        proxyActiveChecks := active } := by
  refine .head (.drop s.requestsQueue (s.runningRequests.eraseP matching) (.refl _)
    List.eraseP_sublist) (.single ?_)
  exact .edit 0 (.calm (.other (by constructor <;> rfl)))

theorem acts_onProxyPong (pingId : Int) : Keeps (Acts env) (onProxyPong pingId) := by
  refine keeps_bind keeps_read fun s => ?_
  split
  · exact keeps_pure _
  · exact keeps_bind (keeps_update fun s => acts_endProxyCheck s _ _) fun _ =>
      acts_of_calm keeps_checkNextProxy

theorem acts_onPong (c : ConnectionId) (messageId pingId : Int) :
    Keeps (Acts env) (onPong env c messageId pingId) := by
  refine keeps_bind keeps_read fun s =>
    keeps_ite (fun _ => acts_of_calm (keeps_other fun _ => by constructor <;> rfl))
    fun _ => keeps_ite (fun _ => acts_onProxyPong pingId) fun _ => keeps_when fun _ =>
      acts_of_calm ?_
  refine keeps_bind keeps_reading fun n => keeps_when fun _ => ?_
  exact keeps_bind (keeps_other fun _ => by constructor <;> rfl) fun _ =>
    keeps_when fun _ => keeps_correctTime messageId

theorem acts_finishRequest (d : Nat) (r : Request) (initialised : Bool) :
    Keeps (Acts env) (finishRequest d r initialised) := by
  refine keeps_bind keeps_read fun s => keeps_bind (keeps_datacenter d) fun dc => ?_
  refine keeps_bind (keeps_when fun _ => ?_) fun _ => keeps_bind (acts_eraseRunning _) fun _ =>
    acts_of_calm (keeps_callQueue _)
  refine keeps_bind (acts_modifyDatacenter fun dc => ?_) fun _ => acts_of_calm keeps_saveConfig
  split <;> rfl

/-! ## Tasks and inputs -/

theorem acts_onHandshakeComplete (d : Nat) (type : HandshakeType) (timeDifference : Int) :
    Keeps (Acts env) (onHandshakeComplete env d type timeDifference) := by
  refine keeps_bind (keeps_datacenter d) fun dc => keeps_when fun _ => ?_
  refine keeps_bind (acts_modifyDatacenter fun _ => rfl) fun _ => ?_
  refine keeps_bind (keeps_when fun _ => acts_beginHandshake d _ _) fun _ => ?_
  refine keeps_bind (acts_of_calm keeps_saveConfig) fun _ => keeps_bind keeps_read fun s => ?_
  refine keeps_bind (keeps_when fun _ => ?_) fun _ => ?_
  · refine keeps_bind (acts_of_calm (keeps_other fun _ => by constructor <;> rfl)) fun _ => ?_
    exact keeps_bind (acts_recreateSessions d type) fun _ => acts_clearRequestsForDatacenter _ type
  · exact keeps_bind (keeps_when fun _ => acts_of_calm keeps_checkNextProxy) fun _ =>
      acts_of_calm (keeps_callQueue _)

theorem acts_onProxyConnectionClosed (c : ConnectionId) :
    Keeps (Acts env) (onProxyConnectionClosed c) := by
  refine keeps_bind keeps_read fun s => ?_
  dsimp only
  split
  · exact keeps_pure _
  · exact keeps_when fun _ => keeps_bind (keeps_update fun s => acts_endProxyCheck s _ _) fun _ =>
      acts_of_calm keeps_checkNextProxy

theorem acts_loadCdnConfig (d : Nat) (cached : Bool) :
    Keeps (Acts env) (loadCdnConfig env d cached) := by
  refine keeps_bind keeps_read fun s => keeps_when fun _ => ?_
  refine keeps_bind (acts_of_calm (keeps_other fun _ => by constructor <;> rfl)) fun _ =>
    keeps_when fun _ => ?_
  refine keeps_ite (fun _ => ?_) fun _ => acts_of_calm ?_
  · refine keeps_bind keeps_read fun s => ?_
    exact keeps_bind (keeps_each fun d _ => acts_beginHandshake d _ _) fun _ =>
      acts_of_calm (keeps_other fun _ => by constructor <;> rfl)
  · exact keeps_bind (keeps_other fun _ => by constructor <;> rfl) fun _ =>
      keeps_sendNewRequest (proper_generic _)

/-- A handshake that needs a key is an act, as is the export of an authorisation. -/
theorem acts_finishQueue (call : QueueCall) : Keeps (Acts env) (finishQueue env call) := by
  refine keeps_bind (acts_of_calm (keeps_pingCurrent call)) fun _ => keeps_bind keeps_read fun s =>
    ?_
  refine keeps_bind (keeps_when fun _ => acts_of_calm (keeps_updateDcSettings _ _)) fun _ => ?_
  refine keeps_bind (keeps_each fun needed _ => ?_) fun _ => keeps_when fun _ =>
    keeps_each fun d _ => ?_
  · refine keeps_bind (keeps_datacenter _) fun dc => keeps_bind keeps_read fun s => ?_
    exact keeps_when fun _ => acts_beginHandshake _ _ _
  · refine keeps_bind (keeps_datacenter d) fun dc => keeps_bind keeps_read fun s => ?_
    exact keeps_when fun _ => acts_exportAuthorization d

end Mtproto.Manager
