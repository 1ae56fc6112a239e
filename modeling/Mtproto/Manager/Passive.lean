import Mtproto.Manager.Acts

/-!
Most commands are *passive*: they leave the proxy checks and the counters of `processRequestQueue`
alone, and the callback of a download stays one of the application.  Instances carry the property
through sequencing, so that a command is passive as soon as its steps are.
-/

namespace Mtproto.Manager

open Lib Program

/-! ## Passive commands -/

/-- The proxy check that a task is going to make. -/
def Task.check : Task → Option ProxyCheckInfo
  | .checkProxy info => some info
  | _ => none

/-- The proxy checks that are still to be made by tasks. -/
def ConnectionsManager.pendingChecks (s : ConnectionsManager) : List ProxyCheckInfo :=
  s.pendingTasks.filterMap (·.check)

/-- A download has no callback of the manager's own. -/
def plain (connectionType : Nat) (callback : Callback) : Prop :=
  hasBits connectionType ConnectionType.download = true → callback.isPlain = true

def Request.Plain (r : Request) : Prop := plain r.connectionType r.onCompleteRequestCallback

def Task.Plain : Task → Prop
  | .sendRequest args => plain args.connectionType args.onComplete
  | _ => True

structure ConnectionsManager.PlainDownloads (s : ConnectionsManager) : Prop where
  requestsQueue : ∀ r ∈ s.requestsQueue, r.Plain
  runningRequests : ∀ r ∈ s.runningRequests, r.Plain
  pendingTasks : ∀ task ∈ s.pendingTasks, task.Plain

/-- The proxy checks are where they were, and downloads stay plain. -/
structure Apart (s t : ConnectionsManager) : Prop where
  proxyCheckQueue : t.proxyCheckQueue = s.proxyCheckQueue
  proxyActiveChecks : t.proxyActiveChecks = s.proxyActiveChecks
  pendingChecks : t.pendingChecks = s.pendingChecks
  lastPingProxyId : t.lastPingProxyId = s.lastPingProxyId
  plain : s.PlainDownloads → t.PlainDownloads

/-- So are the counters of the running requests. -/
structure Aside (s t : ConnectionsManager) : Prop extends Apart s t where
  downloads : t.downloadRunningRequestCount = s.downloadRunningRequestCount
  generics : t.genericRunningRequestCount = s.genericRunningRequestCount
  uploads : t.uploadRunningRequestCount = s.uploadRunningRequestCount

instance : IsPreorder ConnectionsManager Apart where
  refl _ := ⟨rfl, rfl, rfl, rfl, id⟩
  trans _ _ _ first second :=
    ⟨second.proxyCheckQueue.trans first.proxyCheckQueue,
      second.proxyActiveChecks.trans first.proxyActiveChecks,
      second.pendingChecks.trans first.pendingChecks,
        second.lastPingProxyId.trans first.lastPingProxyId,
      second.plain ∘ first.plain⟩

instance : IsPreorder ConnectionsManager Aside where
  refl s := ⟨refl s, rfl, rfl, rfl⟩
  trans _ _ _ first second :=
    ⟨IsTrans.trans _ _ _ first.toApart second.toApart, second.downloads.trans first.downloads,
      second.generics.trans first.generics, second.uploads.trans first.uploads⟩

/-- The command leaves the proxy checks and the counters alone. -/
class Passive {α : Type} (m : M α) : Prop where
  keeps : Keeps Aside m

theorem Passive.apart {α : Type} {m : M α} [passive : Passive m] : Keeps Apart m :=
  passive.keeps.mono fun _ _ aside => aside.toApart

section Rules

variable {α β : Type}

instance passive_pure (a : α) : Passive (pure a : M α) := ⟨keeps_pure a⟩

instance passive_read : Passive (read : M ConnectionsManager) := ⟨keeps_read⟩

instance passive_fault : Passive (fault : M α) := ⟨keeps_fault⟩

instance passive_require (o : Option α) : Passive (require o : M α) := ⟨keeps_require o⟩

instance passive_bind {m : M α} {f : α → M β} [first : Passive m] [rest : ∀ a, Passive (f a)] :
    Passive (m >>= f) :=
  ⟨keeps_bind first.keeps fun a => (rest a).keeps⟩

instance passive_ite {c : Prop} [Decidable c] {m n : M α} [pos : Passive m] [neg : Passive n] :
    Passive (if c then m else n) :=
  ⟨keeps_ite (fun _ => pos.keeps) fun _ => neg.keeps⟩

instance passive_when {c : Prop} [Decidable c] {m : M Unit} [body : Passive m] :
    Passive (when c m) :=
  ⟨keeps_when fun _ => body.keeps⟩

instance passive_each {f : α → M Unit} {as : List α} [body : ∀ a, Passive (f a)] :
    Passive (each f as) :=
  ⟨keeps_each fun a _ => (body a).keeps⟩

theorem passive_update {f : ConnectionsManager → ConnectionsManager} (aside : ∀ s, Aside s (f s)) :
    Passive (update f) :=
  ⟨keeps_update aside⟩

end Rules

/-! ## Fields -/

section Fields

theorem Aside.of_same {s t : ConnectionsManager} (queue : t.proxyCheckQueue = s.proxyCheckQueue)
    (active : t.proxyActiveChecks = s.proxyActiveChecks) (tasks : t.pendingTasks = s.pendingTasks)
    (last : t.lastPingProxyId = s.lastPingProxyId)
    (requestsQueue : t.requestsQueue = s.requestsQueue)
    (running : t.runningRequests = s.runningRequests)
    (downloads : t.downloadRunningRequestCount = s.downloadRunningRequestCount)
    (generics : t.genericRunningRequestCount = s.genericRunningRequestCount)
    (uploads : t.uploadRunningRequestCount = s.uploadRunningRequestCount) : Aside s t where
  proxyCheckQueue := queue
  proxyActiveChecks := active
  pendingChecks := congrArg (List.filterMap Task.check) tasks
  lastPingProxyId := last
  plain plain :=
    ⟨requestsQueue ▸ plain.requestsQueue, running ▸ plain.runningRequests,
      tasks ▸ plain.pendingTasks⟩
  downloads := downloads
  generics := generics
  uploads := uploads

/-- All fields but those that are left alone may change. -/
instance passive_fields (nextRequest : ConnectionsManager → Nat)
    (datacenters : ConnectionsManager → OrderedMap Nat (Option Datacenter))
    (currentDatacenterId movingToDatacenterId : ConnectionsManager → Nat)
    (movingAuthorization : ConnectionsManager → Bool)
    (connections : ConnectionsManager → ConnectionId → Option Connection)
    (lastConnectionToken : ConnectionsManager → Nat)
    (timeDifference lastOutgoingMessageId currentUserId : ConnectionsManager → Int)
    (networkAvailable pushConnectionEnabled : ConnectionsManager → Bool)
    (pushSessionId : ConnectionsManager → Int)
    (sendingPushPing : ConnectionsManager → Bool)
    (lastPingId pingTime currentPingTime : ConnectionsManager → Int)
    (lastRequestToken : ConnectionsManager → Nat)
    (requestingSaltsForDc : ConnectionsManager → List Nat)
    (updatingDcSettings updatingDcSettingsWorkaround : ConnectionsManager → Bool)
    (updatingDcStartTime : ConnectionsManager → Int)
    (sessionsToDestroy : ConnectionsManager → List Int)
    (lastDestroySessionRequestTime : ConnectionsManager → Int)
    (resendRequests : ConnectionsManager → OrderedMap Int Int)
    (cdnWaitingDatacenters : ConnectionsManager → List Nat)
    (loadingCdnKeys : ConnectionsManager → Bool) (queueCall : ConnectionsManager → Option QueueCall)
    (readings : ConnectionsManager → Nat) :
    Passive (update fun s =>
      { s with
        nextRequest := nextRequest s
        datacenters := datacenters s
        currentDatacenterId := currentDatacenterId s
        movingToDatacenterId := movingToDatacenterId s
        movingAuthorization := movingAuthorization s
        connections := connections s
        lastConnectionToken := lastConnectionToken s
        timeDifference := timeDifference s
        lastOutgoingMessageId := lastOutgoingMessageId s
        currentUserId := currentUserId s
        networkAvailable := networkAvailable s
        pushConnectionEnabled := pushConnectionEnabled s
        pushSessionId := pushSessionId s
        sendingPushPing := sendingPushPing s
        lastPingId := lastPingId s
        pingTime := pingTime s
        currentPingTime := currentPingTime s
        lastRequestToken := lastRequestToken s
        requestingSaltsForDc := requestingSaltsForDc s
        updatingDcSettings := updatingDcSettings s
        updatingDcSettingsWorkaround := updatingDcSettingsWorkaround s
        updatingDcStartTime := updatingDcStartTime s
        sessionsToDestroy := sessionsToDestroy s
        lastDestroySessionRequestTime := lastDestroySessionRequestTime s
        resendRequests := resendRequests s
        cdnWaitingDatacenters := cdnWaitingDatacenters s
        loadingCdnKeys := loadingCdnKeys s
        queueCall := queueCall s
        readings := readings s }) :=
  passive_update fun _ => .of_same rfl rfl rfl rfl rfl rfl rfl rfl rfl

instance passive_modifyConnection (c : ConnectionId) (f : Connection → Connection) :
    Passive (modifyConnection c f) :=
  passive_update fun _ => .of_same rfl rfl rfl rfl rfl rfl rfl rfl rfl

instance passive_modifyDatacenter (d : Nat) (f : Datacenter → Datacenter) :
    Passive (modifyDatacenter d f) := by
  refine passive_update fun s => ?_
  unfold ConnectionsManager.modifyDatacenter
  split <;> exact .of_same rfl rfl rfl rfl rfl rfl rfl rfl rfl

instance passive_record (e : Event) : Passive (record e) :=
  passive_update fun _ => .of_same rfl rfl rfl rfl rfl rfl rfl rfl rfl

/-- A list of requests keeps its property when a command edits one of them. -/
theorem plain_edited {requests : List Request} {p : Nat} {f : Request → Request}
    (edited : ∀ r, r.Plain → (f r).Plain) (plain : ∀ r ∈ requests, r.Plain) :
    ∀ r ∈ requests.map (fun r => if r.id = p then f r else r), r.Plain := by
  intro r mem
  obtain ⟨r', old, rfl⟩ := List.mem_map.1 mem
  split
  · exact edited r' (plain r' old)
  · exact plain r' old

theorem passive_modifyRequest {p : Nat} {f : Request → Request}
    (edited : ∀ r, r.Plain → (f r).Plain) :
    Passive (modifyRequest p f) :=
  passive_update fun _ => ⟨⟨rfl, rfl, rfl, rfl, fun plain =>
    ⟨plain_edited edited plain.requestsQueue, plain_edited edited plain.runningRequests,
      plain.pendingTasks⟩⟩,
    rfl, rfl, rfl⟩

/-- A task that makes no proxy check. -/
theorem passive_scheduleTask {task : Task} (other : task.check = none) (plain : task.Plain) :
    Passive (scheduleTask task) := by
  refine passive_update fun s => ⟨⟨rfl, rfl, ?_, rfl, fun downloads => ?_⟩, rfl, rfl, rfl⟩
  · have nothing : [task].filterMap (·.check) = [] := by
      rw [List.filterMap_cons, other, List.filterMap_nil]
    rw [ConnectionsManager.pendingChecks, List.filterMap_append, nothing, List.append_nil]
    rfl
  · refine ⟨downloads.requestsQueue, downloads.runningRequests, fun task' mem => ?_⟩
    rcases List.mem_append.1 mem with old | new
    · exact downloads.pendingTasks task' old
    · rwa [List.mem_singleton.1 new]

instance passive_eraseRunning (p : Nat) : Passive (eraseRunning p) :=
  passive_update fun _ => ⟨⟨rfl, rfl, rfl, rfl, fun plain =>
    ⟨plain.requestsQueue, fun r mem => plain.runningRequests r (List.mem_of_mem_eraseP mem),
      plain.pendingTasks⟩⟩,
    rfl, rfl, rfl⟩

instance passive_eraseQueued (p : Nat) : Passive (eraseQueued p) :=
  passive_update fun _ => ⟨⟨rfl, rfl, rfl, rfl, fun plain =>
    ⟨fun r mem => plain.requestsQueue r (List.mem_of_mem_eraseP mem), plain.runningRequests,
      plain.pendingTasks⟩⟩,
    rfl, rfl, rfl⟩

end Fields

/-! ## Connections and sending -/

section Sending

variable (env : Env) (c : ConnectionId)

instance passive_reading : Passive reading := by unfold reading; infer_instance

instance passive_datacenter (d : Nat) :
    Passive (datacenter d) := by unfold datacenter; infer_instance

instance passive_connection : Passive (connection c) := by unfold connection; infer_instance

instance passive_runningRequest (p : Nat) :
    Passive (runningRequest p) := by unfold runningRequest; infer_instance

instance passive_queuedRequest (p : Nat) :
    Passive (queuedRequest p) := by unfold queuedRequest; infer_instance

instance passive_generateMessageId :
    Passive (generateMessageId env) := by unfold generateMessageId; infer_instance

instance passive_generateMessageSeqNo (increment : Bool) :
    Passive (generateMessageSeqNo c increment) := by
  unfold generateMessageSeqNo; infer_instance

instance passive_assigned (msgId : Int) (seqNo : Nat) : Passive (assigned c msgId seqNo) := by
  unfold assigned; infer_instance

instance passive_newMessage (increment : Bool) : Passive (newMessage env c increment) := by
  unfold newMessage; infer_instance

instance passive_recreateSession :
    Passive (recreateSession env c) := by unfold recreateSession; infer_instance

instance passive_addProcessedMessageId (messageId : Int) :
    Passive (addProcessedMessageId c messageId) := by
  unfold addProcessedMessageId; infer_instance

instance passive_addMessageToConfirm (messageId : Int) :
    Passive (addMessageToConfirm c messageId) := by
  unfold addMessageToConfirm; infer_instance

instance passive_generateConfirmationRequest : Passive (generateConfirmationRequest env c) := by
  unfold generateConfirmationRequest; infer_instance

instance passive_onConnectionClosed : Passive (onConnectionClosed c) := by
  unfold onConnectionClosed
  split
  · infer_instance
  · exact passive_scheduleTask rfl trivial
  · infer_instance

instance passive_onDisconnected (error : Int) : Passive (onDisconnected c error) := by
  unfold onDisconnected; infer_instance

instance passive_connect : Passive (connect env c) := by
  have opening : ∀ stage : Stage, Passive (match stage with
      | .connected _ | .connecting => pure ()
      | _ => do
          let dc ← datacenter c.datacenter
          modifyConnection c fun connection =>
            { connection with
              stage := .connecting
              isMediaConnection :=
                isMediaConnectionType c.slot.connectionType && dc.hasMediaAddress }
          let n ← reading
          when (env.opens n = false) (onDisconnected c (-1)) : M Unit) := by
    intro stage
    split <;> infer_instance
  unfold connect
  infer_instance

instance passive_suspendConnection (idle : Bool) : Passive (suspendConnection c idle) := by
  unfold suspendConnection; infer_instance

instance passive_reconnect : Passive (reconnect env c) := by
  unfold reconnect
  split <;> infer_instance

instance passive_createConnection : Passive (createConnection env c) := by
  unfold createConnection; infer_instance

instance passive_hasAuthKey (d : Nat) :
    Passive (hasAuthKey d) := by unfold hasAuthKey; infer_instance

instance passive_getConnection (create : Bool) : Passive (getConnection env c create) := by
  unfold getConnection; infer_instance

instance passive_getConnectionByType (d connectionType : Nat) (create : Bool) :
    Passive (getConnectionByType env d connectionType create) := by
  unfold getConnectionByType
  split <;> infer_instance

instance passive_recreateSessions (d : Nat) (type : HandshakeType) :
    Passive (recreateSessions env d type) := by
  unfold recreateSessions; infer_instance

instance passive_suspendConnections (d : Nat) : Passive (suspendConnections d) := by
  unfold suspendConnections; infer_instance

instance passive_sendData (msgIds : List Int) : Passive (sendData env c msgIds) := by
  unfold sendData; infer_instance

instance passive_createRequestsData (requests : List NetworkMessage) :
    Passive (createRequestsData env requests c) := by
  have packed : Passive (match requests with
      | [message] => do
          let n ← reading
          let s ← read
          if outOfTime env message.msgId (env.currentTimeMillis n + s.timeDifference * 1000) then do
            let (messageId, _) ← newMessage env c false
            pure (some [message.msgId, messageId])
          else pure (some [message.msgId])
      | messages => do
          let (messageId, _) ← newMessage env c false
          pure (some (messages.map (·.msgId) ++ [messageId])) : M (Option (List Int))) := by
    split <;> infer_instance
  unfold createRequestsData
  infer_instance

instance passive_sendPacket (messages : List NetworkMessage) :
    Passive (sendPacket env messages c) := by
  unfold sendPacket
  refine ⟨keeps_bind Passive.keeps fun transportData => ?_⟩
  cases transportData with
  | none => exact keeps_pure _
  | some msgIds => exact Passive.keeps

instance passive_sendChunks (current : List NetworkMessage) (size : Nat)
    (messages : List NetworkMessage) :
    Passive (sendChunks env c current size messages) := by
  induction messages generalizing current size with
  | nil => exact passive_pure ()
  | cons message rest ih =>
    rw [sendChunks]
    infer_instance

instance passive_sendMessagesToConnection (messages : List NetworkMessage) :
    Passive (sendMessagesToConnection env messages c) := by
  unfold sendMessagesToConnection; infer_instance

instance passive_sendMessagesToConnectionWithConfirmation (messages : List NetworkMessage) :
    Passive (sendMessagesToConnectionWithConfirmation env messages c) := by
  unfold sendMessagesToConnectionWithConfirmation; infer_instance

instance passive_sendPing (d : Nat) (usePushConnection : Bool) :
    Passive (sendPing env d usePushConnection) := by
  unfold sendPing
  refine ⟨keeps_bind keeps_read fun s => keeps_when fun _ =>
    keeps_bind Passive.keeps fun connection => ?_⟩
  cases connection with
  | none => exact keeps_pure _
  | some c =>
    refine keeps_bind keeps_read fun s => keeps_when fun _ => keeps_bind Passive.keeps fun _ => ?_
    refine keeps_bind Passive.keeps fun _ => keeps_bind Passive.keeps fun m =>
      keeps_bind Passive.keeps fun n => ?_
    refine keeps_bind Passive.keeps fun transportData => keeps_bind Passive.keeps fun _ => ?_
    cases transportData with
    | none => exact keeps_pure _
    | some msgIds => exact Passive.keeps

instance passive_sendHandshakeData (d : Nat) (type : HandshakeType) :
    Passive (sendHandshakeData env d type) := by
  unfold sendHandshakeData; infer_instance

instance passive_startHandshake (d : Nat) (type : HandshakeType) (reopen : Bool) :
    Passive (startHandshake env d type reopen) := by
  unfold startHandshake; infer_instance

instance passive_addHandshake (d : Nat) (type : HandshakeType) (reopen : Bool) :
    Passive (addHandshake env d type reopen) := by
  unfold addHandshake; infer_instance

instance passive_beginHandshake (d : Nat) (type : HandshakeType) (reopen : Bool) :
    Passive (beginHandshake env d type reopen) := by
  unfold beginHandshake; infer_instance

instance passive_clearAuthKey (d : Nat) (type : HandshakeType) : Passive (clearAuthKey d type) := by
  unfold clearAuthKey; infer_instance

end Sending

/-! ## Requests -/

section Requests

variable (env : Env)

instance passive_getDatacenterWithId (id : Nat) : Passive (getDatacenterWithId id) := by
  unfold getDatacenterWithId
  refine ⟨keeps_bind keeps_read fun s => keeps_ite (fun _ => ?_) fun _ => keeps_pure _⟩
  split
  · exact keeps_pure _
  · exact keeps_pure _
  · exact Passive.keeps

instance passive_saveConfig : Passive saveConfig := by unfold saveConfig; infer_instance

instance passive_newRequestToken :
    Passive newRequestToken := by unfold newRequestToken; infer_instance

/-- The request is built by a task. -/
theorem passive_sendRequest {args : RequestArgs} (own : plain args.connectionType args.onComplete) :
    Passive (sendRequest args) := by
  have planned : ∀ token,
      Passive (scheduleTask (.sendRequest { args with requestToken := token })) :=
    fun token => passive_scheduleTask rfl own
  unfold sendRequest
  infer_instance

theorem passive_sendNewRequest {object : Query} {onComplete : Callback}
    {flags d connectionType : Nat}
    (own : plain connectionType onComplete) :
    Passive (sendNewRequest object onComplete flags d connectionType) := by
  have sent : ∀ requestToken, Passive (sendRequest
      { object, onComplete, flags, datacenterId := d, connectionType, immediate := true,
        requestToken }) :=
    fun requestToken => passive_sendRequest own
  unfold sendNewRequest
  infer_instance

theorem plain_generic (callback : Callback) : plain ConnectionType.generic callback :=
  fun download => by
  cases download

theorem plain_temp (callback : Callback) : plain ConnectionType.temp callback :=
  fun download => by cases download

instance passive_sendGeneric (object : Query) (onComplete : Callback) (flags d : Nat) :
    Passive (sendNewRequest object onComplete flags d ConnectionType.generic) :=
  passive_sendNewRequest (plain_generic onComplete)

instance passive_callQueue (call : QueueCall) :
    Passive (callQueue call) := by unfold callQueue; infer_instance

instance passive_requestSaltsForDatacenter (d : Nat) : Passive (requestSaltsForDatacenter d) := by
  unfold requestSaltsForDatacenter; infer_instance

instance passive_updateDcSettings (dcNum : Nat) (workaround : Bool) :
    Passive (updateDcSettings env dcNum workaround) := by
  have marked : ∀ n, Passive (update fun s : ConnectionsManager =>
      if workaround then { s with updatingDcSettingsWorkaround := true }
      else
        { s with
          updatingDcSettings := true
          updatingDcStartTime := (env.currentTimeMonotonicMillis n).tdiv 1000 }) := by
    intro n
    refine passive_update fun s => ?_
    split <;> exact .of_same rfl rfl rfl rfl rfl rfl rfl rfl rfl
  have sent : ∀ flags d, Passive (sendNewRequest .getConfig (.updateDcSettings workaround) flags d
      (if workaround then ConnectionType.temp else ConnectionType.generic)) := by
    intro flags d
    refine passive_sendNewRequest ?_
    split
    · exact plain_temp _
    · exact plain_generic _
  unfold updateDcSettings
  infer_instance

instance passive_exportAuthorization (d : Nat) : Passive (exportAuthorization d) := by
  unfold exportAuthorization; infer_instance

instance passive_clear (p : Nat) (time : Bool) : Passive (modifyRequest p fun r => r.clear time) :=
  passive_modifyRequest fun _ plain => plain

instance passive_clearRequestsForDatacenter (d : Option Nat) (type : HandshakeType) :
    Passive (clearRequestsForDatacenter d type) := by
  unfold clearRequestsForDatacenter; infer_instance

instance passive_cancelRequestInternal (token messageId : Int) (notifyServer : Bool) :
    Passive (cancelRequestInternal token messageId notifyServer) := by
  have dropped : ∀ flags d connectionType,
      Passive (sendNewRequest .dropAnswer .none flags d connectionType) :=
    fun flags d connectionType => passive_sendNewRequest fun _ => rfl
  unfold cancelRequestInternal
  refine ⟨keeps_bind keeps_read fun s => ?_⟩
  dsimp only
  split
  · exact Passive.keeps
  · split
    · exact Passive.keeps
    · exact keeps_pure _

instance passive_cleanUp (resetKeys : Bool) : Passive (cleanUp env resetKeys) := by
  have emptied :
      Passive (update fun s : ConnectionsManager =>
        { s with requestsQueue := [], runningRequests := [] }) :=
    passive_update fun _ =>
      ⟨⟨rfl, rfl, rfl, rfl, fun plain => ⟨by simp, by simp, plain.pendingTasks⟩⟩, rfl, rfl, rfl⟩
  unfold cleanUp
  infer_instance

/-! ## Callbacks -/

instance passive_scheduleQueue (connectionTypes dc : Nat) :
    Passive (scheduleTask (.processRequestQueue connectionTypes dc)) :=
  passive_scheduleTask rfl trivial

instance passive_authorizedOnMovingDatacenter : Passive authorizedOnMovingDatacenter := by
  unfold authorizedOnMovingDatacenter; infer_instance

instance passive_authorizeOnMovingDatacenter : Passive (authorizeOnMovingDatacenter env) := by
  unfold authorizeOnMovingDatacenter
  refine ⟨keeps_bind keeps_read fun s => keeps_bind Passive.keeps fun moving => ?_⟩
  split
  · exact Passive.keeps
  · refine keeps_bind Passive.keeps fun _ => keeps_bind Passive.keeps fun _ => ?_
    exact Passive.keeps

instance passive_moveToDatacenter (target : MoveTarget) :
    Passive (moveToDatacenter env target) := by
  unfold moveToDatacenter; infer_instance

instance passive_enterDatacenter (id : Nat) : Passive (enterDatacenter id) := by
  unfold enterDatacenter
  refine ⟨keeps_bind Passive.keeps fun found => ?_⟩
  cases found with
  | none => exact Passive.keeps
  | some d => exact keeps_pure _

instance passive_applyConfigEntry (entry : Nat × Bool × Bool) :
    Passive (applyConfigEntry env entry) := by
  unfold applyConfigEntry
  refine ⟨keeps_bind Passive.keeps fun d => keeps_bind Passive.keeps fun _ =>
    keeps_bind keeps_read fun s => ?_⟩
  refine keeps_when fun _ => keeps_bind Passive.keeps fun _ => ?_
  split
  · exact keeps_pure _
  · exact Passive.keeps

instance passive_applyConfig (answer : Option Answer) : Passive (applyConfig env answer) := by
  unfold applyConfig
  split <;> infer_instance

instance passive_onConfig (workaround : Bool) (answer : Option Answer) :
    Passive (onConfig env workaround answer) := by
  have marked : Passive (update fun s : ConnectionsManager =>
      if workaround then { s with updatingDcSettingsWorkaround := false }
      else { s with updatingDcSettings := false }) := by
    refine passive_update fun s => ?_
    split <;> exact .of_same rfl rfl rfl rfl rfl rfl rfl rfl rfl
  unfold onConfig
  infer_instance

instance passive_onCdnConfig (answer : Option Answer) : Passive (onCdnConfig env answer) := by
  unfold onCdnConfig
  split <;> infer_instance

instance passive_runCallback (callback : Callback) (answer : Option Answer) :
    Passive (runCallback env callback answer) := by
  unfold runCallback
  split
  · infer_instance
  · infer_instance
  · infer_instance
  · refine ⟨keeps_bind Passive.keeps fun _ => ?_⟩
    split <;> exact Passive.keeps
  · split <;> infer_instance
  · split <;> infer_instance
  · split <;> infer_instance
  · infer_instance
  · infer_instance

instance passive_onComplete (r : Request) (answer : Option Answer) :
    Passive (onComplete env r answer) := by
  unfold onComplete; infer_instance

end Requests

/-! ## The queue -/

section Queue

variable (env : Env)

instance passive_addUnknownDatacenter (id : Nat) : Passive (addUnknownDatacenter id) := by
  refine passive_update fun s => ?_
  split <;> exact .of_same rfl rfl rfl rfl rfl rfl rfl rfl rfl

instance passive_addNeededDatacenter (d connectionType : Nat) :
    Passive (addNeededDatacenter d connectionType) := by
  refine passive_update fun s => ?_
  split <;> exact .of_same rfl rfl rfl rfl rfl rfl rfl rfl rfl

instance passive_addUnauthorizedDatacenter (d : Nat) : Passive (addUnauthorizedDatacenter d) := by
  refine passive_update fun s => ?_
  split <;> exact .of_same rfl rfl rfl rfl rfl rfl rfl rfl rfl

theorem aside_setBatch (s : ConnectionsManager) (batch : Batch)
    (messages : OrderedMap Nat (List NetworkMessage)) :
    Aside s (s.setBatch batch messages) := by
  cases batch <;> exact .of_same rfl rfl rfl rfl rfl rfl rfl rfl rfl

instance passive_addMessageToDatacenter (d : Nat) (message : NetworkMessage) (batch : Batch) :
    Passive (addMessageToDatacenter d message batch) :=
  passive_update fun s => aside_setBatch s batch _

instance passive_dispatch (r : Request) (c : ConnectionId) : Passive (dispatch env r c) := by
  unfold dispatch
  split <;> infer_instance

instance passive_leavesForDifferentDc (currentTime : Int) (r : Request) :
    Passive (leavesForDifferentDc currentTime r) := by
  unfold leavesForDifferentDc; infer_instance

instance passive_moveToQueue (p : Nat) : Passive (moveToQueue p) := by
  constructor
  intro s u t run
  obtain ⟨r, running, run⟩ := runningRequest_bind run
  rw [update_run run]
  refine ⟨⟨rfl, rfl, rfl, rfl, fun plain =>
    ⟨fun r' mem => ?_, fun r' mem => ?_, plain.pendingTasks⟩⟩, rfl, rfl, rfl⟩
  · rcases List.mem_append.1 mem with old | new
    · exact plain.requestsQueue r' old
    · rw [List.mem_singleton.1 new]
      exact plain.runningRequests r (List.mem_of_find?_eq_some running)
  · exact plain.runningRequests r' (List.mem_of_mem_eraseP mem)

instance passive_moveToRunning (p : Nat) : Passive (moveToRunning p) := by
  constructor
  intro s r t run
  obtain ⟨r', queued, run⟩ := queuedRequest_bind run
  rw [update_bind] at run
  rw [(pure_run run).2]
  refine ⟨⟨rfl, rfl, rfl, rfl, fun plain => ⟨fun r mem => ?_, fun r mem => ?_, plain.pendingTasks⟩⟩,
    rfl, rfl, rfl⟩
  · exact plain.requestsQueue r (List.mem_of_mem_eraseP mem)
  · rcases List.mem_append.1 mem with old | new
    · exact plain.runningRequests r old
    · rw [List.mem_singleton.1 new]
      exact plain.requestsQueue r' (List.mem_of_find?_eq_some queued)

instance passive_failRequest (p : Nat) :
    Passive (failRequest env p) := by unfold failRequest; infer_instance

instance passive_renewMessageId (p : Nat) (c : ConnectionId) :
    Passive (renewMessageId env p c) := by
  have stamped : ∀ msgId seqNo, Passive (modifyRequest p fun r =>
      { r with messageId := msgId, messageSeqNo := seqNo }) :=
    fun msgId seqNo => passive_modifyRequest fun _ plain => plain
  unfold renewMessageId
  infer_instance

instance passive_retryRequest (call : QueueCall) (currentTime : Int) (p : Nat) (c : ConnectionId) :
    Passive (retryRequest env call currentTime p c) := by
  have stamped : ∀ token, Passive (modifyRequest p fun r =>
      { r with failedBySalt := false, startTime := currentTime, connectionToken := token }) :=
    fun token => passive_modifyRequest fun _ plain => plain
  unfold retryRequest
  infer_instance

instance passive_retryIfDue (call : QueueCall) (currentTime : Int) (p : Nat) (c : ConnectionId) :
    Passive (retryIfDue env call currentTime p c) := by
  have cleared : Passive (modifyRequest p fun r =>
      (if r.messageId ≠ 0 then r.addRespondMessageId else r).clear false) := by
    refine passive_modifyRequest fun r plain => ?_
    split <;> exact plain
  have counted : ∀ token, Passive (modifyRequest p fun r =>
      { r with
        lastResendTime :=
          if r.connectionToken ≠ 0 ∧ r.connectionToken ≠ token then 0 else r.lastResendTime
        retryCount := r.retryCount + 1 }) :=
    fun token => passive_modifyRequest fun _ plain => plain
  unfold retryIfDue
  infer_instance

instance passive_runningInDatacenter (call : QueueCall) (currentTime : Int) (p d : Nat) :
    Passive (runningInDatacenter env call currentTime p d) := by
  have marked : Passive (modifyRequest p fun r =>
      { r with requestFlags := r.requestFlags ||| RequestFlag.enableUnauthorized }) :=
    passive_modifyRequest fun _ plain => plain
  unfold runningInDatacenter
  exact ⟨keeps_bind Passive.keeps fun dc => keeps_bind Passive.keeps fun _ => Passive.keeps⟩

instance passive_destroyFirst (currentTime : Int) (d : Nat) (c : ConnectionId) :
    Passive (destroyFirst env currentTime d c) := by
  unfold destroyFirst
  refine ⟨keeps_bind keeps_read fun s => keeps_when fun _ => keeps_bind Passive.keeps fun _ => ?_⟩
  refine keeps_when fun _ => keeps_bind Passive.keeps fun _ => keeps_bind keeps_read fun s => ?_
  refine keeps_bind Passive.keeps fun sessionId => keeps_bind Passive.keeps fun m => ?_
  exact Passive.keeps

instance passive_destroySession (currentTime : Int) : Passive (destroySession env currentTime) := by
  unfold destroySession
  refine ⟨keeps_bind keeps_read fun s => keeps_bind Passive.keeps fun found => ?_⟩
  split
  · exact keeps_pure _
  · refine keeps_bind Passive.keeps fun connection => ?_
    split <;> exact Passive.keeps

instance passive_switchDatacenter (currentTime : Int) (p datacenterId : Nat) :
    Passive (switchDatacenter env currentTime p datacenterId) := by
  have relocated : ∀ chosen, Passive (modifyRequest p fun r => { r with datacenterId := chosen }) :=
    fun chosen => passive_modifyRequest fun _ plain => plain
  unfold switchDatacenter
  infer_instance

instance passive_chooseDatacenter (currentTime : Int) (p datacenterId : Nat) :
    Passive (chooseDatacenter env currentTime p datacenterId) := by
  have reset : Passive (modifyRequest p fun r => { r with startTime := 0 }) :=
    passive_modifyRequest fun _ plain => plain
  unfold chooseDatacenter
  infer_instance

instance passive_startRequest (currentTime : Int) (p : Nat) (c : ConnectionId) :
    Passive (startRequest env currentTime p c) := by
  have stamped : ∀ msgId seqNo serializedLength token, Passive (modifyRequest p fun r =>
      { r with
        messageId := msgId
        messageSeqNo := seqNo
        requestFlags :=
          if r.hasFlag RequestFlag.canCompress then r.requestFlags - RequestFlag.canCompress else
            r.requestFlags
        serializedLength := serializedLength
        startTime := currentTime
        connectionToken := token }) :=
    fun _ _ _ _ => passive_modifyRequest fun _ plain => plain
  unfold startRequest
  infer_instance

instance passive_addConfirmation (d : Nat) (batch : Batch) :
    Passive (addConfirmation env d batch) := by
  have entered :
      Passive (update fun s : ConnectionsManager =>
        s.setBatch batch ((s.batch batch).insert d [])) :=
    passive_update fun s => aside_setBatch s batch _
  unfold addConfirmation
  refine ⟨keeps_bind Passive.keeps fun _ => keeps_bind keeps_read fun s => keeps_when fun _ => ?_⟩
  refine keeps_bind Passive.keeps fun connection => ?_
  split <;> exact Passive.keeps

instance passive_confirmationLoop :
    Passive (confirmationLoop env) := by unfold confirmationLoop; infer_instance

instance passive_sendBatch (call : QueueCall) (batch : Batch) (entry : Nat × List NetworkMessage) :
    Passive (sendBatch env call batch entry) := by
  unfold sendBatch
  refine ⟨keeps_bind Passive.keeps fun found => ?_⟩
  split <;> exact Passive.keeps

instance passive_sendAllBatches (call : QueueCall) : Passive (sendAllBatches env call) := by
  unfold sendAllBatches sendBatches; infer_instance

instance passive_pingCurrent (call : QueueCall) :
    Passive (pingCurrent env call) := by unfold pingCurrent; infer_instance

instance passive_beginNeededHandshake (needed : Nat × Nat) :
    Passive (beginNeededHandshake env needed) := by
  unfold beginNeededHandshake; infer_instance

instance passive_exportToUnauthorized (d : Nat) : Passive (exportToUnauthorized d) := by
  unfold exportToUnauthorized; infer_instance

instance passive_finishQueue (call : QueueCall) :
    Passive (finishQueue env call) := by unfold finishQueue; infer_instance

end Queue

/-! ## Messages of the server -/

section Response

variable (env : Env) (c : ConnectionId)

instance passive_callQueueForAll :
    Passive callQueueForAll := by unfold callQueueForAll; infer_instance

instance passive_finishRequest (d : Nat) (r : Request) (initialised : Bool) :
    Passive (finishRequest d r initialised) := by
  unfold finishRequest; infer_instance

instance passive_restartHandshake (reopen : Bool) : Passive (restartHandshake env c reopen) := by
  unfold restartHandshake; infer_instance

instance passive_keepRequest (p : Nat) :
    Passive (keepRequest p) := by unfold keepRequest; infer_instance

instance passive_scheduleCleanUp (resetKeys : Bool) : Passive (scheduleTask (.cleanUp resetKeys)) :=
  passive_scheduleTask rfl trivial

instance passive_onUnauthorizedError (d : Nat) (r : Request) (text : String) :
    Passive (onUnauthorizedError d r text) := by
  unfold onUnauthorizedError; infer_instance

theorem plain_retryAfterError (r : Request) (code : Int) (text : String) (now : Int)
    (own : r.Plain) :
    ((retryAfterError r code text now).getD r).Plain := by
  have settled := settled_retryAfterError r code text now
  rw [Request.Plain, settled.connectionType, settled.callback]
  exact own

instance passive_onRpcError (r : Request) (code : Int) (text : String) :
    Passive (onRpcError env c r code text) := by
  have retried : ∀ now,
      Passive (modifyRequest r.id fun r => (retryAfterError r code text now).getD r) :=
    fun now => passive_modifyRequest fun r own => plain_retryAfterError r code text now own
  unfold onRpcError
  refine ⟨keeps_bind Passive.keeps fun n => ?_⟩
  dsimp only
  split <;> exact Passive.keeps

instance passive_answerRequest (r : Request) (result : RpcResult) :
    Passive (answerRequest env c r result) := by
  unfold answerRequest
  split <;> infer_instance

instance passive_onRpcResult (reqMsgId : Int) (result : RpcResult) :
    Passive (onRpcResult env c reqMsgId result) := by
  unfold onRpcResult
  split
  · refine ⟨keeps_bind keeps_read fun s => ?_⟩
    split <;> exact Passive.keeps
  · infer_instance

instance passive_onFutureSalts (reqMsgId : Int) : Passive (onFutureSalts env reqMsgId) := by
  unfold onFutureSalts
  refine ⟨keeps_bind keeps_read fun s => ?_⟩
  split <;> exact Passive.keeps

instance passive_correctTime (messageId : Int) : Passive (correctTime env messageId) := by
  unfold correctTime; infer_instance

instance passive_onNewSession (firstMsgId uniqueId : Int) :
    Passive (onNewSession c firstMsgId uniqueId) := by
  unfold onNewSession; infer_instance

instance passive_clearResponding (messageId : Int) (confirm : Bool) :
    Passive (clearResponding c messageId confirm) := by
  unfold clearResponding
  refine ⟨keeps_bind keeps_read fun s => ?_⟩
  split <;> exact Passive.keeps

instance passive_onBadMsgNotification
    (messageId innerMsgId containerMessageId badMsgId errorCode : Int) :
    Passive (onBadMsgNotification env c messageId innerMsgId containerMessageId badMsgId
      errorCode) := by
  unfold onBadMsgNotification; infer_instance

instance passive_failBySalt (d : Nat) : Passive (failBySalt d) := by
  have reset : ∀ p,
      Passive (modifyRequest p fun r => { r with retryCount := 0, failedBySalt := true }) :=
    fun p => passive_modifyRequest fun _ plain => plain
  unfold failBySalt
  infer_instance

instance passive_onBadServerSalt (messageId badMsgId : Int) :
    Passive (onBadServerSalt env c messageId badMsgId) := by
  unfold onBadServerSalt; infer_instance

instance passive_onMsgsStateInfo (reqMsgId : Int) : Passive (onMsgsStateInfo c reqMsgId) := by
  unfold onMsgsStateInfo
  refine ⟨keeps_bind keeps_read fun s => ?_⟩
  split <;> exact Passive.keeps

instance passive_requestResend (answerMsgId : Int) : Passive (requestResend env c answerMsgId) := by
  unfold requestResend
  exact ⟨keeps_bind Passive.keeps fun m => Passive.keeps⟩

instance passive_onMsgDetailedInfo (msgId answerMsgId : Int) :
    Passive (onMsgDetailedInfo env c msgId answerMsgId) := by
  have noted : ∀ p currentTime,
      Passive (modifyRequest p fun r => { r with lastResendTime := currentTime }) :=
    fun p currentTime => passive_modifyRequest fun _ plain => plain
  unfold onMsgDetailedInfo
  refine ⟨keeps_bind keeps_read fun s => ?_⟩
  split <;> exact Passive.keeps

instance passive_onMsgNewDetailedInfo (messageId answerMsgId : Int) :
    Passive (onMsgNewDetailedInfo env c messageId answerMsgId) := by
  unfold onMsgNewDetailedInfo; infer_instance

/-- Only a pong may end a proxy check. -/
theorem passive_processServerResponse {m : ServerMessage} (other : ∀ pingId, m ≠ .pong pingId)
    (messageId innerMsgId containerMessageId : Int) :
    Passive (processServerResponse env m messageId c innerMsgId containerMessageId) := by
  cases m with
  | pong pingId => exact absurd rfl (other pingId)
  | _ =>
    unfold processServerResponse
    infer_instance

end Response

/-! ## Sockets and tasks -/

section Inputs

variable (env : Env) (c : ConnectionId)

instance passive_openPushConnection : Passive (openPushConnection env) := by
  unfold openPushConnection
  refine ⟨keeps_bind keeps_read fun s => keeps_bind Passive.keeps fun found => ?_⟩
  split <;> exact Passive.keeps

instance passive_setUserId (userId : Int) :
    Passive (setUserId env userId) := by unfold setUserId; infer_instance

instance passive_takeToken : Passive (takeToken c) := by unfold takeToken; infer_instance

instance passive_onConnectionConnected : Passive (onConnectionConnected env c) := by
  unfold onConnectionConnected; infer_instance

instance passive_onKeyNotFound :
    Passive (onKeyNotFound env c) := by unfold onKeyNotFound; infer_instance

instance passive_loadCdnConfig (d : Nat) (cached : Bool) :
    Passive (loadCdnConfig env d cached) := by
  unfold loadCdnConfig; infer_instance

instance passive_setNetworkAvailable (value : Bool) : Passive (setNetworkAvailable env value) := by
  unfold setNetworkAvailable; infer_instance

instance passive_setPushConnectionEnabled (value : Bool) :
    Passive (setPushConnectionEnabled env value) := by
  have disabled : Passive (do
      let s ← read
      let found ← getDatacenterWithId s.currentDatacenterId
      match found with
      | none => pure ()
      | some d => do
          let connection ← getConnection env ⟨d, .push⟩ false
          match connection with
          | none => pure ()
          | some c => suspendConnection c false : M Unit) := by
    refine ⟨keeps_bind keeps_read fun s => keeps_bind Passive.keeps fun found => ?_⟩
    split
    · exact keeps_pure _
    · refine keeps_bind Passive.keeps fun connection => ?_
      split <;> exact Passive.keeps
  unfold setPushConnectionEnabled
  infer_instance

/-- The inputs that make no step of a check or of the queue. -/
theorem passive_input {input : Input} (task : input ≠ .runTask) (call : input ≠ .runQueueCall)
    (pong : ∀ pingId messageId c innerMsgId containerMessageId,
      input ≠ .received (.pong pingId) messageId c innerMsgId containerMessageId)
    (check : ∀ info, input ≠ .schedule (.checkProxy info)) : Passive (input.run env) := by
  unfold Input.run
  cases input with
  | runTask => exact absurd rfl task
  | runQueueCall => exact absurd rfl call
  | sendRequest args =>
    refine ⟨keeps_ite (fun own => ?_) fun _ => keeps_fault⟩
    exact (passive_sendRequest fun _ => own).keeps
  | schedule planned =>
    refine ⟨keeps_ite (fun own => ?_) fun _ => keeps_fault⟩
    have other : planned.check = none ∧ planned.Plain := by
      cases planned with
      | checkProxy info => exact absurd rfl (check info)
      | sendRequest args => cases own
      | _ => exact ⟨rfl, trivial⟩
    exact (passive_scheduleTask other.1 other.2).keeps
  | received m messageId c innerMsgId containerMessageId =>
    refine passive_processServerResponse env c (fun pingId own => ?_) _ _ _
    subst own
    exact pong pingId _ _ _ _ rfl
  | _ => infer_instance

end Inputs

/-- The task of a request that keeps downloads plain. -/
theorem passive_enqueueRequest {args : RequestArgs}
    (own : plain args.connectionType args.onComplete) :
    Passive (enqueueRequest args) := by
  have entered : ∀ d : Option Nat, Passive (update fun s : ConnectionsManager =>
      { s with
        requestsQueue := s.requestsQueue ++
          [wrapInLayer (newRequest s.nextRequest args) (d.bind s.datacenter) s.currentVersion]
        nextRequest := s.nextRequest + 1 }) := by
    refine fun d => passive_update fun s =>
      ⟨⟨rfl, rfl, rfl, rfl, fun plain => ⟨fun r mem => ?_, plain.runningRequests,
      plain.pendingTasks⟩⟩, rfl, rfl, rfl⟩
    rcases List.mem_append.1 mem with old | new
    · exact plain.requestsQueue r old
    · have settled :=
        settled_wrapInLayer (newRequest s.nextRequest args) (d.bind s.datacenter) s.currentVersion
      rw [List.mem_singleton.1 new, Request.Plain, settled.connectionType, settled.callback]
      exact own
  unfold enqueueRequest
  infer_instance

/-! ## Calls of the queue -/

section Calls

variable (env : Env)

/-- The counters are no part of the checks. -/
theorem apart_counters (s : ConnectionsManager) (downloads : OrderedMap Nat Nat)
    (generics uploads : Nat) :
    Apart s
      { s with
        downloadRunningRequestCount := downloads
        genericRunningRequestCount := generics
        uploadRunningRequestCount := uploads } :=
  ⟨rfl, rfl, rfl, rfl, fun plain =>
    ⟨plain.requestsQueue, plain.runningRequests, plain.pendingTasks⟩⟩

theorem apart_countRunning (r : Request) (datacenterId : Nat) :
    Keeps Apart (countRunning r datacenterId) := by
  refine keeps_update fun s => ?_
  split
  · exact apart_counters s _ _ _
  · exact apart_counters s _ _ _
  · exact apart_counters s _ _ _
  · exact refl s

theorem apart_admitRequest (r : Request) (datacenterId : Nat) :
    Keeps Apart (admitRequest r datacenterId) := by
  refine keeps_bind keeps_read fun s => ?_
  split
  · exact keeps_ite (fun _ => keeps_pure _) fun _ =>
      keeps_bind (keeps_update fun s => apart_counters s _ _ _) fun _ => keeps_pure _
  · exact keeps_ite (fun _ => keeps_pure _) fun _ =>
      keeps_bind (keeps_update fun s => apart_counters s _ _ _) fun _ => keeps_pure _
  · exact keeps_ite (fun _ => keeps_pure _) fun _ =>
      keeps_bind (keeps_update fun s => apart_counters s _ _ _) fun _ => keeps_pure _
  · exact keeps_pure _
  · exact keeps_pure _
  · exact keeps_ite (fun _ => keeps_pure _) fun _ =>
      keeps_bind (keeps_update fun s => apart_counters s _ _ _) fun _ => keeps_pure _
  · exact keeps_pure _

theorem apart_runningLoop (call : QueueCall) (currentTime : Int) :
    Keeps Apart (runningLoop env call currentTime) := by
  refine keeps_bind keeps_read fun s => keeps_each fun p _ => ?_
  refine keeps_bind (keeps_runningRequest p) fun r => keeps_bind keeps_read fun s =>
    keeps_when fun _ => ?_
  refine keeps_bind (apart_countRunning _ _) fun _ => keeps_bind Passive.apart fun leaves => ?_
  refine keeps_ite (fun _ => Passive.apart) fun _ => keeps_bind Passive.apart fun found => ?_
  split <;> exact Passive.apart

/-- A queued request gets the layer that it needs. -/
theorem passive_wrapQueued (p : Nat) (dc : Datacenter) (version : Nat) :
    Passive (modifyRequest p fun r =>
      if r.needInitRequest dc version && !r.hasInitFlag then wrapInLayer r (some dc) version else
        r) := by
  refine passive_modifyRequest fun r own => ?_
  have settled := settled_wrapInLayer r (some dc) version
  split
  · rw [Request.Plain, settled.connectionType, settled.callback]
    exact own
  · exact own

theorem apart_queuedInDatacenter (currentTime : Int) (p datacenterId d : Nat) :
    Keeps Apart (queuedInDatacenter env currentTime p datacenterId d) := by
  refine keeps_bind Passive.apart fun dc => keeps_bind keeps_read fun s =>
    keeps_bind (passive_wrapQueued _ _ _).apart fun _ => ?_
  refine keeps_bind (keeps_queuedRequest p) fun r => keeps_ite (fun _ => Passive.apart) fun _ =>
    keeps_ite (fun _ => Passive.apart) fun _ => ?_
  refine keeps_bind Passive.apart fun connection => keeps_bind (keeps_require _) fun c =>
    keeps_bind keeps_read fun s => ?_
  refine keeps_when fun _ => keeps_bind (apart_admitRequest _ _) fun admitted => ?_
  exact keeps_when fun _ => Passive.apart

theorem apart_queueLoop (currentTime : Int) : Keeps Apart (queueLoop env currentTime) := by
  refine keeps_bind keeps_read fun s => keeps_each fun p _ => ?_
  refine keeps_bind (keeps_queuedRequest p) fun r => keeps_bind keeps_read fun s =>
    keeps_ite (fun _ => Passive.apart)
    fun _ => keeps_when fun _ => keeps_bind Passive.apart fun datacenterId =>
      keeps_bind Passive.apart fun found => ?_
  split
  · exact Passive.apart
  · exact apart_queuedInDatacenter env currentTime p _ _

/-- A call of the queue has nothing to do with the proxy checks. -/
theorem apart_processRequestQueue (call : QueueCall) :
    Keeps Apart (processRequestQueue env call) := by
  refine keeps_bind (keeps_update fun s => ?_) fun _ => keeps_bind Passive.apart fun n => ?_
  · exact ⟨rfl, rfl, rfl, rfl, fun plain =>
      ⟨plain.requestsQueue, plain.runningRequests, plain.pendingTasks⟩⟩
  refine keeps_bind (apart_runningLoop env call _) fun _ => keeps_bind Passive.apart fun _ => ?_
  refine keeps_bind (apart_queueLoop env _) fun _ => keeps_bind Passive.apart fun _ => ?_
  exact keeps_bind Passive.apart fun _ => Passive.apart

end Calls

/-! ## The start -/

instance passive_loadConfig (env : Env) (config : Option SavedConfig) :
    Passive (loadConfig env config) := by
  have stored : Passive (readConfig config) := by
    unfold readConfig
    split <;> infer_instance
  have reset : Passive resetAuthorization := by
    unfold resetAuthorization; infer_instance
  have entered : Passive initDatacenters := by
    refine passive_update fun s => ?_
    split <;> exact .of_same rfl rfl rfl rfl rfl rfl rfl rfl rfl
  unfold loadConfig
  infer_instance

/-! ## Plain downloads -/

section Plains

variable {env : Env}

/-- Downloads stay plain. -/
def Plains (s t : ConnectionsManager) : Prop := s.PlainDownloads → t.PlainDownloads

instance : IsPreorder ConnectionsManager Plains where
  refl _ := id
  trans _ _ _ first second := second ∘ first

theorem plains_of_apart {α : Type} {m : M α} (kept : Keeps Apart m) : Keeps Plains m :=
  kept.mono fun _ _ apart => apart.plain

theorem Passive.plains {α : Type} {m : M α} [Passive m] : Keeps Plains m :=
  plains_of_apart Passive.apart

theorem plains_scheduleTask {task : Task} (own : task.Plain) :
    Keeps Plains (scheduleTask task) := by
  refine keeps_update fun s plain =>
    ⟨plain.requestsQueue, plain.runningRequests, fun task' mem => ?_⟩
  rcases List.mem_append.1 mem with old | new
  · exact plain.pendingTasks task' old
  · rwa [List.mem_singleton.1 new]

theorem plains_checkNextProxy : Keeps Plains checkNextProxy := by
  refine keeps_bind keeps_read fun s => ?_
  split
  · exact keeps_pure _
  · refine keeps_bind (keeps_update fun s plain => ?_) fun _ => plains_scheduleTask trivial
    exact ⟨plain.requestsQueue, plain.runningRequests, plain.pendingTasks⟩

/-- The request of a check leaves the list. -/
theorem plains_endCheck (request : Request → Bool) (check : ProxyCheckInfo → Bool) :
    Keeps Plains (update (fun s : ConnectionsManager =>
      { s with
        runningRequests := s.runningRequests.eraseP request
        proxyActiveChecks := s.proxyActiveChecks.eraseP check }) >>= fun _ => checkNextProxy) := by
  refine keeps_bind (keeps_update fun s plain => ?_) fun _ => plains_checkNextProxy
  exact ⟨plain.requestsQueue, fun r mem => plain.runningRequests r (List.mem_of_mem_eraseP mem),
    plain.pendingTasks⟩

theorem plains_onPong (c : ConnectionId) (messageId pingId : Int) :
    Keeps Plains (onPong env c messageId pingId) := by
  refine keeps_bind keeps_read fun s => keeps_ite (fun _ => Passive.plains) fun _ =>
    keeps_ite (fun _ => keeps_bind keeps_read fun s => ?_) fun _ => Passive.plains
  split
  · exact keeps_pure _
  · exact plains_endCheck _ _

theorem plains_onProxyConnectionClosed (c : ConnectionId) :
    Keeps Plains (onProxyConnectionClosed c) := by
  refine keeps_bind keeps_read fun s => ?_
  dsimp only
  split
  · exact keeps_pure _
  · exact keeps_when fun _ => plains_endCheck _ _

theorem plains_checkProxyInternal (info : ProxyCheckInfo) :
    Keeps Plains (checkProxyInternal env info) := by
  refine keeps_bind keeps_read fun s => ?_
  split
  · exact keeps_update fun s plain =>
      ⟨plain.requestsQueue, plain.runningRequests, plain.pendingTasks⟩
  · refine keeps_bind Passive.plains fun found => keeps_bind (keeps_require _) fun d =>
      keeps_bind Passive.plains fun connection => ?_
    split
    · exact keeps_pure _
    · refine keeps_bind Passive.plains fun _ => keeps_bind Passive.plains fun token => ?_
      refine keeps_bind (passive_sendRequest fun _ => rfl).plains fun _ => ?_
      exact keeps_update fun s plain =>
        ⟨plain.requestsQueue, plain.runningRequests, plain.pendingTasks⟩

theorem plains_onHandshakeComplete (d : Nat) (type : HandshakeType) (timeDifference : Int) :
    Keeps Plains (onHandshakeComplete env d type timeDifference) := by
  refine keeps_bind Passive.plains fun dc => keeps_when fun _ => keeps_bind Passive.plains fun _ =>
    ?_
  refine keeps_bind Passive.plains fun _ => keeps_bind Passive.plains fun _ =>
    keeps_bind keeps_read fun s => ?_
  refine keeps_bind Passive.plains fun _ =>
    keeps_bind (keeps_when fun _ => plains_checkNextProxy) fun _ => ?_
  exact Passive.plains

theorem Task.run_plains {task : Task} (own : task.Plain) : Keeps Plains (task.run env) := by
  cases task with
  | sendRequest args => exact (passive_enqueueRequest own).plains
  | checkProxy info => exact plains_checkProxyInternal info
  | proxyConnectionClosed c => exact plains_onProxyConnectionClosed c
  | handshakeComplete d type timeDifference =>
      exact plains_onHandshakeComplete d type timeDifference
  | cancelRequest token notifyServer => exact Passive.plains (m := cancelRequestInternal _ _ _)
  | cleanUp resetKeys => exact Passive.plains (m := Manager.cleanUp env _)
  | processRequestQueue connectionTypes dc => exact Passive.plains (m := callQueue _)
  | setUserId userId => exact Passive.plains (m := Manager.setUserId env _)

theorem Input.run_plains (input : Input) : Keeps Plains (input.run env) := by
  by_cases task : input = .runTask
  · subst task
    intro s x t run plain
    rw [Input.run, read_bind] at run
    cases planned : s.pendingTasks with
    | nil =>
      rw [planned] at run
      cases run
    | cons task rest =>
      rw [planned] at run
      change (update _ >>= fun _ => task.run env) s = some (x, t) at run
      rw [update_bind] at run
      have own : task.Plain := plain.pendingTasks task (planned ▸ List.mem_cons_self)
      refine Task.run_plains own _ _ _ run ⟨plain.requestsQueue, plain.runningRequests,
        fun task' mem => ?_⟩
      exact plain.pendingTasks task' (planned ▸ List.mem_cons_of_mem task mem)
  by_cases call : input = .runQueueCall
  · subst call
    refine keeps_bind keeps_read fun s => keeps_bind (keeps_require _) fun call => ?_
    exact keeps_bind Passive.plains fun _ => plains_of_apart (apart_processRequestQueue env call)
  by_cases pong : ∃ pingId messageId c innerMsgId containerMessageId,
      input = .received (.pong pingId) messageId c innerMsgId containerMessageId
  · obtain ⟨pingId, messageId, c, innerMsgId, containerMessageId, rfl⟩ := pong
    exact plains_onPong c messageId pingId
  by_cases check : ∃ info, input = .schedule (.checkProxy info)
  · obtain ⟨info, rfl⟩ := check
    have own : Task.Plain (.checkProxy info) := trivial
    unfold Input.run
    exact keeps_ite (fun _ => plains_scheduleTask own) fun _ => keeps_fault
  · push Not at pong check
    exact (passive_input env task call pong check).plains

/-- Downloads stay plain in every step. -/
theorem step_plains (input : Input) : Keeps Plains (step env input) :=
  keeps_bind keeps_read fun _ => keeps_ite (fun _ => keeps_fault) fun _ => Input.run_plains input

end Plains

end Mtproto.Manager
