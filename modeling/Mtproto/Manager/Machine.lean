import Mtproto.Manager.Response

/-!
The request machine: everything that can happen to a `ConnectionsManager`, one handler of the
network thread or one call of the application at a time.
-/

namespace Mtproto.Manager

open Lib Program

variable (env : Env)

/-! ## Start -/

/-- What `tgnet.dat` holds. -/
structure SavedConfig where
  currentDatacenterId : Nat
  timeDifference : Int
  pushSessionId : Int
  sessionsToDestroy : List Int
  datacenters : List (Nat × Datacenter)

/-- The stored state, if there is a file that holds one. -/
def readConfig : Option SavedConfig → M Unit
  | none => pure ()
  | some config =>
      update fun s =>
        { s with
          currentDatacenterId := config.currentDatacenterId
          timeDifference := config.timeDifference
          pushSessionId := config.pushSessionId
          sessionsToDestroy := config.sessionsToDestroy
          datacenters := config.datacenters.foldl (fun datacenters entry =>
            datacenters.insert entry.1 (some entry.2)) s.datacenters }

/-- A logged in user needs the key of the current datacenter. -/
def resetAuthorization : M Unit := do
  let s ← read
  when (s.currentDatacenterId ≠ 0 ∧ s.currentUserId ≠ 0) do
    let found ← getDatacenterWithId s.currentDatacenterId
    let s ← read
    when (((found.bind s.datacenter).map (·.authKeyPerm)).getD false = false)
      (update fun s => { s with currentDatacenterId := 0, datacenters := [] })

/-- `initDatacenters`. -/
def initDatacenters : M Unit :=
  update fun s =>
    if s.datacenters.find 2 = none then
      { s with datacenters := s.datacenters.insert 2 (some {}) }
    else s

/-- `loadConfig`. -/
def loadConfig (config : Option SavedConfig) : M Unit := do
  readConfig config
  resetAuthorization
  initDatacenters
  let n ← reading
  let s ← read
  when ((s.datacenters ≠ [] ∧ s.currentDatacenterId = 0) ∨ s.pushSessionId = 0) do
    update fun s =>
      { s with
        pushSessionId := if s.pushSessionId = 0 then env.newSessionId n else s.pushSessionId
        currentDatacenterId := if s.currentDatacenterId = 0 then 2 else s.currentDatacenterId }
    saveConfig

/-- The states after `loadConfig`, for any arguments of `init`. -/
def Started (config : Option SavedConfig) (s : ConnectionsManager) : Prop :=
  ∃ (userId : Int) (version : Nat) (hasNetwork enablePushConnection : Bool),
    loadConfig env config
      { currentUserId := userId, currentVersion := version, networkAvailable := hasNetwork,
        pushConnectionEnabled := enablePushConnection } = some ((), s)

/-! ## Tasks -/

/-- `Datacenter::onHandshakeComplete` with `onDatacenterHandshakeComplete`. -/
def onHandshakeComplete (d : Nat) (type : HandshakeType) (timeDifference : Int) : M Unit := do
  let dc ← datacenter d
  when (type ∈ dc.handshakes) do
    modifyDatacenter d fun dc =>
      { dc with
        handshakes := dc.handshakes.erase type
        authKeyPerm := if type = .perm then true else dc.authKeyPerm
        lastInitVersion := if type = .temp then 0 else dc.lastInitVersion
        lastInitMediaVersion := if type = .mediaTemp then 0 else dc.lastInitMediaVersion }
    when (type = .perm ∧ dc.isCdnDatacenter = false ∧ pfsEnabled = true)
      (beginHandshake env d .all false)
    saveConfig
    let s ← read
    when (d = s.currentDatacenterId ∨ d = s.movingToDatacenterId) do
      update fun s => { s with timeDifference := timeDifference }
      recreateSessions env d type
      clearRequestsForDatacenter (some d) type
    when (type = .temp) checkNextProxy
    callQueue ⟨ConnectionType.all, d, false⟩

/-- The task of a closed proxy connection: the request of its check leaves the list. -/
def onProxyConnectionClosed (c : ConnectionId) : M Unit := do
  let s ← read
  let num := match c.slot with
    | .proxy num => num.val
    | _ => 0
  match s.proxyActiveChecks.find? fun info => info.connectionNum == num with
  | none => pure ()
  | some info =>
      let matching := fun (r : Request) => r.connectionToken == s.token c &&
        r.requestToken == info.requestToken && r.lowType == ConnectionType.proxy
      when (s.runningRequests.any matching) do
        update fun s =>
          { s with
            runningRequests := s.runningRequests.eraseP matching
            proxyActiveChecks := s.proxyActiveChecks.eraseP fun other =>
              other.connectionNum == num }
        checkNextProxy

/-- The first proxy connection that no check uses. -/
def freeConnectionNum (active : List ProxyCheckInfo) : Option (Fin 4) :=
  (List.finRange 4).find? fun num => active.all fun info => info.connectionNum != num.val

/-- The task of `checkProxyInternal`. -/
def checkProxyInternal (info : ProxyCheckInfo) : M Unit := do
  let s ← read
  match freeConnectionNum s.proxyActiveChecks with
  | none => update fun s => { s with proxyCheckQueue := s.proxyCheckQueue ++ [info] }
  | some num => do
      let found ← getDatacenterWithId defaultDatacenterId
      let d ← require found
      let connection ← getConnection env ⟨d, .proxy num⟩ true
      match connection with
      | none => pure ()
      | some c => do
          suspendConnection c false
          let requestToken ← newRequestToken
          sendRequest
            { object := .ping
              onComplete := .none
              flags := RequestFlag.enableUnauthorized ||| RequestFlag.withoutLogin
              datacenterId := defaultDatacenterId
              connectionType := ConnectionType.proxy ||| num.val * 65536
              immediate := true
              requestToken }
          update fun s =>
            { s with
              proxyActiveChecks :=
                s.proxyActiveChecks ++ [{ info with connectionNum := num.val, requestToken }] }

/-- The push connection of the current datacenter takes the stored session. -/
def openPushConnection : M Unit := do
  let s ← read
  let found ← getDatacenterWithId s.currentDatacenterId
  match found with
  | none => pure ()
  | some d => do
      createConnection env ⟨d, .push⟩
      modifyConnection ⟨d, .push⟩ fun session => { session with sessionId := s.pushSessionId }
      sendPing env d true

/-- The task of `setUserId`. -/
def setUserId (userId : Int) : M Unit := do
  update fun s => { s with currentUserId := userId }
  let s ← read
  when (userId ≠ 0 ∧ s.pushConnectionEnabled = true) (openPushConnection env)

/-- The body of a task. -/
def Task.run : Task → M Unit
  | .sendRequest args => enqueueRequest args
  | .cancelRequest token notifyServer => cancelRequestInternal token 0 notifyServer
  | .cleanUp resetKeys => Manager.cleanUp env resetKeys
  | .processRequestQueue connectionTypes dc => callQueue ⟨connectionTypes, dc, false⟩
  | .handshakeComplete d type timeDifference => onHandshakeComplete env d type timeDifference
  | .proxyConnectionClosed c => onProxyConnectionClosed c
  | .checkProxy info => checkProxyInternal env info
  | .setUserId userId => Manager.setUserId env userId

/-! ## Sockets -/

/-- `Connection::onConnected` gives a connecting connection the next token. -/
def takeToken (c : ConnectionId) : M Unit := do
  let connection ← connection c
  let s ← read
  if connection.stage ≠ .connecting then fault
  else do
    modifyConnection c fun connection =>
      { connection with stage := .connected s.lastConnectionToken }
    update fun s => { s with lastConnectionToken := (s.lastConnectionToken + 1) % 2 ^ 32 }
    record (.connected c s.lastConnectionToken)

/-- `onConnectionConnected`. -/
def onConnectionConnected (c : ConnectionId) : M Unit := do
  let dc ← datacenter c.datacenter
  when (¬ ((c.slot = .generic ∨ c.slot = .genericMedia) ∧ dc.handshakes ≠ []) ∧
      dc.authKeyPerm = true) do
    if c.slot = .push then do
      update fun s => { s with sendingPushPing := false }
      sendPing env c.datacenter true
    else callQueue ⟨c.slot.connectionType, c.datacenter, true⟩

/-- The transport error -404: a CDN gets a new key, another connection is opened again. -/
def onKeyNotFound (c : ConnectionId) : M Unit := do
  let dc ← datacenter c.datacenter
  if dc.isCdnDatacenter || pfsEnabled then restartHandshake env c true else Manager.reconnect env c

/-- `loadCdnConfig`; `cached` says whether the keys were found in the stored file. -/
def loadCdnConfig (d : Nat) (cached : Bool) : M Unit := do
  let s ← read
  when (d ∉ s.cdnWaitingDatacenters) do
    update fun s => { s with cdnWaitingDatacenters := s.cdnWaitingDatacenters ++ [d] }
    when (s.loadingCdnKeys = false) do
      if cached then do
        let s ← read
        each (fun d => beginHandshake env d .current false) s.cdnWaitingDatacenters
        update fun s => { s with cdnWaitingDatacenters := [] }
      else do
        update fun s => { s with loadingCdnKeys := true }
        sendNewRequest .getCdnConfig .cdnConfig
          (RequestFlag.enableUnauthorized ||| RequestFlag.withoutLogin) defaultDatacenterId
          ConnectionType.generic

/-- The task of `setNetworkAvailable`. -/
def setNetworkAvailable (value : Bool) : M Unit := do
  update fun s => { s with networkAvailable := value }
  let s ← read
  when value
    (each (fun d => do
      let dc ← datacenter d
      if isHandshaking dc false then do
        createConnection env ⟨d, .generic⟩
        connect env ⟨d, .generic⟩
      else when (isHandshaking dc true) do
        createConnection env ⟨d, .genericMedia⟩
        connect env ⟨d, .genericMedia⟩) (s.datacenters.map (·.1)))

/-- `setPushConnectionEnabled`. -/
def setPushConnectionEnabled (value : Bool) : M Unit := do
  update fun s => { s with pushConnectionEnabled := value }
  if value then openPushConnection env
  else do
    let s ← read
    let found ← getDatacenterWithId s.currentDatacenterId
    match found with
    | none => pure ()
    | some d => do
        let connection ← getConnection env ⟨d, .push⟩ false
        match connection with
        | none => pure ()
        | some c => suspendConnection c false

/-! ## Steps -/

/-- The inputs of the machine. -/
inductive Input
  -- calls of the application
  | sendRequest (args : RequestArgs)
  | schedule (task : Task)
  | setPushConnectionEnabled (value : Bool)
  | setNetworkAvailable (value : Bool)
  | updateDcSettings (dcNum : Nat) (workaround : Bool)
  -- the network thread
  | runTask
  | runQueueCall
  | processRequestQueue (connectionTypes dc : Nat)
  | cancelRequestInternal (token messageId : Int) (notifyServer : Bool)
  | getDatacenterWithId (id : Nat)
  | clearRequestsForDatacenter (d : Nat) (type : HandshakeType)
  -- sockets and timers
  | connected (c : ConnectionId)
  | disconnected (c : ConnectionId) (error : Int)
  | reconnect (c : ConnectionId)
  | reconnectTimer (c : ConnectionId)
  | suspendConnections (d : Nat)
  | keyNotFound (c : ConnectionId)
  | sendPing (d : Nat) (usePushConnection : Bool)
  -- messages of the server
  | received (message : ServerMessage) (messageId : Int) (c : ConnectionId)
      (innerMsgId containerMessageId : Int)
  | messageToConfirm (c : ConnectionId) (messageId : Int)
  | messageProcessed (c : ConnectionId) (messageId : Int)
  | acknowledge (c : ConnectionId)
  -- handshakes
  | beginHandshake (d : Nat) (type : HandshakeType) (reconnect : Bool)
  | handshakeData (d : Nat) (type : HandshakeType)
  | loadCdnConfig (d : Nat) (cached : Bool)

/-- The tasks that are scheduled from outside; the others belong to the manager. -/
def Task.isCall : Task → Bool
  | .cancelRequest _ _ | .cleanUp _ | .handshakeComplete _ _ _ | .checkProxy _ | .setUserId _ =>
      true
  | _ => false

/-- The inputs that arrive while the network thread is about to call `processRequestQueue`. -/
def Input.isConcurrent : Input → Bool
  | .sendRequest _ | .schedule _ | .runQueueCall => true
  | _ => false

/-- What an input does. -/
def Input.run : Input → M Unit
  | .sendRequest args => if args.onComplete.isPlain then Manager.sendRequest args else fault
  | .schedule task => if task.isCall then scheduleTask task else fault
  | .setPushConnectionEnabled value => Manager.setPushConnectionEnabled env value
  | .setNetworkAvailable value => Manager.setNetworkAvailable env value
  | .updateDcSettings dcNum workaround => Manager.updateDcSettings env dcNum workaround
  | .runTask => do
      let s ← read
      match s.pendingTasks with
      | task :: rest => do
          update fun s => { s with pendingTasks := rest }
          task.run env
      | [] => fault
  | .runQueueCall => do
      let s ← read
      let call ← require s.queueCall
      update fun s => { s with queueCall := none }
      Manager.processRequestQueue env call
  | .processRequestQueue connectionTypes dc => callQueue ⟨connectionTypes, dc, false⟩
  | .cancelRequestInternal token messageId notifyServer =>
      Manager.cancelRequestInternal token messageId notifyServer
  | .getDatacenterWithId id => do
      let _ ← Manager.getDatacenterWithId id
      pure ()
  | .clearRequestsForDatacenter d type => Manager.clearRequestsForDatacenter (some d) type
  | .connected c => do
      takeToken c
      onConnectionConnected env c
  | .disconnected c error => onDisconnected c error
  | .reconnect c => Manager.reconnect env c
  | .reconnectTimer c => do
      modifyConnection c fun connection => { connection with waitForReconnectTimer := false }
      connect env c
  | .suspendConnections d => Manager.suspendConnections d
  | .keyNotFound c => onKeyNotFound env c
  | .sendPing d usePushConnection => Manager.sendPing env d usePushConnection
  | .received message messageId c innerMsgId containerMessageId =>
      processServerResponse env message messageId c innerMsgId containerMessageId
  | .messageToConfirm c messageId => addMessageToConfirm c messageId
  | .messageProcessed c messageId => addProcessedMessageId c messageId
  | .acknowledge c => sendMessagesToConnectionWithConfirmation env [] c
  | .beginHandshake d type reopen => Manager.beginHandshake env d type reopen
  | .handshakeData d type => sendHandshakeData env d type
  | .loadCdnConfig d cached => Manager.loadCdnConfig env d cached

/-- One step of the machine: while a call of `processRequestQueue` is pending, the network thread
does nothing else. -/
def step (input : Input) : M Unit := do
  let s ← read
  if s.queueCall.isSome && !input.isConcurrent then fault else input.run env

end Mtproto.Manager
