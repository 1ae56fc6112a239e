import Mtproto.Manager.Requests

/-!
`processRequestQueue`: the pass over the running requests that retries them, the pass over the
queue that starts new ones, and the packets that carry what both collected.
-/

namespace Mtproto.Manager

open Lib Program

variable (env : Env)

/-! ## Working lists -/

def addUnknownDatacenter (id : Nat) : M Unit :=
  update fun s =>
    if id ∈ s.unknownDatacenterIds then s
    else { s with unknownDatacenterIds := s.unknownDatacenterIds ++ [id] }

def addNeededDatacenter (d connectionType : Nat) : M Unit :=
  update fun s =>
    if (d, connectionType) ∈ s.neededDatacenters then s
    else { s with neededDatacenters := s.neededDatacenters ++ [(d, connectionType)] }

def addUnauthorizedDatacenter (d : Nat) : M Unit :=
  update fun s =>
    if d ∈ s.unauthorizedDatacenters then s
    else { s with unauthorizedDatacenters := s.unauthorizedDatacenters ++ [d] }

/-- The three maps of messages that wait for the end of the call. -/
inductive Batch
  | generic
  | genericMedia
  | temp

/-- The connection on which a batch is sent. -/
def Batch.slot : Batch → Slot
  | .generic => .generic
  | .genericMedia => .genericMedia
  | .temp => .temp

def ConnectionsManager.batch (s : ConnectionsManager) : Batch → OrderedMap Nat (List NetworkMessage)
  | .generic => s.genericMessagesToDatacenters
  | .genericMedia => s.genericMediaMessagesToDatacenters
  | .temp => s.tempMessagesToDatacenters

def ConnectionsManager.setBatch (s : ConnectionsManager) (batch : Batch)
    (messages : OrderedMap Nat (List NetworkMessage)) : ConnectionsManager :=
  match batch with
  | .generic => { s with genericMessagesToDatacenters := messages }
  | .genericMedia => { s with genericMediaMessagesToDatacenters := messages }
  | .temp => { s with tempMessagesToDatacenters := messages }

/-- `addMessageToDatacenter`. -/
def addMessageToDatacenter (d : Nat) (message : NetworkMessage) (batch : Batch) : M Unit :=
  update fun s =>
    s.setBatch batch ((s.batch batch).insert d (((s.batch batch).find d).getD [] ++ [message]))

/-- The message of a request. -/
def Request.networkMessage (r : Request) : NetworkMessage where
  msgId := r.messageId
  seqNo := r.messageSeqNo
  bytes := r.serializedLength
  requestId := r.requestToken
  invokeAfter := r.hasFlag RequestFlag.invokeAfter
  needQuickAck := r.hasFlag RequestFlag.needQuickAck

/-- Where the message of a request goes: into a batch or straight to its connection.  Other
types than these are dropped. -/
def dispatch (r : Request) (c : ConnectionId) : M Unit :=
  match r.lowType with
  | 1 => addMessageToDatacenter c.datacenter r.networkMessage .generic
  | 64 => addMessageToDatacenter c.datacenter r.networkMessage .genericMedia
  | 16 => addMessageToDatacenter c.datacenter r.networkMessage .temp
  | 32 => sendMessagesToConnection env [r.networkMessage] c
  | 2 | 4 => sendMessagesToConnectionWithConfirmation env [r.networkMessage] c
  | _ => pure ()

/-! ## Running requests -/

/-- The counters of the running requests. -/
def countRunning (r : Request) (datacenterId : Nat) : M Unit :=
  update fun s =>
    match r.lowType with
    | 1 => { s with genericRunningRequestCount := s.genericRunningRequestCount + 1 }
    | 2 =>
        let currentCount := (s.downloadRunningRequestCount.find datacenterId).getD 0
        { s with
          downloadRunningRequestCount :=
            s.downloadRunningRequestCount.insert datacenterId (currentCount + 1) }
    | 4 => { s with uploadRunningRequestCount := s.uploadRunningRequestCount + 1 }
    | _ => s

/-- Whether a request that may try another datacenter has waited long enough to go back to the
queue. -/
def leavesForDifferentDc (currentTime : Int) (r : Request) : M Bool := do
  let s ← read
  if r.hasFlag RequestFlag.tryDifferentDc then do
    let updating := s.updatingDcSettings && decide (r.rawRequest = .getConfig)
    when updating (update fun s => { s with updatingDcStartTime := currentTime })
    let requestStartTime := if updating then s.updatingDcStartTime else r.startTime
    let timeout := if updating then 60 else 30
    pure (decide (r.startTime ≠ 0) && decide (timeout ≤ (currentTime - requestStartTime).natAbs))
  else pure false

/-- A running request goes back to the end of the queue. -/
def moveToQueue (p : Nat) : M Unit := do
  let r ← runningRequest p
  update fun s =>
    { s with
      requestsQueue := s.requestsQueue ++ [r]
      runningRequests := s.runningRequests.eraseP fun r => r.id == p }

/-- `TL_get_future_salts` and `TL_destroy_session` start over on every pass. -/
def Request.isServiceRequest (r : Request) : Bool :=
  decide (r.rawRequest = .getFutureSalts) || decide (r.rawRequest = .destroySession)

/-- Whether the call asks for this request. -/
def forceThisRequest (call : QueueCall) (d : Nat) (r : Request) : Bool :=
  hasBits call.connectionTypes r.lowType && decide (d = call.dc) && !r.isServiceRequest

/-- Whether a running request is sent again on its connected connection: the call asks for it, or it
has waited long enough and was not sent under this token. -/
def isDue (call : QueueCall) (currentTime : Int) (d token : Nat) (r : Request) : Bool :=
  let maxTimeout := if hasBits r.connectionType ConnectionType.generic then 8 else 30
  forceThisRequest call d r ||
    (decide (maxTimeout < (currentTime - r.startTime).natAbs) &&
      (decide (r.minStartTime ≤ currentTime) ||
        (decide (r.failedByFloodWait ≠ 0) &&
          decide (r.failedByFloodWait < r.minStartTime - currentTime)) ||
        (decide (r.failedByFloodWait = 0) &&
          decide (60 ≤ (currentTime - r.minStartTime).natAbs))) &&
      !(decide (0 < r.connectionToken) && decide (r.connectionToken = token)))

/-- How often a download is retried. -/
def Request.retryMax (r : Request) : Nat :=
  if r.hasFlag RequestFlag.forceDownload then 10 else if r.failedByFloodWait ≠ 0 then 1 else 6

/-- The retry limit of downloads; a request that failed by its salt gets one retry more. -/
def Request.isAtRetryLimit (r : Request) : Bool :=
  !r.failedBySalt && hasBits r.connectionType ConnectionType.download &&
    decide (r.retryMax ≤ r.retryCount)

/-- `RETRY_LIMIT`. -/
def failRequest (p : Nat) : M Unit := do
  let r ← runningRequest p
  onComplete env r none
  eraseRunning p

/-- Gives a cleared request a new number and a new id, in this order. -/
def renewMessageId (p : Nat) (c : ConnectionId) : M Unit := do
  let r ← runningRequest p
  when (r.messageSeqNo = 0) do
    let seqNo ← generateMessageSeqNo c (!hasBits r.connectionType ConnectionType.proxy)
    let msgId ← generateMessageId env
    assigned c msgId seqNo
    modifyRequest p fun r => { r with messageId := msgId, messageSeqNo := seqNo }

/-- Sends a running request again: it takes the token of the connection, but after a socket was
just opened its message goes nowhere. -/
def retryRequest (call : QueueCall) (currentTime : Int) (p : Nat) (c : ConnectionId) : M Unit := do
  renewMessageId env p c
  let s ← read
  modifyRequest p fun r =>
    { r with failedBySalt := false, startTime := currentTime, connectionToken := s.token c }
  let r ← runningRequest p
  when (call.justOpenedSocket = false) (dispatch env r c)

/-- The retry of a running request on a connected connection. -/
def retryIfDue (call : QueueCall) (currentTime : Int) (p : Nat) (c : ConnectionId) : M Unit := do
  let r ← runningRequest p
  when r.isServiceRequest
    (modifyRequest p fun r => (if r.messageId ≠ 0 then r.addRespondMessageId else r).clear false)
  let r ← runningRequest p
  let s ← read
  when (isDue call currentTime c.datacenter (s.token c) r) do
    modifyRequest p fun r =>
      { r with
        lastResendTime :=
          if r.connectionToken ≠ 0 ∧ r.connectionToken ≠ s.token c then 0 else r.lastResendTime
        retryCount := r.retryCount + 1 }
    let r ← runningRequest p
    if r.isAtRetryLimit then failRequest env p else retryRequest env call currentTime p c

/-- Whether a request has to wait until its datacenter is authorised. -/
def Request.isUnauthorized (r : Request) (dc : Datacenter) (currentDatacenterId : Nat) : Bool :=
  !r.hasFlag RequestFlag.enableUnauthorized && !dc.authorized &&
    decide (r.datacenterId ≠ defaultDatacenterId) && decide (r.datacenterId ≠ currentDatacenterId)

/-- A running request whose datacenter is known. -/
def runningInDatacenter (call : QueueCall) (currentTime : Int) (p d : Nat) : M Unit := do
  let dc ← datacenter d
  when dc.isCdnDatacenter
    (modifyRequest p fun r =>
      { r with requestFlags := r.requestFlags ||| RequestFlag.enableUnauthorized })
  let r ← runningRequest p
  let s ← read
  if r.needInitRequest dc s.currentVersion && !r.hasInitFlag && r.rawRequest.isNeedLayer then
    moveToQueue p
  else if dc.authKeyPerm = false then addNeededDatacenter d r.connectionType
  else if r.isUnauthorized dc s.currentDatacenterId then addUnauthorizedDatacenter d
  else do
    let connection ← getConnectionByType env d r.connectionType true
    let s ← read
    when (s.networkAvailable = true) do
      let c ← require connection
      when (s.token c ≠ 0) (retryIfDue env call currentTime p c)

/-- The datacenter id of a request outside a migration. -/
def Request.targetDatacenterId (r : Request) (currentDatacenterId : Nat) : Nat :=
  if r.datacenterId = defaultDatacenterId then currentDatacenterId else r.datacenterId

/-- Whether a migration holds the request back. -/
def Request.waitsForMove (r : Request) (movingToDatacenterId : Nat) : Bool :=
  decide (r.datacenterId = defaultDatacenterId) &&
    decide (movingToDatacenterId ≠ defaultDatacenterId)

/-- The body of the loop over `runningRequests`. -/
def runningStep (call : QueueCall) (currentTime : Int) (p : Nat) : M Unit := do
  let r ← runningRequest p
  let s ← read
  when (r.waitsForMove s.movingToDatacenterId = false) do
    let datacenterId := r.targetDatacenterId s.currentDatacenterId
    countRunning r datacenterId
    let leaves ← leavesForDifferentDc currentTime r
    if leaves then moveToQueue p
    else do
      let requestDatacenter ← getDatacenterWithId datacenterId
      match requestDatacenter with
      | none => addUnknownDatacenter datacenterId
      | some d => runningInDatacenter env call currentTime p d

/-! ## Sessions to destroy -/

/-- One `TL_destroy_session` at a time, at most every three seconds.  The iterator is read after the
erasure: it then points to the id that followed the erased one, or past the end. -/
def destroyFirst (currentTime : Int) (d : Nat) (c : ConnectionId) : M Unit := do
  let s ← read
  when (s.sessionsToDestroy ≠ [] ∧ s.token c ≠ 0) do
    update fun s => { s with sessionsToDestroy := s.sessionsToDestroy.tail }
    when (2 < (currentTime - s.lastDestroySessionRequestTime).natAbs) do
      update fun s => { s with lastDestroySessionRequestTime := currentTime }
      let s ← read
      let sessionId ← require s.sessionsToDestroy.head?
      let (msgId, seqNo) ← newMessage env c false
      let n ← reading
      addMessageToDatacenter d
        { msgId, seqNo, bytes := env.objectSize n, destroySession := some sessionId } .generic

/-- The generic connection of the current datacenter takes the message. -/
def destroySession (currentTime : Int) : M Unit := do
  let s ← read
  let defaultDatacenter ← getDatacenterWithId s.currentDatacenterId
  match defaultDatacenter with
  | none => pure ()
  | some d => do
      let genericConnection ← getConnection env ⟨d, .generic⟩ true
      match genericConnection with
      | none => pure ()
      | some c => destroyFirst env currentTime d c

/-! ## Queued requests -/

/-- The other datacenters that are no CDN; every entry but the request's own is followed. -/
def differentDatacenters (datacenterId : Nat) :
    OrderedMap Nat (Option Datacenter) → Option (List Nat)
  | [] => some []
  | (id, entry) :: rest =>
      if id = datacenterId then differentDatacenters datacenterId rest
      else entry.bind fun dc => (differentDatacenters datacenterId rest).map fun ids =>
        if dc.isCdnDatacenter then ids else id :: ids

/-- The entry a random byte selects, 0 if there is none. -/
def pickDatacenter (allDc : List Nat) (index : Nat) : Nat := allDc.getD (index % allDc.length) 0

/-- Sends a request that waited too long to another datacenter.  Only `TL_help_getConfig` goes
there alone; for any other request the current datacenter changes. -/
def switchDatacenter (currentTime : Int) (p datacenterId : Nat) : M Nat := do
  let s ← read
  let allDc ← require (differentDatacenters datacenterId s.datacenters)
  let n ← reading
  let chosen := pickDatacenter allDc (env.randomByte n)
  let r ← queuedRequest p
  (if r.rawRequest = .getConfig then do
    update fun s => { s with updatingDcStartTime := currentTime }
    modifyRequest p fun r => { r with datacenterId := chosen }
  else update fun s => { s with currentDatacenterId := chosen })
  pure chosen

/-- The datacenter for a queued request. -/
def chooseDatacenter (currentTime : Int) (p datacenterId : Nat) : M Nat := do
  let r ← queuedRequest p
  let s ← read
  if r.hasFlag RequestFlag.tryDifferentDc then do
    let updating := s.updatingDcSettings && decide (r.rawRequest = .getConfig)
    let requestStartTime := if updating then s.updatingDcStartTime else r.startTime
    let timeout := if updating then 60 else 30
    when (updating = false) (modifyRequest p fun r => { r with startTime := 0 })
    if requestStartTime ≠ 0 ∧ timeout ≤ (currentTime - requestStartTime).natAbs then
      switchDatacenter env currentTime p datacenterId
    else pure datacenterId
  else pure datacenterId

/-- The limits on requests under way at the same time; an admitted request is counted. -/
def admitRequest (r : Request) (datacenterId : Nat) : M Bool := do
  let s ← read
  match r.lowType with
  | 1 | 64 =>
      if r.canUseUnboundKey = false ∧ 60 ≤ s.genericRunningRequestCount then pure false
      else do
        update fun s => { s with genericRunningRequestCount := s.genericRunningRequestCount + 1 }
        pure true
  | 2 =>
      let currentCount := (s.downloadRunningRequestCount.find datacenterId).getD 0
      if s.networkAvailable = false ∨ 6 ≤ currentCount then pure false
      else do
        update fun s =>
          { s with
            downloadRunningRequestCount :=
              s.downloadRunningRequestCount.insert datacenterId (currentCount + 1) }
        pure true
  | 32 | 16 => pure s.networkAvailable
  | 4 =>
      if s.networkAvailable = false ∨ 10 ≤ s.uploadRunningRequestCount then pure false
      else do
        update fun s => { s with uploadRunningRequestCount := s.uploadRunningRequestCount + 1 }
        pure true
  | _ => pure true

/-- A queued request becomes a running one. -/
def moveToRunning (p : Nat) : M Request := do
  let r ← queuedRequest p
  update fun s =>
    { s with
      runningRequests := s.runningRequests ++ [r]
      requestsQueue := s.requestsQueue.eraseP fun r => r.id == p }
  pure r

/-- Sends a queued request for the first time on this connection. -/
def startRequest (currentTime : Int) (p : Nat) (c : ConnectionId) : M Unit := do
  let r ← queuedRequest p
  let msgId ← generateMessageId env
  let n ← reading
  let seqNo ← generateMessageSeqNo c (!hasBits r.connectionType ConnectionType.proxy)
  assigned c msgId seqNo
  let s ← read
  modifyRequest p fun r =>
    { r with
      messageId := msgId
      messageSeqNo := seqNo
      requestFlags :=
        if r.hasFlag RequestFlag.canCompress then r.requestFlags - RequestFlag.canCompress
        else r.requestFlags
      serializedLength := env.objectSize n
      startTime := currentTime
      connectionToken := s.token c }
  let r ← moveToRunning p
  dispatch env r c

/-- A queued request whose datacenter is known. -/
def queuedInDatacenter (currentTime : Int) (p datacenterId d : Nat) : M Unit := do
  let dc ← datacenter d
  let s ← read
  modifyRequest p fun r =>
    if r.needInitRequest dc s.currentVersion && !r.hasInitFlag then
      wrapInLayer r (some dc) s.currentVersion
    else r
  let r ← queuedRequest p
  if dc.authKeyPerm = false then addNeededDatacenter d r.connectionType
  else if r.isUnauthorized dc s.currentDatacenterId then addUnauthorizedDatacenter d
  else do
    let connection ← getConnectionByType env d r.connectionType true
    let c ← require connection
    let s ← read
    when (¬ (hasBits r.connectionType ConnectionType.generic = true ∧ s.token c = 0)) do
      let admitted ← admitRequest r datacenterId
      when admitted (startRequest env currentTime p c)

/-- The body of the loop over `requestsQueue`. -/
def queueStep (currentTime : Int) (p : Nat) : M Unit := do
  let r ← queuedRequest p
  let s ← read
  if r.cancelled then eraseQueued p
  else when (r.waitsForMove s.movingToDatacenterId = false) do
    let datacenterId ←
      chooseDatacenter env currentTime p (r.targetDatacenterId s.currentDatacenterId)
    let requestDatacenter ← getDatacenterWithId datacenterId
    match requestDatacenter with
    | none => addUnknownDatacenter datacenterId
    | some d => queuedInDatacenter env currentTime p datacenterId d

/-! ## Packets -/

/-- An empty batch for a connected connection that has something to confirm. -/
def addConfirmation (d : Nat) (batch : Batch) : M Unit := do
  let _ ← datacenter d
  let s ← read
  when ((s.batch batch).find d = none) do
    let connection ← getConnection env ⟨d, batch.slot⟩ false
    match connection with
    | none => pure ()
    | some c => do
        let s ← read
        let session ← Manager.connection c
        when (s.token c ≠ 0 ∧ session.messagesIdsForConfirmation ≠ [])
          (update fun s => s.setBatch batch ((s.batch batch).insert d []))

/-- The last message sent before these with `RequestFlagInvokeAfter`. -/
def lastInvokeAfter (justOpenedSocket : Bool) (running : List Request)
    (array : List NetworkMessage) : Int :=
  let currentRequests := (array.filter (·.invokeAfter)).map (·.msgId)
  running.foldl (fun maxRequestId r =>
    if r.hasFlag RequestFlag.invokeAfter && decide (maxRequestId < r.messageId) &&
        !currentRequests.contains r.messageId && !justOpenedSocket then r.messageId
    else maxRequestId) 0

/-- Wraps each of the messages that has to wait for the one before it. -/
def wrapInvokeAfter (lastSentMessageRpcId : Int) : List NetworkMessage → List NetworkMessage
  | [] => []
  | message :: rest =>
      if message.invokeAfter then
        (if lastSentMessageRpcId ≠ 0 ∧ lastSentMessageRpcId ≠ message.msgId then
          { message with
            invokeAfterId := some lastSentMessageRpcId
            bytes := message.bytes + 12 }
        else message) :: wrapInvokeAfter message.msgId rest
      else message :: wrapInvokeAfter lastSentMessageRpcId rest

/-- Sends the messages collected for one datacenter. -/
def sendBatch (call : QueueCall) (batch : Batch) (entry : Nat × List NetworkMessage) : M Unit := do
  let found ← getDatacenterWithId entry.1
  match found with
  | none => pure ()
  | some d => do
      let s ← read
      let array := match batch with
        | .generic =>
            wrapInvokeAfter (lastInvokeAfter call.justOpenedSocket s.runningRequests entry.2)
              entry.2
        | _ => entry.2
      let connection ← getConnection env ⟨d, batch.slot⟩ true
      let c ← require connection
      sendMessagesToConnectionWithConfirmation env array c

/-- Sends the messages collected in one map. -/
def sendBatches (call : QueueCall) (batch : Batch) : M Unit := do
  let s ← read
  each (sendBatch env call batch) (s.batch batch)

/-- A ping on the current generic connection if nothing was sent there. -/
def pingCurrent (call : QueueCall) : M Unit := do
  let s ← read
  when (call.connectionTypes = ConnectionType.generic ∧ call.dc = s.currentDatacenterId ∧
      s.genericMessagesToDatacenters.find s.currentDatacenterId = none) do
    let found ← getDatacenterWithId s.currentDatacenterId
    let d ← require found
    sendPing env d false

/-- A handshake for a datacenter whose key is missing. -/
def beginNeededHandshake (needed : Nat × Nat) : M Unit := do
  let dc ← datacenter needed.1
  let s ← read
  let media := isMediaConnectionType needed.2 && dc.hasMediaAddress
  when (needed.1 ≠ s.movingToDatacenterId ∧ isHandshaking dc media = false ∧ dc.authKeyPerm = false)
    (beginHandshake env needed.1 (if media then .mediaTemp else .temp) true)

/-- The export of the authorisation to a datacenter that needs it. -/
def exportToUnauthorized (d : Nat) : M Unit := do
  let dc ← datacenter d
  let s ← read
  when (d ≠ s.currentDatacenterId ∧ d ≠ s.movingToDatacenterId ∧ dc.exportingAuthorization = false)
    (exportAuthorization d)

/-- The working lists are emptied before every call. -/
def ConnectionsManager.clearWork (s : ConnectionsManager) : ConnectionsManager :=
  { s with
    genericMessagesToDatacenters := []
    genericMediaMessagesToDatacenters := []
    tempMessagesToDatacenters := []
    unknownDatacenterIds := []
    neededDatacenters := []
    unauthorizedDatacenters := []
    downloadRunningRequestCount := []
    genericRunningRequestCount := 0
    uploadRunningRequestCount := 0 }

/-- The loop over `runningRequests`. -/
def runningLoop (call : QueueCall) (currentTime : Int) : M Unit := do
  let s ← read
  each (runningStep env call currentTime) (s.runningRequests.map (·.id))

/-- The loop over `requestsQueue`. -/
def queueLoop (currentTime : Int) : M Unit := do
  let s ← read
  each (queueStep env currentTime) (s.requestsQueue.map (·.id))

/-- The loop over `datacenters` that collects acknowledgements. -/
def confirmationLoop : M Unit := do
  let s ← read
  each (fun d => do
    addConfirmation env d .generic
    addConfirmation env d .genericMedia
    addConfirmation env d .temp) (s.datacenters.map (·.1))

/-- What the call does after the packets. -/
def finishQueue (call : QueueCall) : M Unit := do
  pingCurrent env call
  let s ← read
  when (s.unknownDatacenterIds ≠ []) (updateDcSettings env 0 false)
  each (beginNeededHandshake env) s.neededDatacenters
  when (s.currentUserId ≠ 0) (each exportToUnauthorized s.unauthorizedDatacenters)

/-- Everything that was collected is sent. -/
def sendAllBatches (call : QueueCall) : M Unit := do
  sendBatches env call .generic
  sendBatches env call .temp
  sendBatches env call .genericMedia

/-- `processRequestQueue` at a time. -/
def processRequestQueueAt (call : QueueCall) (currentTime : Int) : M Unit := do
  runningLoop env call currentTime
  destroySession env currentTime
  queueLoop env currentTime
  confirmationLoop env
  sendAllBatches env call
  finishQueue env call

/-- The second in which the n-th reading of the monotonic clock falls. -/
def Env.currentTime (n : Nat) : Int := (env.currentTimeMonotonicMillis n).tdiv 1000

/-- `processRequestQueue`. -/
def processRequestQueue (call : QueueCall) : M Unit := do
  update fun s => s.clearWork
  let n ← reading
  processRequestQueueAt env call (env.currentTime n)

end Mtproto.Manager
