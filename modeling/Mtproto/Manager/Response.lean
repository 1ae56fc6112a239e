import Mtproto.Manager.ProcessQueue
import Mathlib.Data.List.Infix

/-!
`processServerResponse` for the messages that reach the request lists or the message ids.  A
container is received as its inner messages, one after the other; a handler that ends by calling
`processRequestQueue` leaves that call to the next step of the network thread.
-/

namespace Mtproto.Manager

open Lib Program

variable (env : Env)

/-! ## Error texts -/

/-- Whether `find` finds the pattern in the text. -/
def containsText (text pattern : String) : Bool := decide (pattern.toList <:+: text.toList)

/-- The number at the start of a text, 0 if there is none. -/
def digitsValue (digits : List Char) : Nat :=
  (digits.takeWhile Char.isDigit).foldl (fun value digit => value * 10 + (digit.toNat - 48)) 0

/-- `atoi`. -/
def atoi (text : List Char) : Int :=
  match text.dropWhile Char.isWhitespace with
  | '-' :: digits => -(digitsValue digits : Int)
  | '+' :: digits => digitsValue digits
  | digits => digitsValue digits

/-- What follows a text of this length, as a number. -/
def numberAfter (text pattern : String) : Int := atoi (text.toList.drop pattern.length)

/-- The datacenter that an error 303 names, `DEFAULT_DATACENTER_ID` if it names none. -/
def migrateToDatacenterId (text : String) : Nat :=
  ["NETWORK_MIGRATE_", "PHONE_MIGRATE_", "USER_MIGRATE_"].foldl (fun id pattern =>
    if containsText text pattern then (numberAfter text pattern % 2 ^ 32).toNat else id)
    defaultDatacenterId

/-- The seconds of `FLOOD_WAIT_`, two if the text does not say. -/
def floodWaitTime (text : String) : Int :=
  if containsText text "FLOOD_WAIT_" ∧ 0 < numberAfter text "FLOOD_WAIT_" then
    numberAfter text "FLOOD_WAIT_"
  else 2

/-! ## Messages -/

/-- The object of a `TL_rpc_result`. -/
inductive RpcObject
  | rpcError (code : Int) (text : String)
  | tlError
  | answer (answer : Answer)

/-- The result of a `TL_rpc_result`; a packed one may fail to unpack. -/
inductive RpcResult
  | plain (object : RpcObject)
  | gzipPacked (object : Option RpcObject)

def RpcResult.unpacked : RpcResult → Option RpcObject
  | .plain object => some object
  | .gzipPacked object => object

/-- The messages of the server. -/
inductive ServerMessage
  | newSessionCreated (firstMsgId uniqueId : Int)
  | pong (pingId : Int)
  | futureSalts (reqMsgId : Int)
  | rpcResult (reqMsgId : Int) (result : RpcResult)
  | badMsgNotification (badMsgId errorCode : Int)
  | badServerSalt (badMsgId : Int)
  | msgsStateInfo (reqMsgId : Int)
  | msgDetailedInfo (msgId answerMsgId : Int)
  | msgNewDetailedInfo (answerMsgId : Int)
  | other

/-! ## Answers to requests -/

/-- The call that follows most answers. -/
def callQueueForAll : M Unit := callQueue ⟨0, 0, false⟩

/-- An answered request leaves the list; the first answer of a datacenter records that its
connection is initialised. -/
def finishRequest (d : Nat) (r : Request) (initialised : Bool) : M Unit := do
  let s ← read
  let dc ← datacenter d
  let init := r.isInitRequest && decide (dc.lastInitVersion ≠ s.currentVersion)
  let initMedia := r.isInitMediaRequest && decide (dc.lastInitMediaVersion ≠ s.currentVersion)
  when (initialised = true ∧ (init = true ∨ initMedia = true)) do
    modifyDatacenter d fun dc =>
      if init then { dc with lastInitVersion := s.currentVersion }
      else { dc with lastInitMediaVersion := s.currentVersion }
    saveConfig
  eraseRunning r.id
  callQueueForAll

/-- Whether the server lost the permanent key. -/
def isAuthKeyPermEmpty (code : Int) (text : String) : Bool :=
  decide (code = 401) && containsText text "AUTH_KEY_PERM_EMPTY"

/-- What an error does to a request that is kept for a retry; `now` is in seconds.  Nothing means
that the error is handed to the request. -/
def retryAfterError (r : Request) (code : Int) (text : String) (now : Int) : Option Request :=
  let processEvenFailed := decide (code = 500) && containsText text "AUTH_RESTART"
  if isAuthKeyPermEmpty code text then some { r with minStartTime := now + 1, startTime := 0 }
  else if !r.hasFlag RequestFlag.failOnServerErrors || processEvenFailed then
    if code = 500 ∨ code < 0 then
      some { r with
        minStartTime :=
          r.startTime + (if 10 < r.serverFailureCount then 10 else r.serverFailureCount)
        serverFailureCount := r.serverFailureCount + 1 }
    else if code = 420 then
      some { r with
        failedByFloodWait := floodWaitTime text
        startTime := 0
        minStartTime := now + floodWaitTime text }
    else if code = 400 ∧ containsText text "MSG_WAIT_FAILED" then
      some { r with minStartTime := now + 1, startTime := 0 }
    else none
  else none

/-- The handshake after the key was lost on the server; only an answer to a request saves it. -/
def restartHandshake (c : ConnectionId) (reconnect : Bool) : M Unit := do
  let connection ← connection c
  let dc ← datacenter c.datacenter
  when (isHandshaking dc connection.isMediaConnection = false) do
    let type : HandshakeType := if connection.isMediaConnection then .mediaTemp else .temp
    clearAuthKey c.datacenter type
    when (reconnect = false) saveConfig
    beginHandshake env c.datacenter type reconnect

/-- The end of a discarded answer: the request waits for its retry. -/
def keepRequest (p : Nat) : M Unit := modifyRequest p fun r => r.clear false

/-- An error 401 that was handed to the request.  Outside the current datacenter the request stays
in the list all the same. -/
def onUnauthorizedError (d : Nat) (r : Request) (text : String) : M Unit := do
  let s ← read
  if containsText text "SESSION_PASSWORD_NEEDED" then finishRequest d r false
  else if d = s.currentDatacenterId ∨ d = s.movingToDatacenterId then do
    when (hasBits r.connectionType ConnectionType.generic = true ∧ s.currentUserId ≠ 0) do
      update fun s => { s with currentUserId := 0 }
      scheduleTask (.cleanUp false)
    finishRequest d r false
  else do
    modifyDatacenter d fun dc => { dc with authorized := false }
    saveConfig
    keepRequest r.id
    if (hasBits r.connectionType ConnectionType.download = true ∨
        hasBits r.connectionType ConnectionType.upload = true) ∧ d ≠ defaultDatacenterId - 1 then
      callQueue ⟨r.connectionType, d, false⟩
    else callQueueForAll

/-- An `RpcError` for a request with a callback. -/
def onRpcError (c : ConnectionId) (r : Request) (code : Int) (text : String) : M Unit := do
  let n ← reading
  let now := (env.currentTimeMonotonicMillis n).tdiv 1000
  match retryAfterError r code text now with
  | some _ => do
      modifyRequest r.id fun r => (retryAfterError r code text now).getD r
      when (isAuthKeyPermEmpty code text) (restartHandshake env c false)
      keepRequest r.id
      callQueueForAll
  | none => do
      onComplete env r none
      if code = 401 then onUnauthorizedError c.datacenter r text
      else do
        let s ← read
        when (s.currentUserId = 0 ∧ code = 406 ∧ containsText text "AUTH_KEY_DUPLICATED" = true)
          (scheduleTask (.cleanUp true))
        finishRequest c.datacenter r false

/-- The answer to a running request. -/
def answerRequest (c : ConnectionId) (r : Request) (result : RpcResult) : M Unit :=
  match r.onCompleteRequestCallback, result.unpacked with
  | .none, _ => finishRequest c.datacenter r true
  | _, some (.rpcError code text) => onRpcError env c r code text
  | _, some .tlError => do
      onComplete env r none
      finishRequest c.datacenter r false
  | _, some (.answer answer) => do
      onComplete env r (some answer)
      finishRequest c.datacenter r true
  | _, none => do
      -- the error -1000, "Raw request is null"
      onComplete env r none
      finishRequest c.datacenter r false

/-- The datacenter to which a result asks the client to move. -/
def RpcResult.migrateTo : RpcResult → Nat
  | .plain (.rpcError code text) =>
      if code = 303 then migrateToDatacenterId text else defaultDatacenterId
  | _ => defaultDatacenterId

/-- `TL_rpc_result`. -/
def onRpcResult (c : ConnectionId) (reqMsgId : Int) (result : RpcResult) : M Unit := do
  if h : result.migrateTo = defaultDatacenterId then do
    let s ← read
    match s.runningRequests.find? fun r => r.respondsToMessageId reqMsgId with
    | some r => answerRequest env c r result
    | none => callQueueForAll
  else do
    moveToDatacenter env ⟨result.migrateTo, h⟩
    callQueueForAll

/-- `TL_future_salts`. -/
def onFutureSalts (reqMsgId : Int) : M Unit := do
  let s ← read
  match s.runningRequests.find? fun r => r.respondsToMessageId reqMsgId with
  | some r => do
      onComplete env r (some .futureSalts)
      eraseRunning r.id
  | none => pure ()

/-! ## Sessions and clocks -/

/-- The clock offset that the id of a server message gives, cast to 32 bits. -/
def clockOffset (messageId currentTime currentPingTime : Int) : Int :=
  ((env.messageTime messageId - currentTime).tdiv 1000 - currentPingTime.tdiv 2).bmod (2 ^ 32)

/-- `timeDifference` from the id of a server message. -/
def correctTime (messageId : Int) : M Unit := do
  let n ← reading
  update fun s =>
    { s with
      timeDifference := clockOffset env messageId (env.currentTimeMillis n) s.currentPingTime }

/-- Clears the running requests that a new session of this connection lost. -/
def onNewSession (c : ConnectionId) (firstMsgId uniqueId : Int) : M Unit := do
  let session ← connection c
  when (uniqueId ∉ session.processedSessionChanges) do
    let s ← read
    each (fun p => do
      let r ← runningRequest p
      let requestDatacenter ← getDatacenterWithId r.datacenterId
      when (r.messageId < firstMsgId ∧ hasBits r.connectionType c.slot.connectionType = true ∧
          requestDatacenter = some c.datacenter) (modifyRequest p fun r => r.clear true))
      (s.runningRequests.map (·.id))
    saveConfig
    modifyConnection c fun session =>
      { session with processedSessionChanges := session.processedSessionChanges ++ [uniqueId] }

/-- Clears the first running request that waits for the message. -/
def clearResponding (c : ConnectionId) (messageId : Int) (confirm : Bool) : M Unit := do
  let s ← read
  match s.runningRequests.find? fun r => r.respondsToMessageId messageId with
  | some r => when (r.completed = false) do
      when confirm (addMessageToConfirm c messageId)
      modifyRequest r.id fun r => r.clear true
  | none => pure ()

/-- `TL_bad_msg_notification`: six codes renew the sessions of the datacenter and start the message
ids over, code 20 sends the request again. -/
def onBadMsgNotification (c : ConnectionId) (messageId innerMsgId containerMessageId : Int)
    (badMsgId errorCode : Int) : M Unit :=
  if errorCode ∈ [16, 17, 19, 32, 33, 64] then do
    let realId := if messageId ≠ 0 then messageId
      else if containerMessageId ≠ 0 then containerMessageId else innerMsgId
    when (realId ≠ 0) (correctTime env messageId)
    recreateSessions env c.datacenter .all
    saveConfig
    update fun s => { s with lastOutgoingMessageId := 0 }
    clearRequestsForDatacenter (some c.datacenter) .all
  else when (errorCode = 20) (clearResponding c badMsgId true)

/-- The value the comparison `messageId > (lastOutgoingMessageId ? messageId :
lastOutgoingMessageId)` leaves in `lastOutgoingMessageId`. -/
def saltedLastId (messageId lastOutgoingMessageId : Int) : Int :=
  if (if lastOutgoingMessageId ≠ 0 then messageId else lastOutgoingMessageId) < messageId then
    1
  else 0

/-- The downloads of a datacenter get a fresh count of retries. -/
def failBySalt (d : Nat) : M Unit := do
  let s ← read
  each (fun p => do
    let r ← runningRequest p
    when (hasBits r.connectionType ConnectionType.download = true) do
      let requestDatacenter ← getDatacenterWithId r.datacenterId
      when (requestDatacenter = some d)
        (modifyRequest p fun r => { r with retryCount := 0, failedBySalt := true }))
    (s.runningRequests.map (·.id))

/-- `TL_bad_server_salt`. -/
def onBadServerSalt (c : ConnectionId) (messageId badMsgId : Int) : M Unit := do
  when (messageId ≠ 0) do
    correctTime env messageId
    update fun s =>
      { s with lastOutgoingMessageId := saltedLastId messageId s.lastOutgoingMessageId }
  when (badMsgId ≠ 0) (failBySalt c.datacenter)
  saveConfig
  requestSaltsForDatacenter c.datacenter
  let key ← hasAuthKey c.datacenter
  when key (callQueue ⟨ConnectionType.all, c.datacenter, false⟩)

/-- The answer to a resend request: the message it was about is sent again. -/
def onMsgsStateInfo (c : ConnectionId) (reqMsgId : Int) : M Unit := do
  let s ← read
  match s.resendRequests.find reqMsgId with
  | some messageId => do
      addMessageToConfirm c messageId
      clearResponding c messageId false
      update fun s =>
        { s with resendRequests := s.resendRequests.eraseP fun entry => entry.1 == reqMsgId }
  | none => pure ()

/-- `TL_msg_resend_req`. -/
def requestResend (c : ConnectionId) (answerMsgId : Int) : M Unit := do
  let (msgId, seqNo) ← newMessage env c false
  let n ← reading
  update fun s => { s with resendRequests := s.resendRequests.insert msgId answerMsgId }
  sendMessagesToConnection env [{ msgId, seqNo, bytes := env.objectSize n }] c

/-- `TL_msg_detailed_info`: the answer is asked for again at most once a minute for each request. -/
def onMsgDetailedInfo (c : ConnectionId) (msgId answerMsgId : Int) : M Unit := do
  let s ← read
  match s.runningRequests.find? fun r => r.respondsToMessageId msgId with
  | none => addMessageToConfirm c answerMsgId
  | some r =>
      if r.completed then addMessageToConfirm c answerMsgId
      else do
        let n ← reading
        let currentTime := (env.currentTimeMonotonicMillis n).tdiv 1000
        when (r.lastResendTime = 0 ∨ 60 ≤ (currentTime - r.lastResendTime).natAbs) do
          modifyRequest r.id fun r => { r with lastResendTime := currentTime }
          requestResend env c answerMsgId

/-- `TL_msg_new_detailed_info`. -/
def onMsgNewDetailedInfo (c : ConnectionId) (messageId answerMsgId : Int) : M Unit := do
  let session ← connection c
  if isMessageIdProcessed session messageId then addMessageToConfirm c answerMsgId
  else requestResend env c answerMsgId

/-! ## Pings -/

/-- The next waiting proxy check is scheduled. -/
def checkNextProxy : M Unit := do
  let s ← read
  match s.proxyCheckQueue with
  | [] => pure ()
  | info :: rest => do
      update fun s => { s with proxyCheckQueue := rest }
      scheduleTask (.checkProxy info)

/-- The answer to the ping of a proxy check: its request leaves the list without a callback. -/
def onProxyPong (pingId : Int) : M Unit := do
  let s ← read
  match s.proxyActiveChecks.find? fun info => info.pingId == pingId with
  | none => pure ()
  | some info => do
      update fun s =>
        { s with
          runningRequests := s.runningRequests.eraseP fun r => r.requestToken == info.requestToken
          proxyActiveChecks := s.proxyActiveChecks.eraseP fun other => other.pingId == pingId }
      checkNextProxy

/-- `TL_pong`. -/
def onPong (c : ConnectionId) (messageId pingId : Int) : M Unit := do
  let s ← read
  if c.slot = .push then update fun s => { s with sendingPushPing := false }
  else if 2000000 ≤ pingId then onProxyPong pingId
  else when (pingId = s.lastPingId) do
    let n ← reading
    let diff := (env.currentTimeMonotonicMillis n).tdiv 1000 - s.pingTime
    when (diff.natAbs < 10) do
      update fun s => { s with currentPingTime := (diff + s.currentPingTime).tdiv 2 }
      when (messageId ≠ 0) (correctTime env messageId)

/-- `processServerResponse`. -/
def processServerResponse (message : ServerMessage) (messageId : Int) (c : ConnectionId)
    (innerMsgId containerMessageId : Int) : M Unit :=
  match message with
  | .newSessionCreated firstMsgId uniqueId => onNewSession c firstMsgId uniqueId
  | .pong pingId => onPong env c messageId pingId
  | .futureSalts reqMsgId => onFutureSalts env reqMsgId
  | .rpcResult reqMsgId result => onRpcResult env c reqMsgId result
  | .badMsgNotification badMsgId errorCode =>
      onBadMsgNotification env c messageId innerMsgId containerMessageId badMsgId errorCode
  | .badServerSalt badMsgId => onBadServerSalt env c messageId badMsgId
  | .msgsStateInfo reqMsgId => onMsgsStateInfo c reqMsgId
  | .msgDetailedInfo msgId answerMsgId => onMsgDetailedInfo env c msgId answerMsgId
  | .msgNewDetailedInfo answerMsgId => onMsgNewDetailedInfo env c messageId answerMsgId
  | .other => pure ()

end Mtproto.Manager
