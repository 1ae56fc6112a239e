import Mtproto.Manager.State

/-!
Connections and their sessions: message ids and sequence numbers, opening and closing sockets,
the lookup of a connection by its type, handshakes as far as they drive connections, and the way
messages reach `Connection::sendData`.
-/

namespace Mtproto.Manager

open Lib Program

variable (env : Env)

/-! ## Message ids and sequence numbers -/

/-- The first multiple of four that is not below `messageId`. -/
def alignedId (messageId : Int) : Int := messageId + -messageId % 4

/-- The id that follows `lastOutgoingMessageId` at a time given as a message id. -/
def ConnectionsManager.nextMessageId (s : ConnectionsManager) (time : Int) : Int :=
  alignedId (if time ≤ s.lastOutgoingMessageId then s.lastOutgoingMessageId + 1 else time)

/-- `generateMessageId`; a signed overflow has no defined result. -/
def generateMessageId : M Int := do
  let n ← reading
  let s ← read
  let messageId := s.nextMessageId (env.messageIdAt (env.currentTimeMillis n) s.timeDifference)
  if messageId < 2 ^ 63 then do
    update fun s => { s with lastOutgoingMessageId := messageId }
    pure messageId
  else fault

/-- `generateMessageSeqNo`, in 32-bit arithmetic. -/
def generateMessageSeqNo (c : ConnectionId) (increment : Bool) : M Nat := do
  let session ← connection c
  let value := session.nextSeqNo
  when increment
    (modifyConnection c fun session => { session with nextSeqNo := (value + 1) % 2 ^ 32 })
  pure ((value * 2 + if increment then 1 else 0) % 2 ^ 32)

/-- Records the id and number that a message of the connection's session got. -/
def assigned (c : ConnectionId) (msgId : Int) (seqNo : Nat) : M Unit := do
  let session ← connection c
  record (.assigned session.sessionId msgId seqNo)

/-- A new message of a session: its id, then its sequence number. -/
def newMessage (c : ConnectionId) (increment : Bool) : M (Int × Nat) := do
  let msgId ← generateMessageId env
  let seqNo ← generateMessageSeqNo c increment
  assigned c msgId seqNo
  pure (msgId, seqNo)

/-! ## Sessions -/

/-- `recreateSession`; `minProcessedMessageId` stays. -/
def recreateSession (c : ConnectionId) : M Unit := do
  let n ← reading
  modifyConnection c fun session =>
    { session with
      processedMessageIds := []
      messagesIdsForConfirmation := []
      processedSessionChanges := []
      nextSeqNo := 0
      sessionId := env.newSessionId n }

def isMessageIdProcessed (session : Connection) (messageId : Int) : Bool :=
  messageId % 2 == 0 ||
    (session.minProcessedMessageId != 0 && decide (messageId < session.minProcessedMessageId)) ||
    session.processedMessageIds.contains messageId

/-- `addProcessedMessageId`: a list that has grown past 300 loses its 100 smallest ids. -/
def addProcessedMessageId (c : ConnectionId) (messageId : Int) : M Unit :=
  modifyConnection c fun session =>
    if 300 < session.processedMessageIds.length then
      let kept := (session.processedMessageIds.mergeSort).drop 100
      { session with
        processedMessageIds := kept ++ [messageId]
        minProcessedMessageId := kept.headD 0 }
    else { session with processedMessageIds := session.processedMessageIds ++ [messageId] }

def addMessageToConfirm (c : ConnectionId) (messageId : Int) : M Unit :=
  modifyConnection c fun session =>
    if session.processedMessageIds.contains messageId then session
    else { session with
      messagesIdsForConfirmation := session.messagesIdsForConfirmation ++ [messageId] }

/-- `generateConfirmationRequest`. -/
def generateConfirmationRequest (c : ConnectionId) : M (List NetworkMessage) := do
  let session ← connection c
  if session.messagesIdsForConfirmation = [] then pure []
  else do
    let (msgId, seqNo) ← newMessage env c false
    let n ← reading
    modifyConnection c fun session => { session with messagesIdsForConfirmation := [] }
    pure [{ msgId, seqNo, bytes := env.objectSize n }]

/-! ## Sockets -/

/-- `onConnectionClosed`: a proxy connection schedules the end of its check. -/
def onConnectionClosed (c : ConnectionId) : M Unit :=
  match c.slot with
  | .push => update fun s => { s with sendingPushPing := false }
  | .proxy _ => scheduleTask (.proxyConnectionClosed c)
  | _ => pure ()

/-- `onDisconnected`: the socket is gone and with it the token.  After the two errors that mean a
refused connection only the timer opens it again. -/
def onDisconnected (c : ConnectionId) (error : Int) : M Unit := do
  modifyConnection c fun connection =>
    { connection with
      stage := if connection.stage = .suspended then .suspended else .reconnecting
      waitForReconnectTimer :=
        if connection.stage = .suspended then connection.waitForReconnectTimer
        else if error = 0x68 ∨ error = 0x71 then
          connection.waitForReconnectTimer ||
            decide (c.slot.connectionType ≠ ConnectionType.proxy)
        else false }
  onConnectionClosed c

/-- `connect`; opening the socket may fail at once. -/
def connect (c : ConnectionId) : M Unit := do
  let connection ← connection c
  let s ← read
  if connection.waitForReconnectTimer then pure ()
  else if !s.networkAvailable then onConnectionClosed c
  else match connection.stage with
    | .connected _ | .connecting => pure ()
    | _ => do
        let dc ← datacenter c.datacenter
        modifyConnection c fun connection =>
          { connection with
            stage := .connecting
            isMediaConnection :=
              isMediaConnectionType c.slot.connectionType && dc.hasMediaAddress }
        let n ← reading
        when (env.opens n = false) (onDisconnected c (-1))

/-- `suspendConnection`. -/
def suspendConnection (c : ConnectionId) (idle : Bool) : M Unit := do
  let connection ← connection c
  modifyConnection c fun connection => { connection with waitForReconnectTimer := false }
  when (connection.stage ≠ .idle ∧ connection.stage ≠ .suspended) do
    modifyConnection c fun connection =>
      { connection with stage := if idle then .idle else .suspended }
    onDisconnected c 0
    onConnectionClosed c

/-- `reconnect`. -/
def reconnect (c : ConnectionId) : M Unit := do
  match c.slot with
  | .proxy _ => suspendConnection c false
  | _ => do
      suspendConnection c true
      connect env c

/-- `createConnectionByType`: a new connection starts a new session. -/
def createConnection (c : ConnectionId) : M Unit := do
  let s ← read
  when (s.connections c = none) do
    let n ← reading
    update fun s =>
      { s with
        connections := Function.update s.connections c (some { sessionId := env.newSessionId n }) }

/-- `hasAuthKey`: `getAuthKey` returns the permanent key before it looks at anything else. -/
def hasAuthKey (d : Nat) : M Bool := do
  let dc ← datacenter d
  pure dc.authKeyPerm

/-- `getGenericConnection` and its siblings: no connection without a key. -/
def getConnection (c : ConnectionId) (create : Bool) : M (Option ConnectionId) := do
  let key ← hasAuthKey c.datacenter
  if key then do
    when create do
      createConnection env c
      connect env c
    let s ← read
    pure (if (s.connections c).isSome then some c else none)
  else pure none

/-- `getConnectionByType`. -/
def getConnectionByType (d connectionType : Nat) (create : Bool) : M (Option ConnectionId) :=
  match connectionSlot connectionType with
  | some slot => getConnection env ⟨d, slot⟩ create
  | none => pure none

/-- The connections of a datacenter whose sessions a handshake of this type renews. -/
def recreatedSlots (type : HandshakeType) : List Slot :=
  (if type = .all ∨ type = .temp ∨ type = .perm then
    [.generic, .temp, .upload 0, .upload 1, .upload 2, .upload 3,
      .proxy 0, .proxy 1, .proxy 2, .proxy 3] else []) ++
  (if type = .all ∨ type = .mediaTemp ∨ type = .perm then
    [.download 0, .download 1, .genericMedia] else [])

/-- `recreateSessions`; the push connection is never among them. -/
def recreateSessions (d : Nat) (type : HandshakeType) : M Unit :=
  each (fun slot => do
    let s ← read
    when (s.connections ⟨d, slot⟩ ≠ none) (recreateSession env ⟨d, slot⟩)) (recreatedSlots type)

/-- `suspendConnections`. -/
def suspendConnections (d : Nat) : M Unit :=
  each (fun slot => do
    let s ← read
    when (s.connections ⟨d, slot⟩ ≠ none) (suspendConnection ⟨d, slot⟩ false))
    [.generic, .genericMedia, .temp, .upload 0, .upload 1, .upload 2, .upload 3,
      .download 0, .download 1]

end Mtproto.Manager
