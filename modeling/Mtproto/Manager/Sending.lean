import Mtproto.Manager.Connections

/-!
How messages reach `Connection::sendData`: packets of `createRequestsData`, acknowledgements added
to them, pings, and the handshake messages that travel outside any session.
-/

namespace Mtproto.Manager

open Lib Program

variable (env : Env)

/-! ## Packets -/

/-- `Connection::sendData` with the messages packed into the buffer: a closed connection is opened
first. -/
def sendData (c : ConnectionId) (msgIds : List Int) : M Unit := do
  let s ← read
  record (.sendData c (s.token c) msgIds)
  let connection ← connection c
  when (connection.stage = .idle ∨ connection.stage = .reconnecting ∨ connection.stage = .suspended)
    (connect env c)

/-- Whether a message id is too old or too far ahead to be sent without a container. -/
def outOfTime (msgId currentTime : Int) : Bool :=
  decide (env.messageTime msgId < currentTime - 30000) ||
    decide (currentTime + 25000 < env.messageTime msgId)

/-- `createRequestsData`: the ids of the messages in the packet, with the id of the container that
several messages or an untimely one are wrapped in. -/
def createRequestsData (requests : List NetworkMessage) (c : ConnectionId) :
    M (Option (List Int)) := do
  let key ← hasAuthKey c.datacenter
  if key then
    match requests with
    | [message] => do
        let n ← reading
        let s ← read
        if outOfTime env message.msgId (env.currentTimeMillis n + s.timeDifference * 1000) then do
          let (messageId, _) ← newMessage env c false
          pure (some [message.msgId, messageId])
        else pure (some [message.msgId])
    | messages => do
        let (messageId, _) ← newMessage env c false
        pure (some (messages.map (·.msgId) ++ [messageId]))
  else pure none

/-- One packet; without a key nothing is sent. -/
def sendPacket (messages : List NetworkMessage) (c : ConnectionId) : M Unit := do
  let transportData ← createRequestsData env messages c
  match transportData with
  | some msgIds => sendData env c msgIds
  | none => pure ()

/-- The loop of `sendMessagesToConnection`: messages are collected until they reach 3 KiB. -/
def sendChunks (c : ConnectionId) (currentMessages : List NetworkMessage) (currentSize : Nat) :
    List NetworkMessage → M Unit
  | [] => pure ()
  | message :: rest =>
      let chunk := currentMessages ++ [message]
      let size := currentSize + message.bytes
      if 3 * 1024 ≤ size ∨ rest = [] then do
        sendPacket env chunk c
        sendChunks c [] 0 rest
      else sendChunks c chunk size rest

/-- `sendMessagesToConnection`. -/
def sendMessagesToConnection (messages : List NetworkMessage) (c : ConnectionId) : M Unit :=
  sendChunks env c [] 0 messages

/-- `sendMessagesToConnectionWithConfirmation`. -/
def sendMessagesToConnectionWithConfirmation (messages : List NetworkMessage)
    (c : ConnectionId) : M Unit := do
  let ack ← generateConfirmationRequest env c
  sendMessagesToConnection env (messages ++ ack) c

/-- `sendPing`; the buffer of a packet that could not be built is ignored by `sendData`. -/
def sendPing (d : Nat) (usePushConnection : Bool) : M Unit := do
  let s ← read
  when (¬ (usePushConnection = true ∧ s.currentUserId = 0)) do
    let connection ← getConnection env ⟨d, if usePushConnection then .push else .generic⟩ true
    match connection with
    | none => pure ()
    | some c => do
        let s ← read
        when (usePushConnection = true ∨ s.token c ≠ 0) do
          update fun s => { s with lastPingId := s.lastPingId + 1 }
          when (usePushConnection = false) do
            let n ← reading
            update fun s =>
              { s with pingTime := (env.currentTimeMonotonicMillis n).tdiv 1000 }
          let (msgId, seqNo) ← newMessage env c false
          let n ← reading
          let transportData ← createRequestsData env [{ msgId, seqNo, bytes := env.objectSize n }] c
          when (usePushConnection = true) (update fun s => { s with sendingPushPing := true })
          match transportData with
          | some msgIds => sendData env c msgIds
          | none => pure ()

/-! ## Handshakes -/

/-- `Handshake::getConnection`. -/
def handshakeConnection (d : Nat) (type : HandshakeType) : ConnectionId :=
  ⟨d, if type = .mediaTemp then .genericMedia else .generic⟩

/-- `Handshake::sendRequestData`: an unencrypted message with an id of its own. -/
def sendHandshakeData (d : Nat) (type : HandshakeType) : M Unit := do
  let _ ← generateMessageId env
  createConnection env (handshakeConnection d type)
  sendData env (handshakeConnection d type) []

/-- `Handshake::beginHandshake`. -/
def startHandshake (d : Nat) (type : HandshakeType) (reconnect : Bool) : M Unit := do
  createConnection env (handshakeConnection d type)
  when reconnect do
    suspendConnection (handshakeConnection d type) false
    connect env (handshakeConnection d type)
  sendHandshakeData env d type

/-- `isHandshaking(bool)`: without temporary keys only the permanent handshake counts. -/
def isHandshaking (dc : Datacenter) (media : Bool) : Bool :=
  let media := media && !(dc.isCdnDatacenter || !pfsEnabled)
  dc.handshakes.any fun type =>
    type = .perm ∨ (media = true ∧ type = .mediaTemp) ∨ (media = false ∧ type ≠ .mediaTemp)

/-- A handshake of one type, unless it is running already. -/
def addHandshake (d : Nat) (type : HandshakeType) (reconnect : Bool) : M Unit := do
  let dc ← datacenter d
  when (type ∉ dc.handshakes) do
    modifyDatacenter d fun dc => { dc with handshakes := dc.handshakes ++ [type] }
    startHandshake env d type reconnect

/-- `Datacenter::beginHandshake`. -/
def beginHandshake (d : Nat) (type : HandshakeType) (reconnect : Bool) : M Unit := do
  let dc ← datacenter d
  if type = .current then each (fun running => startHandshake env d running reconnect) dc.handshakes
  else if dc.authKeyPerm = false then addHandshake env d .perm reconnect
  else if pfsEnabled then
    if type = .all ∨ type = .temp then addHandshake env d .temp reconnect
    else when (type = .mediaTemp ∧ dc.hasMediaAddress) (addHandshake env d .mediaTemp reconnect)
  else pure ()

/-- `clearAuthKey`. -/
def clearAuthKey (d : Nat) (type : HandshakeType) : M Unit :=
  modifyDatacenter d fun dc =>
    { dc with
      authKeyPerm := if type = .all ∨ dc.isCdnDatacenter = true then false else dc.authKeyPerm
      lastInitMediaVersion := if type = .mediaTemp ∨ type = .all then 0 else dc.lastInitMediaVersion
      lastInitVersion := if type = .temp ∨ type = .all then 0 else dc.lastInitVersion
      handshakes := [] }

end Mtproto.Manager
