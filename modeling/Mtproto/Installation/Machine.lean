import Mtproto.Handshake.Replies
import Mtproto.Lib.Program
import Mtproto.Manager.State

/-!
# Installing a key

A `Datacenter` with its handshakes, the tasks that wait in the manager and the requests that bind a
temporary key, as far as they decide which key `onHandshakeComplete` is called with.  The two long
replies are judged by `processResPQ` and `processDhParams`; here the verdict changes the fields of a
`Handshake`.  What it sends, the salt that it adds and what the manager does with an installed key
are left out.

A step has no result where the code would follow a null pointer, use a destroyed handshake or read
outside an array.
-/

namespace Mtproto.Installation

open Mtproto.Bytes Mtproto.Handshake Mtproto.Lib Mtproto.Lib.Program
open Mtproto.Manager (HandshakeType)

/-! ## Messages -/

/-- The constructors of `Set_client_DH_params_answer`. -/
inductive DhGen
  | ok
  | retry
  | fail
deriving DecidableEq, Repr

/-- The byte that is hashed with the new nonce. -/
def DhGen.byte : DhGen → UInt8
  | .ok => 1
  | .retry => 2
  | .fail => 3

/-- The answer to `set_client_DH_params`, with the one hash that its constructor has. -/
structure Set_client_DH_params_answer where
  dhGen : DhGen
  nonce : List UInt8
  server_nonce : List UInt8
  new_nonce_hash : List UInt8
deriving DecidableEq

/-- What a server sends in a handshake.  Of `server_DH_params_fail` nothing is read. -/
inductive Message
  | reply (reply : Reply)
  | server_DH_params_fail
  | answer (answer : Set_client_DH_params_answer)

/-- The requests whose answers a handshake waits for. -/
inductive HandshakeRequest
  | req_pq_multi
  | req_DH_params
  | set_client_DH_params
deriving DecidableEq, Repr

/-- `deserializeResponse`: each request knows the constructors of its own answer. -/
def HandshakeRequest.deserializesResponse : HandshakeRequest → Message → Bool
  | .req_pq_multi, .reply (.resPQ _ _ _ _) => true
  | .req_DH_params, .reply (.server_DH_params_ok _ _ _) => true
  | .req_DH_params, .server_DH_params_fail => true
  | .set_client_DH_params, .answer _ => true
  | _, _ => false

/-! ## A handshake -/

/-- What a handshake has taken up since it was begun. -/
inductive Taken
  | begun (authNonce : List UInt8)
  | resPQ (nonce server_nonce authNewNonce : List UInt8)
  | server_DH_params_ok (nonce server_nonce : List UInt8) (encrypted_answer : FramedArray)
      (b : List UInt8)
  | answer (answer : Set_client_DH_params_answer)

/-- A `Handshake`; `id` names the object, and a null pointer is nothing.  `run` is no field of the
code: it records the messages and the random bytes that the fields come from. -/
structure Handshake where
  id : ℕ
  handshakeType : HandshakeType
  handshakeState : ℕ := 0
  handshakeRequest : Option HandshakeRequest := none
  authNonce : Option (List UInt8) := none
  authServerNonce : Option (List UInt8) := none
  authNewNonce : Option (List UInt8) := none
  handshakeAuthKey : Option (List UInt8) := none
  authKeyTempPending : Option (List UInt8) := none
  authKeyTempPendingId : BitVec 64 := 0
  authKeyPendingRequestId : ℕ := 0
  authKeyPendingMessageId : ℤ := 0
  timeDifference : BitVec 32 := 0
  run : List Taken := []

/-- A closure in `pendingTasks`: the call of `onHandshakeComplete`, the restart after a refused
binding, or the one that `sendRequest` puts a request into the queue with. -/
inductive Task
  | complete (id : ℕ)
  | restart (id : ℕ)
  | sendRequest (requestToken id : ℕ)

/-- A `TL_auth_bindTempAuthKey` in `requestsQueue` or `runningRequests`. -/
structure BindRequest where
  requestToken : ℕ
  id : ℕ
  messageIds : List ℤ := []

/-- The part of the manager that a handshake changes. -/
structure ConnectionsManager where
  pendingTasks : List Task
  requests : List BindRequest
  lastRequestToken : ℕ

abbrev M := Program ConnectionsManager

def scheduleTask (task : Task) : M Unit :=
  update fun m => { m with pendingTasks := m.pendingTasks ++ [task] }

/-- `cancelRequestInternal`: the first request with the token or the message id is dropped. -/
def cancelRequestInternal (token : ℕ) (messageId : ℤ) : M Unit :=
  update fun m => { m with
    requests := m.requests.eraseP fun request =>
      (token ≠ 0 ∧ request.requestToken = token) ∨
        (messageId ≠ 0 ∧ messageId ∈ request.messageIds) }

/-- `sendRequest` for a binding. -/
def sendBindRequest (id : ℕ) : M ℕ := do
  let m ← read
  update fun m => { m with lastRequestToken := m.lastRequestToken + 1 }
  scheduleTask (.sendRequest m.lastRequestToken id)
  pure m.lastRequestToken

namespace Handshake

def cleanupHandshake (h : Handshake) : M Handshake := do
  when (h.authKeyPendingMessageId ≠ 0 ∨ h.authKeyPendingRequestId ≠ 0)
    (cancelRequestInternal h.authKeyPendingRequestId h.authKeyPendingMessageId)
  pure { id := h.id, handshakeType := h.handshakeType, timeDifference := h.timeDifference }

/-- `beginHandshake`; `nonce` are the random bytes. -/
def beginHandshake (nonce : List UInt8) (h : Handshake) : M Handshake := do
  let h ← h.cleanupHandshake
  pure { h with
    handshakeState := 1
    handshakeRequest := some .req_pq_multi
    authNonce := some nonce
    run := [.begun nonce] }

end Handshake

/-! ## Messages of the server -/

/-- What `processHandshakeResponse` uses beside the handshake and the message: the known keys, the
memory of a new array, the clock, and the random numbers and bytes that it would draw. -/
structure Surroundings where
  publicKey : String
  serverKeys : ServerKeys
  cdnKeys : CdnKeys
  draws : ℕ → ℕ
  nonce : List UInt8
  new_nonce : List UInt8
  b : List UInt8
  memory : ℕ → UInt8
  currentTime : BitVec 32

/-- The 16 bytes of a `new_nonce_hash`. -/
def newNonceHash (sha1 : List UInt8 → List UInt8) (authNewNonce : List UInt8) (byte : UInt8)
    (key : List UInt8) :
    List UInt8 :=
  ((sha1 (authNewNonce ++ [byte] ++ (sha1 key).take 8)).drop 4).take 16

/-- The id of a key: the last eight bytes of its hash. -/
def keyId (sha1 : List UInt8 → List UInt8) (key : List UInt8) : BitVec 64 :=
  BitVec.ofNat 64 (leNat (((sha1 key).drop 12).take 8))

/-- The object in the decrypted answer. -/
def innerData (crypto : Crypto) (authNewNonce authServerNonce encrypted_answer : List UInt8) :
    Option TL_server_DH_inner_data :=
  (answerWithHash
    { buffer :=
        .sliced ((crypto.decrypt authNewNonce authServerNonce encrypted_answer).drop 20) }).1

/-- `g_a ^ b` modulo `dh_prime` in the bytes of a new array. -/
def agreedKey (inner : TL_server_DH_inner_data) (b : List UInt8) (memory : ℕ → UInt8) :
    Option (List UInt8) := do
  let dh_prime ← inner.dh_prime
  let g_a ← inner.g_a
  handshakeAuthKeyBytes memory (beNat g_a ^ beNat b % beNat dh_prime)

namespace Handshake

variable (crypto : Crypto) (assertions : Bool)

/-- The fields that the two long replies are judged by. -/
def fields (h : Handshake) (isCdnDatacenter : Bool) (datacenterId : ℤ) (e : Surroundings)
    (authNonce : List UInt8) :
    HandshakeFields where
  handshakeState := h.handshakeState
  authNonce := authNonce
  authServerNonce := h.authServerNonce
  authNewNonce := h.authNewNonce
  isCdnDatacenter := isCdnDatacenter
  datacenterId := datacenterId
  publicKey := e.publicKey
  serverKeys := e.serverKeys
  cdnKeys := e.cdnKeys

/-- The nonces and the number of a `TL_resPQ` are good, and `req_DH_params` is sent. -/
def requestDhParams (e : Surroundings) (nonce server_nonce : List UInt8) (h : Handshake) :
    Handshake :=
  { h with
    handshakeState := 2
    handshakeRequest := some .req_DH_params
    authServerNonce := some server_nonce
    authNewNonce := some e.new_nonce
    run := h.run ++ [.resPQ nonce server_nonce e.new_nonce] }

/-- The answer is good: the key is made, and `set_client_DH_params` is sent. -/
def setClientDhParams (e : Surroundings) (nonce server_nonce : List UInt8)
    (encrypted_answer : FramedArray)
    (h : Handshake) : M Handshake := do
  let authNewNonce ← require h.authNewNonce
  let authServerNonce ← require h.authServerNonce
  let inner ← require (innerData crypto authNewNonce authServerNonce encrypted_answer.bytes)
  let key ← require (agreedKey inner e.b e.memory)
  pure { h with
    handshakeState := 3
    handshakeRequest := some .set_client_DH_params
    handshakeAuthKey := some key
    timeDifference := inner.server_time - e.currentTime
    run := h.run ++ [.server_DH_params_ok nonce server_nonce encrypted_answer e.b] }

/-- A reply that is not null where the code needs it, by what becomes of it. -/
def processReply (e : Surroundings) (reply : Reply) (h : Handshake) : Outcome → M Handshake
  | .ignored | .acknowledged => pure h
  | .loadsCdnConfig => pure { h with handshakeState := 2 }
  | .restarted => h.beginHandshake e.nonce
  | .proceeded =>
      match reply with
      | .resPQ nonce server_nonce _ _ => pure (h.requestDhParams e nonce server_nonce)
      | .server_DH_params_ok nonce server_nonce encrypted_answer =>
          h.setClientDhParams crypto e nonce server_nonce encrypted_answer
  | _ => fault

/-- What becomes of an answer to `set_client_DH_params`.  A retry and a refusal both end the run,
whether their hash is right or not. -/
def processAnswer (sha1 : List UInt8 → List UInt8) (h : Handshake)
    (answer : Set_client_DH_params_answer) : Outcome :=
  if h.handshakeState ≠ 3 then .acknowledged
  else
    match h.authNonce, h.authServerNonce, h.authNewNonce, h.handshakeAuthKey with
    | some authNonce, some authServerNonce, some authNewNonce, some key =>
        if authNonce ≠ answer.nonce then .restarted
        else if authServerNonce ≠ answer.server_nonce then .restarted
        else if answer.new_nonce_hash ≠ newNonceHash sha1 authNewNonce answer.dhGen.byte key then
          .restarted
        else
          match answer.dhGen with
          | .ok => .proceeded
          | .retry | .fail => .restarted
    | _, _, _, _ => .nullPointer

/-- The handshake is completed: a permanent key is handed over by a task, a temporary one is bound
first. -/
def completed (answer : Set_client_DH_params_answer) (h : Handshake) : M Handshake := do
  let key ← require h.handshakeAuthKey
  let h := { h with
    handshakeState := 4
    handshakeRequest := none
    authKeyTempPendingId := keyId crypto.sha1 key
    run := h.run ++ [.answer answer] }
  if h.handshakeType = .perm then do
    scheduleTask (.complete h.id)
    pure h
  else do
    let token ← sendBindRequest h.id
    pure
      { h with
        authKeyTempPending := some key
        handshakeAuthKey := none
        authKeyPendingRequestId := token }

def processHandshakeResponse (isCdnDatacenter : Bool) (datacenterId : ℤ) (e : Surroundings)
    (message : Message)
    (h : Handshake) : M Handshake :=
  if h.handshakeState = 0 then pure h
  else
    match message with
    | .reply reply => do
        let authNonce ← require h.authNonce
        h.processReply crypto e reply
          (Mtproto.Handshake.processHandshakeResponse crypto assertions e.draws
            (h.fields isCdnDatacenter datacenterId e authNonce) reply)
    | .server_DH_params_fail => h.beginHandshake e.nonce
    | .answer answer =>
        match h.processAnswer crypto.sha1 answer with
        | .acknowledged => pure h
        | .restarted => h.beginHandshake e.nonce
        | .proceeded => h.completed crypto answer
        | _ => fault

end Handshake

/-! ## The datacenter -/

/-- A `Datacenter` with its handshakes and keys; `created` counts the handshakes. -/
structure Datacenter where
  datacenterId : ℤ
  isCdnDatacenter : Bool
  hasMediaAddress : Bool
  handshakes : List Handshake := []
  created : ℕ := 0
  authKeyPerm : Option (List UInt8) := none
  authKeyPermId : BitVec 64 := 0
  authKeyTemp : Option (List UInt8) := none
  authKeyTempId : BitVec 64 := 0
  authKeyMediaTemp : Option (List UInt8) := none
  authKeyMediaTempId : BitVec 64 := 0

namespace Datacenter

variable (crypto : Crypto) (assertions pfsEnabled : Bool)

def find (id : ℕ) (dc : Datacenter) : Option Handshake := dc.handshakes.find? (·.id = id)

/-- A member function of one handshake; there is no result when the object is gone. -/
def withHandshake (id : ℕ) (f : Handshake → M Handshake) (dc : Datacenter) : M Datacenter := do
  let _ ← require (dc.find id)
  let handshakes ← dc.handshakes.mapM fun h => if h.id = id then f h else pure h
  pure { dc with handshakes := handshakes }

/-- A new handshake, unless there is one of its type. -/
def addHandshake (nonce : List UInt8) (type : HandshakeType) (dc : Datacenter) : M Datacenter :=
  if dc.handshakes.any (·.handshakeType = type) then pure dc
  else do
    let h ← Handshake.beginHandshake nonce { id := dc.created, handshakeType := type }
    pure { dc with handshakes := dc.handshakes ++ [h], created := dc.created + 1 }

/-- `beginHandshake`; `nonces` are the random bytes of each handshake. -/
def beginHandshake (nonces : ℕ → List UInt8) (type : HandshakeType) (dc : Datacenter) :
    M Datacenter :=
  if type = .current then do
    let handshakes ← dc.handshakes.mapM fun h => h.beginHandshake (nonces h.id)
    pure { dc with handshakes := handshakes }
  else if dc.authKeyPerm = none then dc.addHandshake (nonces dc.created) .perm
  else if pfsEnabled then
    if type = .all ∨ type = .temp then dc.addHandshake (nonces dc.created) .temp
    else if (type = .all ∨ type = .mediaTemp) ∧ dc.hasMediaAddress then
      dc.addHandshake (nonces dc.created) .mediaTemp
    else pure dc
  else pure dc

def clearAuthKey (type : HandshakeType) (dc : Datacenter) : M Datacenter := do
  -- the destructors
  let _ ← dc.handshakes.mapM Handshake.cleanupHandshake
  pure { dc with
    authKeyPerm := if type = .all ∨ dc.isCdnDatacenter then none else dc.authKeyPerm
    authKeyPermId := if type = .all ∨ dc.isCdnDatacenter then 0 else dc.authKeyPermId
    authKeyMediaTemp := if type = .mediaTemp ∨ type = .all then none else dc.authKeyMediaTemp
    authKeyMediaTempId := if type = .mediaTemp ∨ type = .all then 0 else dc.authKeyMediaTempId
    authKeyTemp := if type = .temp ∨ type = .all then none else dc.authKeyTemp
    authKeyTempId := if type = .temp ∨ type = .all then 0 else dc.authKeyTempId
    handshakes := [] }

/-- The handshakes that see the messages of a connection. -/
def sees (media : Bool) (h : Handshake) : Prop :=
  (media = true ∧ h.handshakeType = .mediaTemp) ∨ (media = false ∧ h.handshakeType ≠ .mediaTemp)

instance (media : Bool) (h : Handshake) : Decidable (sees media h) :=
  inferInstanceAs (Decidable (_ ∨ _))

/-- `processHandshakeResponse`: every handshake of the connection's kind sees the message. -/
def processHandshakeResponse (media : Bool) (e : ℕ → Surroundings) (message : Message)
    (dc : Datacenter) :
    M Datacenter := do
  let handshakes ← dc.handshakes.mapM fun h =>
    if sees media h then
      h.processHandshakeResponse crypto assertions dc.isCdnDatacenter dc.datacenterId
        (e h.id) message
    else pure h
  pure { dc with handshakes := handshakes }

/-- `isHandshaking` for the messages of a connection. -/
def isHandshaking (media : Bool) (dc : Datacenter) : Bool :=
  let media := media && !(dc.isCdnDatacenter || !pfsEnabled)
  dc.handshakes.any fun h => h.handshakeType = .perm ∨ sees media h

/-- `getCurrentHandshakeRequest`: the request of the first handshake of the connection's kind. -/
def getCurrentHandshakeRequest (media : Bool) (dc : Datacenter) : Option HandshakeRequest :=
  (dc.handshakes.find? fun h => sees media h).bind (·.handshakeRequest)

/-- `TLdeserialize` gives an object, not a null pointer: the message is an answer to the request. -/
def deserializes (media : Bool) (message : Message) (dc : Datacenter) : Bool :=
  dc.isHandshaking pfsEnabled media &&
    (dc.getCurrentHandshakeRequest media).any (·.deserializesResponse message)

/-- What `onConnectionDataReceived` does with a message that is not encrypted. -/
def onConnectionDataReceived (media : Bool) (e : ℕ → Surroundings) (message : Message)
    (dc : Datacenter) :
    M Datacenter :=
  if dc.deserializes pfsEnabled media message then
    dc.processHandshakeResponse crypto assertions media e message
  else pure dc

/-- `onHandshakeComplete`: the handshake is destroyed and its key installed. -/
def onHandshakeComplete (nonces : ℕ → List UInt8) (h : Handshake) (keyId : BitVec 64)
    (authKey : Option (List UInt8))
    (dc : Datacenter) : M Datacenter := do
  let _ ← h.cleanupHandshake
  let dc := { dc with handshakes := dc.handshakes.filter (·.id ≠ h.id) }
  if h.handshakeType = .perm then
    let dc := { dc with authKeyPermId := keyId, authKeyPerm := authKey }
    if dc.isCdnDatacenter = false ∧ pfsEnabled = true then
      dc.beginHandshake pfsEnabled nonces .all
    else pure dc
  else if h.handshakeType = .temp then
    pure { dc with authKeyTempId := keyId, authKeyTemp := authKey }
  else if h.handshakeType = .mediaTemp then
    pure { dc with authKeyMediaTempId := keyId, authKeyMediaTemp := authKey }
  else pure dc

end Datacenter

/-! ## The machine -/

/-- A call of `onHandshakeComplete` by a task: from a handshake, with the run it is in and the
arguments, or with what is left of one that has been destroyed. -/
inductive Call
  | made (run : List Taken) (keyId : BitVec 64) (authKey : Option (List UInt8))
      (timeDifference : BitVec 32)
  | freed (id : ℕ)

/-- The key that is handed over. -/
def Call.authKey : Call → Option (List UInt8)
  | .made _ _ authKey _ => authKey
  | .freed _ => none

structure Machine where
  datacenter : Datacenter
  manager : ConnectionsManager
  calls : List Call

namespace Machine

variable (crypto : Crypto) (assertions pfsEnabled : Bool)

/-- A step of the datacenter. -/
def within (f : Datacenter → M Datacenter) : Program Machine Unit := fun s => do
  let (dc, m) ← f s.datacenter s.manager
  pure ((), { s with datacenter := dc, manager := m })

/-- The closure of `processHandshakeResponse`: the key is taken out of the handshake and handed
over.  The type of a handshake never changes, so it says which of the two closures this is. -/
def complete (nonces : ℕ → List UInt8) (id : ℕ) : Program Machine Unit := do
  let s ← read
  match s.datacenter.find id with
  | none => update fun s => { s with calls := s.calls ++ [.freed id] }
  | some h =>
      let perm := h.handshakeType = .perm
      let authKey := if perm then h.handshakeAuthKey else h.authKeyTempPending
      let h := if perm then { h with handshakeAuthKey := none } else
        { h with authKeyTempPending := none }
      update fun s =>
        { s with calls := s.calls ++ [.made h.run h.authKeyTempPendingId authKey h.timeDifference] }
      within fun dc => dc.onHandshakeComplete pfsEnabled nonces h h.authKeyTempPendingId authKey

/-- One round of the loop in `checkPendingTasks`. -/
def checkPendingTasks (nonces : ℕ → List UInt8) : Program Machine Unit := do
  let s ← read
  match s.manager.pendingTasks with
  | [] => pure ()
  | task :: rest =>
      update fun s => { s with manager := { s.manager with pendingTasks := rest } }
      match task with
      | .complete id => complete pfsEnabled nonces id
      | .restart id => within fun dc => dc.withHandshake id (Handshake.beginHandshake (nonces id))
      | .sendRequest token id =>
          update fun s => { s with manager := { s.manager with
            requests := s.manager.requests ++ [{ requestToken := token, id := id }] } }

/-- `initFunc` of a binding: it is about to be sent with a new message id. -/
def bindSent (token : ℕ) (messageId : ℤ) : Program Machine Unit := do
  let s ← read
  match s.manager.requests.find? (·.requestToken = token) with
  | none => pure ()
  | some request =>
      update fun s => { s with manager := { s.manager with
        requests := s.manager.requests.map fun r =>
          if r.requestToken = token then { r with messageIds := messageId :: r.messageIds } else
            r } }
      within fun dc => dc.withHandshake request.id fun h =>
        pure { h with authKeyPendingMessageId := messageId }

/-- The callback of a binding. -/
def bindAnswered (token : ℕ) (boolTrue : Bool) : Program Machine Unit := do
  let s ← read
  match s.manager.requests.find? (·.requestToken = token) with
  | none => pure ()
  | some request =>
      update fun s => { s with manager := { s.manager with
        requests := s.manager.requests.eraseP (·.requestToken = token) } }
      within fun dc => dc.withHandshake request.id fun h => do
        scheduleTask (if boolTrue then .complete request.id else .restart request.id)
        pure { h with authKeyPendingMessageId := 0, authKeyPendingRequestId := 0 }

end Machine

/-- What can happen, in any order. -/
inductive Step
  | onConnectionDataReceived (media : Bool) (e : ℕ → Surroundings) (message : Message)
  | beginHandshake (nonces : ℕ → List UInt8) (type : HandshakeType)
  | restart (id : ℕ) (nonce : List UInt8)
  | cleanupHandshake (id : ℕ)
  | clearAuthKey (type : HandshakeType)
  | checkPendingTasks (nonces : ℕ → List UInt8)
  | bindSent (token : ℕ) (messageId : ℤ)
  | bindAnswered (token : ℕ) (boolTrue : Bool)

def step (crypto : Crypto) (assertions pfsEnabled : Bool) : Step → Program Machine Unit
  | .onConnectionDataReceived media e message =>
      Machine.within fun dc =>
        dc.onConnectionDataReceived crypto assertions pfsEnabled media e message
  | .beginHandshake nonces type => Machine.within fun dc => dc.beginHandshake pfsEnabled nonces type
  | .restart id nonce => Machine.within fun dc =>
      dc.withHandshake id (Handshake.beginHandshake nonce)
  | .cleanupHandshake id => Machine.within fun dc => dc.withHandshake id Handshake.cleanupHandshake
  | .clearAuthKey type => Machine.within fun dc => dc.clearAuthKey type
  | .checkPendingTasks nonces => Machine.checkPendingTasks pfsEnabled nonces
  | .bindSent token messageId => Machine.bindSent token messageId
  | .bindAnswered token boolTrue => Machine.bindAnswered token boolTrue

end Mtproto.Installation
