import Mtproto.Lib.OrderedMap
import Mtproto.Lib.Program
import Mathlib.Logic.Function.Basic
import Mathlib.Algebra.Group.Int.Defs
import Mathlib.Algebra.Group.Nat.Defs

/-!
The state of `ConnectionsManager`: the two request lists, the datacenters with their connections
and sessions, the scheduled tasks and the working maps of `processRequestQueue`.

A `Request *` is the number its object got when it was constructed, a `Datacenter *` the key under
which the object stands in `datacenters`, a `Connection *` its datacenter and its place there.
Clocks, random numbers and the sizes of serialised objects come from the environment.  Salts, saved
configuration, quick acknowledgements, the guid tables and the calls of the delegate are left out:
nothing here reads them.
-/

namespace Mtproto.Manager

open Lib

/-! ## Constants -/

/-- `DEFAULT_DATACENTER_ID`. -/
def defaultDatacenterId : Nat := 2147483647

/-- `PFS_ENABLED`. -/
def pfsEnabled : Bool := false

namespace ConnectionType

def generic : Nat := 1
def download : Nat := 2
def upload : Nat := 4
def push : Nat := 8
def temp : Nat := 16
def proxy : Nat := 32
def genericMedia : Nat := 64

/-- `AllConnectionTypes`. -/
def all : Nat := generic ||| download ||| upload

end ConnectionType

namespace RequestFlag

def enableUnauthorized : Nat := 1
def failOnServerErrors : Nat := 2
def canCompress : Nat := 4
def withoutLogin : Nat := 8
def tryDifferentDc : Nat := 16
def forceDownload : Nat := 32
def invokeAfter : Nat := 64
def needQuickAck : Nat := 128
def useUnboundKey : Nat := 256

end RequestFlag

/-- Whether the words share a bit. -/
def hasBits (word mask : Nat) : Bool := word &&& mask != 0

/-! ## Connections -/

/-- The place of a connection in its datacenter; the arrays have two, four and four entries. -/
inductive Slot
  | generic
  | genericMedia
  | temp
  | push
  | download (num : Fin 2)
  | upload (num : Fin 4)
  | proxy (num : Fin 4)
deriving DecidableEq, Repr

/-- `getConnectionType`, without the number of the connection. -/
def Slot.connectionType : Slot → Nat
  | .generic => ConnectionType.generic
  | .genericMedia => ConnectionType.genericMedia
  | .temp => ConnectionType.temp
  | .push => ConnectionType.push
  | .download _ => ConnectionType.download
  | .upload _ => ConnectionType.upload
  | .proxy _ => ConnectionType.proxy

/-- The place a request's connection type selects: its low half is the type, the next byte the
number.  A number outside the array has no place. -/
def connectionSlot (connectionType : Nat) : Option Slot :=
  let connectionNum := connectionType / 65536 % 256
  match connectionType % 65536 with
  | 1 => some .generic
  | 64 => some .genericMedia
  | 2 => if h : connectionNum < 2 then some (.download ⟨connectionNum, h⟩) else none
  | 4 => if h : connectionNum < 4 then some (.upload ⟨connectionNum, h⟩) else none
  | 8 => some .push
  | 16 => some .temp
  | 32 => if h : connectionNum < 4 then some (.proxy ⟨connectionNum, h⟩) else none
  | _ => none

/-- `Connection::isMediaConnectionType`. -/
def isMediaConnectionType (connectionType : Nat) : Bool :=
  hasBits connectionType ConnectionType.genericMedia ||
    hasBits connectionType ConnectionType.download

/-- A `Connection *`. -/
structure ConnectionId where
  datacenter : Nat
  slot : Slot
deriving DecidableEq, Repr

/-- The stages of a TCP connection; only a connected one has a token. -/
inductive Stage
  | idle
  | connecting
  | reconnecting
  | connected (token : Nat)
  | suspended
deriving DecidableEq, Repr

/-- `getConnectionToken`. -/
def Stage.token : Stage → Nat
  | .connected token => token
  | _ => 0

/-- A `Connection` with its `ConnectionSession`. -/
structure Connection where
  stage : Stage := .idle
  waitForReconnectTimer : Bool := false
  isMediaConnection : Bool := false
  sessionId : Int
  nextSeqNo : Nat := 0
  minProcessedMessageId : Int := 0
  processedMessageIds : List Int := []
  messagesIdsForConfirmation : List Int := []
  processedSessionChanges : List Int := []

/-! ## Datacenters -/

inductive HandshakeType
  | perm
  | temp
  | mediaTemp
  | current
  | all
deriving DecidableEq, Repr

/-- A `Datacenter`.  Of its keys only the permanent one is ever used: `getAuthKey` returns it
first. -/
structure Datacenter where
  isCdnDatacenter : Bool := false
  authKeyPerm : Bool := false
  authorized : Bool := false
  exportingAuthorization : Bool := false
  lastInitVersion : Nat := 0
  lastInitMediaVersion : Nat := 0
  hasMediaAddress : Bool := false
  handshakes : List HandshakeType := []

/-! ## Requests -/

/-- The classes of `rawRequest` that the manager tells apart. -/
inductive Query
  | getFutureSalts
  | destroySession
  | getConfig
  | ping
  | dropAnswer
  | exportAuthorization
  | importAuthorization
  | getCdnConfig
  | api
deriving DecidableEq, Repr

/-- `isNeedLayer`. -/
def Query.isNeedLayer : Query → Bool
  | .getConfig | .exportAuthorization | .importAuthorization | .getCdnConfig | .api => true
  | _ => false

/-- A datacenter that `moveToDatacenter` was asked for: never `DEFAULT_DATACENTER_ID`. -/
structure MoveTarget where
  id : Nat
  ne_default : id ≠ defaultDatacenterId

/-- What `onCompleteRequestCallback` does.  A callback of the delegate only schedules tasks. -/
inductive Callback
  | none
  | delegate
  | updateDcSettings (workaround : Bool)
  | requestSalts (datacenter : Nat)
  | moveExport (target : MoveTarget)
  | moveImport
  | exportAuthorization (datacenter : Nat)
  | importAuthorization (datacenter : Nat)
  | cdnConfig

/-- The callbacks that a request of the application can have. -/
def Callback.isPlain : Callback → Bool
  | .none | .delegate => true
  | _ => false

/-- A `Request`; `id` names the object. -/
structure Request where
  id : Nat
  rawRequest : Query
  onCompleteRequestCallback : Callback
  requestToken : Int
  connectionType : Nat
  requestFlags : Nat
  datacenterId : Nat
  messageId : Int := 0
  messageSeqNo : Nat := 0
  connectionToken : Nat := 0
  retryCount : Nat := 0
  failedBySalt : Bool := false
  failedByFloodWait : Int := 0
  completed : Bool := false
  cancelled : Bool := false
  isInitRequest : Bool := false
  isInitMediaRequest : Bool := false
  serializedLength : Nat := 0
  startTime : Int := 0
  minStartTime : Int := 0
  lastResendTime : Int := 0
  serverFailureCount : Nat := 0
  respondsToMessageIds : List Int := []

namespace Request

/-- `addRespondMessageId` stores the request's own id, whatever id it is given. -/
def addRespondMessageId (r : Request) : Request :=
  { r with respondsToMessageIds := r.respondsToMessageIds ++ [r.messageId] }

def respondsToMessageId (r : Request) (id : Int) : Bool :=
  r.messageId == id || r.respondsToMessageIds.contains id

def clear (r : Request) (time : Bool) : Request :=
  { r with
    messageId := 0
    messageSeqNo := 0
    connectionToken := 0
    startTime := if time then 0 else r.startTime
    minStartTime := if time then 0 else r.minStartTime }

def hasInitFlag (r : Request) : Bool := r.isInitRequest || r.isInitMediaRequest

def isMediaRequest (r : Request) : Bool := isMediaConnectionType r.connectionType

def needInitRequest (r : Request) (datacenter : Datacenter) (currentVersion : Nat) : Bool :=
  let media := pfsEnabled && r.isMediaRequest && datacenter.hasMediaAddress
  (!media && datacenter.lastInitVersion != currentVersion) ||
    (media && datacenter.lastInitMediaVersion != currentVersion)

/-- The connection type without the number of the connection. -/
def lowType (r : Request) : Nat := r.connectionType % 65536

def hasFlag (r : Request) (flag : Nat) : Bool := hasBits r.requestFlags flag

/-- `canUseUnboundKey`. -/
def canUseUnboundKey (r : Request) : Bool := r.hasFlag RequestFlag.useUnboundKey

end Request

/-- The arguments of `sendRequest`. -/
structure RequestArgs where
  object : Query
  onComplete : Callback
  flags : Nat
  datacenterId : Nat
  connectionType : Nat
  immediate : Bool
  requestToken : Int

/-- A `NetworkMessage` with its `TL_message`; `invokeAfterId` is the message it was wrapped to
wait for, `destroySession` the session that a `TL_destroy_session` names. -/
structure NetworkMessage where
  msgId : Int
  seqNo : Nat
  bytes : Nat
  requestId : Int := 0
  invokeAfter : Bool := false
  needQuickAck : Bool := false
  invokeAfterId : Option Int := none
  destroySession : Option Int := none

structure ProxyCheckInfo where
  pingId : Int
  connectionNum : Nat := 0
  requestToken : Int := 0

/-- The scheduled tasks. -/
inductive Task
  | sendRequest (args : RequestArgs)
  | cancelRequest (token : Int) (notifyServer : Bool)
  | cleanUp (resetKeys : Bool)
  | processRequestQueue (connectionTypes dc : Nat)
  | handshakeComplete (datacenter : Nat) (type : HandshakeType) (timeDifference : Int)
  | proxyConnectionClosed (connection : ConnectionId)
  | checkProxy (info : ProxyCheckInfo)
  | setUserId (userId : Int)

/-! ## The state -/

/-- What the run did to the outside: calls of `onComplete`, cancelled requests, new message ids
with their sequence numbers, opened sockets and the messages handed to `sendData`. -/
inductive Event
  | onComplete (request : Nat)
  | cancelled (request : Nat)
  | assigned (session : Int) (msgId : Int) (seqNo : Nat)
  | connected (connection : ConnectionId) (token : Nat)
  | sendData (connection : ConnectionId) (token : Nat) (msgIds : List Int)

/-- A call of `processRequestQueue`, with the flag that `onConnectionConnected` sets around its
own. -/
structure QueueCall where
  connectionTypes : Nat
  dc : Nat
  justOpenedSocket : Bool := false

/-- The fields of `ConnectionsManager`, the connections of all its datacenters, the next
object number and reading number, and the record of the run. -/
structure ConnectionsManager where
  requestsQueue : List Request := []
  runningRequests : List Request := []
  nextRequest : Nat := 0
  datacenters : OrderedMap Nat (Option Datacenter) := []
  currentDatacenterId : Nat := 0
  movingToDatacenterId : Nat := defaultDatacenterId
  movingAuthorization : Bool := false
  connections : ConnectionId → Option Connection := fun _ => none
  lastConnectionToken : Nat := 1
  timeDifference : Int := 0
  lastOutgoingMessageId : Int := 0
  currentUserId : Int := 0
  currentVersion : Nat := 1
  networkAvailable : Bool := true
  pushConnectionEnabled : Bool := true
  pushSessionId : Int := 0
  sendingPushPing : Bool := false
  lastPingId : Int := 0
  pingTime : Int := 0
  currentPingTime : Int := 0
  lastRequestToken : Nat := 50000000
  requestingSaltsForDc : List Nat := []
  updatingDcSettings : Bool := false
  updatingDcSettingsWorkaround : Bool := false
  updatingDcStartTime : Int := 0
  sessionsToDestroy : List Int := []
  lastDestroySessionRequestTime : Int := 0
  resendRequests : OrderedMap Int Int := []
  cdnWaitingDatacenters : List Nat := []
  loadingCdnKeys : Bool := false
  proxyCheckQueue : List ProxyCheckInfo := []
  proxyActiveChecks : List ProxyCheckInfo := []
  lastPingProxyId : Int := 2000000
  pendingTasks : List Task := []
  queueCall : Option QueueCall := none
  genericMessagesToDatacenters : OrderedMap Nat (List NetworkMessage) := []
  genericMediaMessagesToDatacenters : OrderedMap Nat (List NetworkMessage) := []
  tempMessagesToDatacenters : OrderedMap Nat (List NetworkMessage) := []
  unknownDatacenterIds : List Nat := []
  neededDatacenters : List (Nat × Nat) := []
  unauthorizedDatacenters : List Nat := []
  downloadRunningRequestCount : OrderedMap Nat Nat := []
  genericRunningRequestCount : Nat := 0
  uploadRunningRequestCount : Nat := 0
  readings : Nat := 0
  trace : List Event := []

/-- The environment: what the n-th reading of a clock, of the random generator, of a socket or of a
size gives.  `messageIdAt` and `messageTime` are the two floating point conversions between
milliseconds and message ids. -/
structure Env where
  currentTimeMillis : Nat → Int
  currentTimeMonotonicMillis : Nat → Int
  messageIdAt : Int → Int → Int
  messageTime : Int → Int
  newSessionId : Nat → Int
  randomByte : Nat → Nat
  opens : Nat → Bool
  objectSize : Nat → Nat

abbrev M := Program ConnectionsManager

namespace ConnectionsManager

/-- The datacenter a pointer of this number points to. -/
def datacenter (s : ConnectionsManager) (d : Nat) : Option Datacenter := (s.datacenters.find d).join

def modifyDatacenter (s : ConnectionsManager) (d : Nat) (f : Datacenter → Datacenter) :
    ConnectionsManager :=
  match s.datacenter d with
  | some dc => { s with datacenters := s.datacenters.insert d (some (f dc)) }
  | none => s

/-- `getConnectionToken`; a connection that was not created has none. -/
def token (s : ConnectionsManager) (c : ConnectionId) : Nat :=
  ((s.connections c).map fun connection => connection.stage.token).getD 0

def modifyConnection (s : ConnectionsManager) (c : ConnectionId) (f : Connection → Connection) :
    ConnectionsManager :=
  { s with connections := Function.update s.connections c ((s.connections c).map f) }

/-- Changes a request object, in whichever list it stands. -/
def modifyRequest (s : ConnectionsManager) (p : Nat) (f : Request → Request) : ConnectionsManager :=
  { s with
    requestsQueue := s.requestsQueue.map fun r => if r.id = p then f r else r
    runningRequests := s.runningRequests.map fun r => if r.id = p then f r else r }

def record (s : ConnectionsManager) (e : Event) : ConnectionsManager :=
  { s with trace := s.trace ++ [e] }

end ConnectionsManager

open Program

/-! ## Reading and writing -/

/-- The number of a new reading of the environment. -/
def reading : M Nat := do
  let s ← read
  update fun s => { s with readings := s.readings + 1 }
  pure s.readings

/-- Follows a `Datacenter *`. -/
def datacenter (d : Nat) : M Datacenter := do
  let s ← read
  require (s.datacenter d)

/-- Follows a `Connection *`. -/
def connection (c : ConnectionId) : M Connection := do
  let s ← read
  require (s.connections c)

/-- Follows a `Request *` that stands in `runningRequests`. -/
def runningRequest (p : Nat) : M Request := do
  let s ← read
  require (s.runningRequests.find? fun r => r.id == p)

/-- Follows a `Request *` that stands in `requestsQueue`. -/
def queuedRequest (p : Nat) : M Request := do
  let s ← read
  require (s.requestsQueue.find? fun r => r.id == p)

def modifyDatacenter (d : Nat) (f : Datacenter → Datacenter) : M Unit :=
  update fun s => s.modifyDatacenter d f

def modifyConnection (c : ConnectionId) (f : Connection → Connection) : M Unit :=
  update fun s => s.modifyConnection c f

def modifyRequest (p : Nat) (f : Request → Request) : M Unit :=
  update fun s => s.modifyRequest p f

def record (e : Event) : M Unit := update fun s => s.record e

def scheduleTask (task : Task) : M Unit :=
  update fun s => { s with pendingTasks := s.pendingTasks ++ [task] }

end Mtproto.Manager
