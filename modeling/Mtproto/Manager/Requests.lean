import Mtproto.Manager.Sending

/-!
Requests outside the queue loops: how they are scheduled and built, cancelled, cleared and
completed, what the callbacks of the manager's own requests do, and the migration to another
datacenter that these callbacks drive.
-/

namespace Mtproto.Manager

open Lib Program

variable (env : Env)

/-- `getDatacenterWithId`.  For the default id the lookup is `datacenters[currentDatacenterId]`,
which enters a null pointer under an unknown key. -/
def getDatacenterWithId (id : Nat) : M (Option Nat) := do
  let s ← read
  if id = defaultDatacenterId then
    match s.datacenters.find s.currentDatacenterId with
    | some (some _) => pure (some s.currentDatacenterId)
    | some none => pure none
    | none => do
        update fun s => { s with datacenters := s.datacenters.insert s.currentDatacenterId none }
        pure none
  else pure (if (s.datacenter id).isSome then some id else none)

/-- `saveConfig`: with a current datacenter every entry of the map is followed. -/
def saveConfig : M Unit := do
  let s ← read
  let currentDatacenter ← getDatacenterWithId s.currentDatacenterId
  when (currentDatacenter.isSome = true) do
    let s ← read
    each (fun d => do
      let _ ← datacenter d
      pure ()) (s.datacenters.map (·.1))

/-! ## Sending requests -/

/-- `lastRequestToken++`. -/
def newRequestToken : M Int := do
  let s ← read
  update fun s => { s with lastRequestToken := (s.lastRequestToken + 1) % 2 ^ 32 }
  pure s.lastRequestToken

/-- `sendRequest` with a token: the request itself is built by a task. -/
def sendRequest (args : RequestArgs) : M Unit := do
  let s ← read
  when (¬ (s.currentUserId = 0 ∧ hasBits args.flags RequestFlag.withoutLogin = false)) do
    let token ← (if args.requestToken = 0 then newRequestToken else pure args.requestToken)
    scheduleTask (.sendRequest { args with requestToken := token })

/-- `sendRequest` without a token. -/
def sendNewRequest (object : Query) (onComplete : Callback)
    (flags datacenterId connectionType : Nat) :
    M Unit := do
  let requestToken ← newRequestToken
  sendRequest
    { object, onComplete, flags, datacenterId, connectionType, immediate := true, requestToken }

/-- `wrapInLayer` marks the request that carries `initConnection`. -/
def wrapInLayer (r : Request) (dc : Option Datacenter) (currentVersion : Nat) : Request :=
  let media := pfsEnabled && r.isMediaRequest && (dc.map (·.hasMediaAddress)).getD false
  let needInit := (dc.map fun dc => r.needInitRequest dc currentVersion).getD true
  if r.rawRequest.isNeedLayer && needInit then
    if media then { r with isInitMediaRequest := true } else { r with isInitRequest := true }
  else r

/-- The new request object. -/
def newRequest (id : Nat) (args : RequestArgs) : Request where
  id := id
  rawRequest := args.object
  onCompleteRequestCallback := args.onComplete
  requestToken := args.requestToken
  connectionType := args.connectionType
  requestFlags := args.flags
  datacenterId := args.datacenterId

/-- The call of `processRequestQueue` that ends a handler: the network thread makes it next. -/
def callQueue (call : QueueCall) : M Unit := update fun s => { s with queueCall := some call }

/-- The task of `sendRequest`. -/
def enqueueRequest (args : RequestArgs) : M Unit := do
  let d ← getDatacenterWithId args.datacenterId
  update fun s =>
    { s with
      requestsQueue := s.requestsQueue ++
        [wrapInLayer (newRequest s.nextRequest args) (d.bind s.datacenter) s.currentVersion]
      nextRequest := s.nextRequest + 1 }
  when args.immediate (callQueue ⟨0, 0, false⟩)

/-- `requestSaltsForDatacenter`. -/
def requestSaltsForDatacenter (d : Nat) : M Unit := do
  let s ← read
  when (d ∉ s.requestingSaltsForDc) do
    update fun s => { s with requestingSaltsForDc := s.requestingSaltsForDc ++ [d] }
    sendNewRequest .getFutureSalts (.requestSalts d)
      (RequestFlag.withoutLogin ||| RequestFlag.enableUnauthorized ||| RequestFlag.useUnboundKey)
      d ConnectionType.generic

/-- `updateDcSettings`. -/
def updateDcSettings (dcNum : Nat) (workaround : Bool) : M Unit := do
  let s ← read
  when (¬ if workaround then s.updatingDcSettingsWorkaround else s.updatingDcSettings) do
    let n ← reading
    update fun s =>
      if workaround then { s with updatingDcSettingsWorkaround := true }
      else
        { s with
          updatingDcSettings := true
          updatingDcStartTime := (env.currentTimeMonotonicMillis n).tdiv 1000 }
    sendNewRequest .getConfig (.updateDcSettings workaround)
      (RequestFlag.enableUnauthorized ||| RequestFlag.withoutLogin ||| RequestFlag.useUnboundKey |||
        if workaround then 0 else RequestFlag.tryDifferentDc)
      (if dcNum = 0 then s.currentDatacenterId else dcNum)
      (if workaround then ConnectionType.temp else ConnectionType.generic)

/-- `Datacenter::exportAuthorization`. -/
def exportAuthorization (d : Nat) : M Unit := do
  let dc ← datacenter d
  when (dc.exportingAuthorization = false ∧ dc.isCdnDatacenter = false) do
    modifyDatacenter d fun dc => { dc with exportingAuthorization := true }
    sendNewRequest .exportAuthorization (.exportAuthorization d) 0 defaultDatacenterId
      ConnectionType.generic

/-! ## Clearing and cancelling -/

/-- Whether a handshake of this type clears the request. -/
def clearedBy (type : HandshakeType) (r : Request) : Bool :=
  decide (type = .perm) || decide (type = .all) ||
    (decide (type = .mediaTemp) && r.isMediaRequest) ||
    (decide (type = .temp) && !r.isMediaRequest)

/-- `clearRequestsForDatacenter`; both pointers are followed for every running request. -/
def clearRequestsForDatacenter (d : Option Nat) (type : HandshakeType) : M Unit := do
  let s ← read
  each (fun p => do
    let r ← runningRequest p
    let requestDatacenter ← getDatacenterWithId r.datacenterId
    let requestDatacenter ← require requestDatacenter
    let d ← require d
    when (requestDatacenter = d ∧ clearedBy type r = true) (modifyRequest p fun r => r.clear true))
    (s.runningRequests.map (·.id))

def eraseRunning (p : Nat) : M Unit :=
  update fun s => { s with runningRequests := s.runningRequests.eraseP fun r => r.id == p }

def eraseQueued (p : Nat) : M Unit :=
  update fun s => { s with requestsQueue := s.requestsQueue.eraseP fun r => r.id == p }

/-- `cancelRequestInternal`: the first request with the token or the message id, in the queue or
else among the running ones. -/
def cancelRequestInternal (token messageId : Int) (notifyServer : Bool) : M Unit := do
  let s ← read
  let matching := fun (r : Request) =>
    (token != 0 && r.requestToken == token) || (messageId != 0 && r.respondsToMessageId messageId)
  match s.requestsQueue.find? matching with
  | some r => do
      record (.cancelled r.id)
      eraseQueued r.id
  | none =>
      match s.runningRequests.find? matching with
      | some r => do
          when notifyServer
            (sendNewRequest .dropAnswer .none
              (RequestFlag.enableUnauthorized ||| RequestFlag.withoutLogin |||
                RequestFlag.failOnServerErrors)
              r.datacenterId r.connectionType)
          record (.cancelled r.id)
          eraseRunning r.id
      | none => pure ()

/-- The task of `cleanUp`. -/
def cleanUp (resetKeys : Bool) : M Unit := do
  update fun s => { s with requestsQueue := [], runningRequests := [] }
  let s ← read
  each (fun d => do
    let _ ← datacenter d
    when resetKeys (clearAuthKey d .all)
    recreateSessions env d .all
    modifyDatacenter d fun dc => { dc with authorized := false }) (s.datacenters.map (·.1))
  update fun s => { s with sessionsToDestroy := [], currentUserId := 0 }
  saveConfig

/-! ## Migration -/

/-- `authorizedOnMovingDatacenter`. -/
def authorizedOnMovingDatacenter : M Unit := do
  update fun s =>
    { s with
      movingAuthorization := false
      currentDatacenterId := s.movingToDatacenterId
      movingToDatacenterId := defaultDatacenterId }
  saveConfig
  scheduleTask (.processRequestQueue 0 0)

/-- `authorizeOnMovingDatacenter`. -/
def authorizeOnMovingDatacenter : M Unit := do
  let s ← read
  let moving ← getDatacenterWithId s.movingToDatacenterId
  match moving with
  | none => updateDcSettings env 0 false
  | some d => do
      recreateSessions env d .all
      clearRequestsForDatacenter (some d) .all
      let dc ← datacenter d
      when (dc.authKeyPerm = false ∧ dc.handshakes = []) (beginHandshake env d .all true)
      let s ← read
      if s.movingAuthorization then do
        update fun s => { s with movingAuthorization := false }
        sendNewRequest .importAuthorization .moveImport RequestFlag.withoutLogin d
          ConnectionType.generic
      else authorizedOnMovingDatacenter

/-- `moveToDatacenter`. -/
def moveToDatacenter (target : MoveTarget) : M Unit := do
  let s ← read
  when (s.movingToDatacenterId ≠ target.id) do
    update fun s => { s with movingToDatacenterId := target.id }
    let currentDatacenter ← getDatacenterWithId s.currentDatacenterId
    clearRequestsForDatacenter currentDatacenter .all
    if s.currentUserId ≠ 0 then
      sendNewRequest .exportAuthorization (.moveExport target) RequestFlag.withoutLogin
        defaultDatacenterId ConnectionType.generic
    else authorizeOnMovingDatacenter env

/-! ## Answers -/

/-- An address of `TL_config`; `media` marks a download address of the family in use. -/
structure DcOption where
  id : Nat
  cdn : Bool := false
  media : Bool := false

/-- The classes of answers that the callbacks tell apart. -/
inductive Answer
  | config (options : List DcOption)
  | exportedAuthorization
  | futureSalts
  | cdnConfig
  | other

/-- The datacenters of a configuration, in the order of their ids, with the flags of all their
addresses together. -/
def configEntries (options : List DcOption) : OrderedMap Nat (Bool × Bool) :=
  options.foldl (fun entries option =>
    let info := (entries.find option.id).getD (false, false)
    entries.insert option.id (info.1 || option.cdn, info.2 || option.media)) []

/-- The datacenter of this id, entered if it is new. -/
def enterDatacenter (id : Nat) : M Nat := do
  let found ← getDatacenterWithId id
  match found with
  | some d => pure d
  | none => do
      update fun s => { s with datacenters := s.datacenters.insert id (some {}) }
      pure id

/-- The addresses of one datacenter of a configuration. -/
def applyConfigEntry (entry : Nat × Bool × Bool) : M Unit := do
  let d ← enterDatacenter entry.1
  modifyDatacenter d fun dc =>
    { dc with isCdnDatacenter := entry.2.1, hasMediaAddress := entry.2.2 }
  let s ← read
  when (entry.1 = s.movingToDatacenterId) do
    update fun s => { s with movingToDatacenterId := defaultDatacenterId }
    -- asked for the default id, `moveToDatacenter` returns at once
    if h : entry.1 = defaultDatacenterId then pure () else moveToDatacenter env ⟨entry.1, h⟩

/-- The datacenters of a configuration. -/
def applyConfig : Option Answer → M Unit
  | some (.config options) => when (options ≠ []) do
      each (applyConfigEntry env) (configEntries options)
      saveConfig
      scheduleTask (.processRequestQueue ConnectionType.all 0)
  | some _ => fault
  | none => pure ()

/-- The callback of `updateDcSettings`. -/
def onConfig (workaround : Bool) (answer : Option Answer) : M Unit := do
  let s ← read
  when (if workaround then s.updatingDcSettingsWorkaround else s.updatingDcSettings) do
    applyConfig env answer
    update fun s =>
      if workaround then { s with updatingDcSettingsWorkaround := false }
      else { s with updatingDcSettings := false }

/-- The callback of `loadCdnConfig`. -/
def onCdnConfig : Option Answer → M Unit
  | none => update fun s => { s with loadingCdnKeys := false }
  | some .cdnConfig => do
      let s ← read
      each (fun d => beginHandshake env d .current false) s.cdnWaitingDatacenters
      update fun s => { s with cdnWaitingDatacenters := [], loadingCdnKeys := false }
  | some _ => fault

/-- Runs a callback; no answer means that there is an error.  An answer of another class than the
callback casts it to has no defined meaning. -/
def runCallback (callback : Callback) (answer : Option Answer) : M Unit :=
  match callback with
  | .none | .delegate => pure ()
  | .updateDcSettings workaround => onConfig env workaround answer
  | .requestSalts d => do
      update fun s => { s with requestingSaltsForDc := s.requestingSaltsForDc.erase d }
      match answer with
      | none => pure ()
      | some .futureSalts => saveConfig
      | some _ => fault
  | .moveExport target =>
      match answer with
      | none => moveToDatacenter env target
      | some .exportedAuthorization => do
          update fun s => { s with movingAuthorization := true }
          authorizeOnMovingDatacenter env
      | some _ => fault
  | .moveImport =>
      match answer with
      -- `moveToDatacenter(movingToDatacenterId)` returns at once
      | none => pure ()
      | some _ => authorizedOnMovingDatacenter
  | .exportAuthorization d =>
      match answer with
      | none => modifyDatacenter d fun dc => { dc with exportingAuthorization := false }
      | some .exportedAuthorization =>
          sendNewRequest .importAuthorization (.importAuthorization d)
            (RequestFlag.enableUnauthorized ||| RequestFlag.withoutLogin) d ConnectionType.generic
      | some _ => fault
  | .importAuthorization d => do
      when (answer.isSome = true) do
        modifyDatacenter d fun dc => { dc with authorized := true }
        saveConfig
        scheduleTask (.processRequestQueue ConnectionType.all d)
      modifyDatacenter d fun dc => { dc with exportingAuthorization := false }
  | .cdnConfig => onCdnConfig env answer

/-- `Request::onComplete`. -/
def onComplete (r : Request) (answer : Option Answer) : M Unit := do
  record (.onComplete r.id)
  runCallback env r.onCompleteRequestCallback answer

end Mtproto.Manager
