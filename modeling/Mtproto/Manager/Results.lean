import Mtproto.Manager.Clock
import Mtproto.Manager.Guids
import Mtproto.Manager.Machine

/-!
Results of requests, plain and packed.  `processRpcResult` is the handler of `TL_rpc_result` with
what it does to the guid tables and with the calls that leave the manager; without the two it is
`onRpcResult` (`processRpcResult_covers`).

The handler looks for an error 303 before it unpacks the result and for all other errors after that,
so a packed result is treated as the plain one exactly when it is no such error.
-/

namespace Mtproto.Manager

open Lib Program

/-! ## Calls that leave the manager -/

/-- Calls of a request's callback, with its object or its error, and of the delegate. -/
inductive OutsideCall
  | onComplete (request : Nat) (object : Option Answer) (error : Option (Int × String))
  | onLogout

/-- The manager with its guid tables and the record of the calls. -/
structure Watched where
  tables : Tables := {}
  calls : List OutsideCall := []

namespace Watched

def manager (s : Watched) : ConnectionsManager := s.tables.manager

/-- A command of the tables makes no call. -/
def lift {α : Type} (m : Program Tables α) : Program Watched α := fun s =>
  (m s.tables).map fun last => (last.1, { s with tables := last.2 })

/-- Nor does a command of the manager. -/
def inside {α : Type} (m : M α) : Program Watched α := lift (Tables.lift m)

def call (c : OutsideCall) : Program Watched Unit :=
  update fun s => { s with calls := s.calls ++ [c] }

end Watched

/-! ## The handler -/

/-- The object of a `TL_rpc_result` with what the handler hands on. -/
inductive ResultObject
  | rpcError (code : Int) (text : String)
  | tlError (code : Int) (text : String)
  | answer (answer : Answer)

def ResultObject.rpcObject : ResultObject → RpcObject
  | .rpcError code text => .rpcError code text
  | .tlError _ _ => .tlError
  | .answer a => .answer a

/-- The result as it was received. -/
inductive ReceivedResult
  | plain (object : ResultObject)
  | gzipPacked (packedData : List UInt8)

/-- The server's serialization and compression, and how the client takes them back. -/
structure Packing where
  serialize : ResultObject → List UInt8
  compress : List UInt8 → List UInt8
  decompressGZip : List UInt8 → List UInt8
  TLdeserialize : Query → List UInt8 → Option ResultObject

/-- The result after unpacking; the request says how to read an answer. -/
def Packing.unpack (p : Packing) (rawRequest : Query) : ReceivedResult → Option ResultObject
  | .plain object => some object
  | .gzipPacked packedData => p.TLdeserialize rawRequest (p.decompressGZip packedData)

/-- The datacenter to which an object asks the client to move. -/
def ResultObject.migrateTo : ResultObject → Nat
  | .rpcError code text => if code = 303 then migrateToDatacenterId text else defaultDatacenterId
  | _ => defaultDatacenterId

/-- The test before the loop sees a plain object only. -/
def ReceivedResult.migrateTo : ReceivedResult → Nat
  | .plain object => object.migrateTo
  | .gzipPacked _ => defaultDatacenterId

/-- The result as the manager's own handler gets it. -/
def ReceivedResult.rpcResult (p : Packing) (rawRequest : Query) : ReceivedResult → RpcResult
  | .plain object => .plain object.rpcObject
  | .gzipPacked packedData =>
      .gzipPacked ((p.unpack rawRequest (.gzipPacked packedData)).map (·.rpcObject))

theorem ReceivedResult.unpacked_rpcResult (p : Packing) (rawRequest : Query)
    (result : ReceivedResult) :
    (result.rpcResult p rawRequest).unpacked = (p.unpack rawRequest result).map (·.rpcObject) := by
  cases result <;> rfl

theorem ReceivedResult.migrateTo_rpcResult (p : Packing) (rawRequest : Query)
    (result : ReceivedResult) :
    (result.rpcResult p rawRequest).migrateTo = result.migrateTo := by
  cases result with
  | plain object => cases object <;> rfl
  | gzipPacked packedData => rfl

namespace Watched

variable (env : Env)

/-- `Request::onComplete` with an object or an error. -/
def onComplete (r : Request) (object : Option Answer) (error : Option (Int × String)) :
    Program Watched Unit := do
  call (.onComplete r.id object error)
  inside (Manager.onComplete env r object)

/-- The end of a request that is not kept. -/
def finishRequest (d : Nat) (r : Request) (initialised : Bool) : Program Watched Unit := do
  lift (Tables.removeRequestFromGuid r.requestToken)
  inside (Manager.finishRequest d r initialised)

/-- An error 401 that was handed to the request. -/
def onUnauthorizedError (d : Nat) (r : Request) (text : String) : Program Watched Unit := do
  let s ← read
  if containsText text "SESSION_PASSWORD_NEEDED" then finishRequest d r false
  else if d = s.manager.currentDatacenterId ∨ d = s.manager.movingToDatacenterId then do
    when (hasBits r.connectionType ConnectionType.generic = true ∧ s.manager.currentUserId ≠ 0) do
      inside (update fun s => { s with currentUserId := 0 })
      call .onLogout
      inside (scheduleTask (.cleanUp false))
    finishRequest d r false
  else do
    inside (modifyDatacenter d fun dc => { dc with authorized := false })
    inside saveConfig
    inside (keepRequest r.id)
    if (hasBits r.connectionType ConnectionType.download = true ∨
        hasBits r.connectionType ConnectionType.upload = true) ∧ d ≠ defaultDatacenterId - 1 then
      inside (callQueue ⟨r.connectionType, d, false⟩)
    else inside callQueueForAll

/-- An `RpcError` for a request with a callback. -/
def onRpcError (c : ConnectionId) (r : Request) (code : Int) (text : String) :
    Program Watched Unit := do
  let n ← inside reading
  let now := (env.currentTimeMonotonicMillis n).tdiv 1000
  match retryAfterError r code text now with
  | some _ => do
      inside (modifyRequest r.id fun r => (retryAfterError r code text now).getD r)
      when (isAuthKeyPermEmpty code text) (inside (restartHandshake env c false))
      inside (keepRequest r.id)
      inside callQueueForAll
  | none => do
      onComplete env r none (some (code, text))
      if code = 401 then onUnauthorizedError c.datacenter r text
      else do
        let s ← read
        when (s.manager.currentUserId = 0 ∧ code = 406 ∧ containsText text "AUTH_KEY_DUPLICATED" =
          true)
          (inside (scheduleTask (.cleanUp true)))
        finishRequest c.datacenter r false

/-- The answer to a running request. -/
def answerRequest (c : ConnectionId) (r : Request) (object : Option ResultObject) :
    Program Watched Unit :=
  match r.onCompleteRequestCallback, object with
  | .none, _ => finishRequest c.datacenter r true
  | _, some (.rpcError code text) => onRpcError env c r code text
  | _, some (.tlError code text) => do
      onComplete env r none (some (code, text))
      finishRequest c.datacenter r false
  | _, some (.answer answer) => do
      onComplete env r (some answer) none
      finishRequest c.datacenter r true
  | _, none => do
      onComplete env r none (some (-1000, "Raw request is null"))
      finishRequest c.datacenter r false

/-- `TL_rpc_result`. -/
def processRpcResult (p : Packing) (c : ConnectionId) (reqMsgId : Int) (result : ReceivedResult) :
    Program Watched Unit := do
  if h : result.migrateTo = defaultDatacenterId then do
    let s ← read
    match s.manager.runningRequests.find? fun r => r.respondsToMessageId reqMsgId with
    | some r => answerRequest env c r (p.unpack r.rawRequest result)
    | none => inside callQueueForAll
  else do
    inside (moveToDatacenter env ⟨result.migrateTo, h⟩)
    inside callQueueForAll

/-! ## The handler of the manager -/

/-- Without the tables and the calls the one program is the other. -/
def Covers {α : Type} (w : Program Watched α) (m : M α) : Prop :=
  ∀ s, (w s).map (fun last => (last.1, last.2.manager)) = m s.manager

section Covers

variable {α β : Type} {env : Env}

theorem covers_pure (a : α) : Covers (pure a) (pure a) := fun _ => rfl

theorem covers_bind {w : Program Watched α} {m : M α} {f : α → Program Watched β} {g : α → M β}
    (first : Covers w m) (rest : ∀ a, Covers (f a) (g a)) : Covers (w >>= f) (m >>= g) := by
  intro s
  have first := first s
  rw [bind_apply, bind_apply, ← first]
  cases w s with
  | none => rfl
  | some last => exact rest last.1 last.2

theorem covers_read {f : Watched → Program Watched β} {g : ConnectionsManager → M β}
    (rest : ∀ s, Covers (f s) (g s.manager)) : Covers (read >>= f) (read >>= g) :=
  fun s => rest s s

theorem covers_when {c : Prop} [Decidable c] {w : Program Watched Unit} {m : M Unit}
    (body : Covers w m) :
    Covers (when c w) (when c m) := by
  unfold Program.when
  split
  · exact body
  · exact covers_pure ()

theorem covers_ite {c : Prop} [Decidable c] {w w' : Program Watched α} {m m' : M α}
    (yes : Covers w m)
    (no : Covers w' m') : Covers (if c then w else w') (if c then m else m') := by
  split
  · exact yes
  · exact no

theorem covers_inside (m : M α) : Covers (inside m) m := by
  intro s
  change ((m s.manager).map _ |>.map _ |>.map _) = _
  cases m s.manager <;> rfl

/-- What changes the tables or the record alone does nothing to the manager. -/
theorem covers_aside {w : Program Watched Unit} {f : Program Watched β} {m : M β}
    (aside : ∀ s, ∃ t, w s = some ((), t) ∧ t.manager = s.manager) (rest : Covers f m) :
    Covers (w >>= fun _ => f) m := by
  intro s
  obtain ⟨t, done, same⟩ := aside s
  rw [bind_apply, done, ← same]
  exact rest t

theorem call_aside (c : OutsideCall) (s : Watched) :
    ∃ t, call c s = some ((), t) ∧ t.manager = s.manager :=
  ⟨_, rfl, rfl⟩

theorem removeRequestFromGuid_aside (token : Int) (s : Watched) :
    ∃ t, lift (Tables.removeRequestFromGuid token) s = some ((), t) ∧ t.manager = s.manager := by
  obtain ⟨t, run, same⟩ := Tables.removeRequestFromGuid_run token s.tables
  refine ⟨{ s with tables := t }, ?_, same⟩
  rw [lift, run]
  rfl

theorem covers_onComplete (r : Request) (object : Option Answer) (error : Option (Int × String)) :
    Covers (onComplete env r object error) (Manager.onComplete env r object) :=
  covers_aside (call_aside _) (covers_inside _)

theorem covers_finishRequest (d : Nat) (r : Request) (initialised : Bool) :
    Covers (finishRequest d r initialised) (Manager.finishRequest d r initialised) :=
  covers_aside (removeRequestFromGuid_aside _) (covers_inside _)

theorem covers_onUnauthorizedError (d : Nat) (r : Request) (text : String) :
    Covers (onUnauthorizedError d r text) (Manager.onUnauthorizedError d r text) := by
  refine covers_read fun s => ?_
  apply covers_ite (covers_finishRequest d r false)
  apply covers_ite
  · refine covers_bind (covers_when ?_) fun _ => covers_finishRequest d r false
    refine covers_bind (covers_inside _) fun _ => ?_
    exact covers_aside (call_aside _) (covers_inside _)
  · refine covers_bind (covers_inside _) fun _ => covers_bind (covers_inside _) fun _ => ?_
    refine covers_bind (covers_inside _) fun _ => ?_
    exact covers_ite (covers_inside _) (covers_inside _)

theorem covers_onRpcError (c : ConnectionId) (r : Request) (code : Int) (text : String) :
    Covers (onRpcError env c r code text) (Manager.onRpcError env c r code text) := by
  refine covers_bind (covers_inside _) fun n => ?_
  dsimp only
  cases retryAfterError r code text ((env.currentTimeMonotonicMillis n).tdiv 1000) with
  | some _ =>
      refine covers_bind (covers_inside _) fun _ =>
        covers_bind (covers_when (covers_inside _)) fun _ => ?_
      exact covers_bind (covers_inside _) fun _ => covers_inside _
  | none =>
      refine covers_bind (covers_onComplete r none _) fun _ => ?_
      apply covers_ite (covers_onUnauthorizedError c.datacenter r text)
      refine covers_read fun s => covers_bind (covers_when (covers_inside _)) fun _ => ?_
      exact covers_finishRequest c.datacenter r false

theorem covers_answerRequest (c : ConnectionId) (r : Request) (result : RpcResult)
    (object : Option ResultObject)
    (unpacked : result.unpacked = object.map (·.rpcObject)) :
    Covers (answerRequest env c r object) (Manager.answerRequest env c r result) := by
  have failed : ∀ error, Covers
      (onComplete env r none error >>= fun _ => finishRequest c.datacenter r false)
      (Manager.onComplete env r none >>= fun _ => Manager.finishRequest c.datacenter r false) :=
    fun error => covers_bind (covers_onComplete r none error) fun _ => covers_finishRequest _ _ _
  unfold answerRequest Manager.answerRequest
  rw [unpacked]
  cases r.onCompleteRequestCallback with
  | none => exact covers_finishRequest _ _ _
  | _ =>
      rcases object with _ | ⟨code, text⟩ | ⟨code, text⟩ | a
      · exact failed _
      · exact covers_onRpcError c r code text
      · exact failed _
      · exact covers_bind (covers_onComplete r (some a) none) fun _ => covers_finishRequest _ _ _

/-- The handler of the manager, for the result as the request that it answers unpacks it. -/
theorem processRpcResult_covers (p : Packing) (c : ConnectionId) (reqMsgId : Int)
    (result : ReceivedResult)
    (rawRequest : Query) (s : Watched)
    (asked : ∀ r, s.manager.runningRequests.find? (fun r => r.respondsToMessageId reqMsgId) =
      some r →
      r.rawRequest = rawRequest) :
    (processRpcResult env p c reqMsgId result s).map (fun last => (last.1, last.2.manager)) =
      onRpcResult env c reqMsgId (result.rpcResult p rawRequest) s.manager := by
  unfold processRpcResult onRpcResult
  simp only [ReceivedResult.migrateTo_rpcResult]
  split
  · rw [read_bind, read_bind]
    cases found : s.manager.runningRequests.find? fun r => r.respondsToMessageId reqMsgId with
    | none => exact covers_inside _ s
    | some r =>
        obtain rfl := asked r found
        exact covers_answerRequest c r _ _ (result.unpacked_rpcResult p r.rawRequest) s
  · exact covers_bind (covers_inside _) (fun _ => covers_inside _) s

end Covers

/-! ## Calls -/

/-- Calls are only added. -/
def Grows (s t : Watched) : Prop := s.calls <+: t.calls

instance : IsPreorder Watched Grows where
  refl s := List.prefix_refl s.calls
  trans _ _ _ first second := first.trans second

section Grows

variable {env : Env}

theorem lift_calls {α : Type} {m : Program Tables α} {s t : Watched} {a : α}
    (run : lift m s = some (a, t)) :
    t.calls = s.calls := by
  obtain ⟨last, -, same⟩ := Option.map_eq_some_iff.1 run
  cases same
  rfl

theorem grows_lift {α : Type} (m : Program Tables α) : Keeps Grows (lift m) := by
  intro s a t run
  rw [Grows, lift_calls run]

theorem grows_inside {α : Type} (m : M α) : Keeps Grows (inside m) := grows_lift _

theorem grows_finishRequest (d : Nat) (r : Request) (initialised : Bool) :
    Keeps Grows (finishRequest d r initialised) :=
  keeps_bind (grows_lift _) fun _ => grows_inside _

theorem onComplete_calls {r : Request} {object : Option Answer} {error : Option (Int × String)}
    {s t : Watched}
    {x : Unit} (run : onComplete env r object error s = some (x, t)) :
    t.calls = s.calls ++ [.onComplete r.id object error] := by
  obtain ⟨_, u, called, rest⟩ := bind_run run
  rw [lift_calls rest, update_run called]

/-- An error 303 is never a reason to keep a request. -/
theorem retryAfterError_303 (r : Request) (text : String) (now : Int) :
    retryAfterError r 303 text now = none := by
  simp [retryAfterError, isAuthKeyPermEmpty]

/-- It is handed to the request. -/
theorem onRpcError_303_calls {c : ConnectionId} {r : Request} {text : String} {s t : Watched}
    {x : Unit}
    (run : onRpcError env c r 303 text s = some (x, t)) :
    s.calls ++ [.onComplete r.id none (some (303, text))] <+: t.calls := by
  obtain ⟨n, u, clock, run⟩ := bind_run run
  dsimp only at run
  rw [retryAfterError_303] at run
  obtain ⟨_, v, completed, run⟩ := bind_run run
  rw [← lift_calls clock, ← onComplete_calls completed]
  rw [if_neg (by decide)] at run
  have rest : Keeps Grows (read >>= fun s : Watched => (do
      when (s.manager.currentUserId = 0 ∧ (303 : Int) = 406 ∧
        containsText text "AUTH_KEY_DUPLICATED" = true)
        (inside (scheduleTask (.cleanUp true)))
      finishRequest c.datacenter r false : Program Watched Unit)) :=
    keeps_bind keeps_read fun _ => keeps_bind (keeps_when fun _ => grows_inside _) fun _ =>
      grows_finishRequest _ _ _
  exact rest v x t run

end Grows

/-! ## Packed results -/

section Packed

variable {env : Env}

theorem answerRequest_rpcError {c : ConnectionId} {r : Request}
    (callback : r.onCompleteRequestCallback ≠ .none)
    (code : Int) (text : String) :
    answerRequest env c r (some (.rpcError code text)) = onRpcError env c r code text := by
  unfold answerRequest
  cases called : r.onCompleteRequestCallback with
  | none => exact absurd called callback
  | _ => rfl

theorem processRpcResult_stays {p : Packing} {c : ConnectionId} {reqMsgId : Int}
    {result : ReceivedResult}
    {r : Request} {s : Watched} (stays : result.migrateTo = defaultDatacenterId)
    (waiting : s.manager.runningRequests.find? (fun r => r.respondsToMessageId reqMsgId) = some r) :
    processRpcResult env p c reqMsgId result s =
      answerRequest env c r (p.unpack r.rawRequest result) s := by
  rw [processRpcResult, dif_pos stays, read_bind, waiting]

/-- A plain error that asks the client to move makes no call. -/
theorem processRpcResult_moves {p : Packing} {c : ConnectionId} {reqMsgId : Int}
    {result : ReceivedResult}
    {s t : Watched} {u : Unit} (moves : result.migrateTo ≠ defaultDatacenterId)
    (run : processRpcResult env p c reqMsgId result s = some (u, t)) : t.calls = s.calls := by
  rw [processRpcResult, dif_neg moves] at run
  obtain ⟨_, v, moved, queued⟩ := bind_run run
  exact (lift_calls queued).trans (lift_calls moved)

theorem ResultObject.code_of_migrateTo {x : ResultObject}
    (moves : x.migrateTo ≠ defaultDatacenterId) :
    ∃ text, x = .rpcError 303 text := by
  cases x with
  | rpcError code text =>
      by_cases same : code = 303
      · exact ⟨text, by rw [same]⟩
      · exact absurd (if_neg same) moves
  | tlError code text => exact absurd rfl moves
  | answer a => exact absurd rfl moves

end Packed

/-! ## One request, two errors -/

/-- An object serialized as the server does, in a stand-in for its compression. -/
def packingOf (x : ResultObject) (bytes : List UInt8) : Packing where
  serialize _ := bytes
  compress data := 0x1f :: 0x8b :: data
  decompressGZip data := data.drop 2
  TLdeserialize _ data := if data = bytes then some x else none

def userMigrate : ResultObject := .rpcError 303 "USER_MIGRATE_4"

/-- `rpc_error#2144ca19 error_code:303 error_message:"USER_MIGRATE_4"`. -/
def userMigratePacking : Packing :=
  packingOf userMigrate ([0x19, 0xca, 0x44, 0x21, 0x2f, 0x01, 0, 0, 14] ++
    "USER_MIGRATE_4".toUTF8.toList ++ [0])

def accessDenied : ResultObject := .rpcError 403 "DENIED"

/-- `rpc_error#2144ca19 error_code:403 error_message:"DENIED"`. -/
def accessDeniedPacking : Packing :=
  packingOf accessDenied ([0x19, 0xca, 0x44, 0x21, 0x93, 0x01, 0, 0, 6] ++ "DENIED".toUTF8.toList ++
    [0])

/-- A request of the application that was sent with the id 4. -/
def sentRequest : Request where
  id := 0
  rawRequest := .api
  onCompleteRequestCallback := .delegate
  requestToken := 1
  connectionType := ConnectionType.generic
  requestFlags := 0
  datacenterId := defaultDatacenterId
  messageId := 4

/-- It is waiting for its answer in the current datacenter. -/
def waitingForAnswer : Watched where
  tables := {
    manager := {
      runningRequests := [sentRequest]
      nextRequest := 1
      datacenters := [(2, some { authKeyPerm := true })]
      currentDatacenterId := 2 } }

theorem delegate_ne_none : sentRequest.onCompleteRequestCallback ≠ .none := by
  intro same
  cases same

end Watched

end Mtproto.Manager
