import Mtproto.Manager.Acts

/-!
The changes above the acts.  A *turn* puts a request into a list or takes it out, numbers a message,
sets the current datacenter or the one the client moves to, or hands out a token; the handlers are
runs of turns, up to the places where a callback is called.  What only some inputs lead to is marked
with its *kind*, and a turn of that kind is possible only where the kind is admitted.
-/

namespace Mtproto.Manager

open Lib Program Relation

/-! ## Turns -/

/-- Marked changes. -/
inductive Kind
  -- the answer to the import of a migration makes the datacenter current
  | arrive
  -- a waiting request changes the current datacenter where there is no other
  | switchToNothing
  -- a request stays in the list although its callback was called
  | keepCompleted
  -- a loop over the requests moves one of them from one list to the other
  | requeue
  -- a migration begins that has to wait for an answer
  | wait
  -- `lastOutgoingMessageId` is set by a message of the server
  | startOver
  -- the push connection takes the stored session
  | pushSession
deriving DecidableEq

/-- Only the fields have changed that no property is about. -/
structure SameWorld (s t : ConnectionsManager) : Prop where
  requestsQueue : t.requestsQueue = s.requestsQueue
  runningRequests : t.runningRequests = s.runningRequests
  nextRequest : t.nextRequest = s.nextRequest
  datacenters : t.datacenters = s.datacenters
  currentDatacenterId : t.currentDatacenterId = s.currentDatacenterId
  movingToDatacenterId : t.movingToDatacenterId = s.movingToDatacenterId
  connections : t.connections = s.connections
  lastConnectionToken : t.lastConnectionToken = s.lastConnectionToken
  lastOutgoingMessageId : t.lastOutgoingMessageId = s.lastOutgoingMessageId
  pushSessionId : t.pushSessionId = s.pushSessionId
  trace : t.trace = s.trace
  readings : s.readings ≤ t.readings

/-- The request is the same one, sent to the same connection. -/
structure SameRequest (r r' : Request) : Prop where
  id : r'.id = r.id
  rawRequest : r'.rawRequest = r.rawRequest
  callback : r'.onCompleteRequestCallback = r.onCompleteRequestCallback
  connectionType : r'.connectionType = r.connectionType

/-- A current datacenter that was moved to. -/
def ConnectionsManager.arrived (s : ConnectionsManager) : ConnectionsManager :=
  { s with
    movingAuthorization := false
    currentDatacenterId := s.movingToDatacenterId
    movingToDatacenterId := defaultDatacenterId }

variable (env : Env) (K : Kind → Prop)

inductive Turn : ConnectionsManager → ConnectionsManager → Prop
  | act {s t : ConnectionsManager} : Act env s t → Turn s t
  | rest {s t : ConnectionsManager} : SameWorld s t → Turn s t
  -- requests
  | enqueue {s : ConnectionsManager} (r : Request) (new : r.id = s.nextRequest)
      (unsent : r.connectionToken = 0) :
      Turn s { s with requestsQueue := s.requestsQueue ++ [r], nextRequest := s.nextRequest + 1 }
  | request {s : ConnectionsManager} (p : Nat) (f : Request → Request) (same : ∀ r,
      SameRequest r (f r)) :
      Turn s (s.modifyRequest p f)
  | toQueue {s : ConnectionsManager} (p : Nat) (r : Request) (allowed : K .requeue)
      (running : s.runningRequests.find? (fun r => r.id == p) = some r) :
      Turn s { s with
        requestsQueue := s.requestsQueue ++ [r]
        runningRequests := s.runningRequests.eraseP fun r => r.id == p }
  | toRunning {s : ConnectionsManager} (p : Nat) (r : Request) (allowed : K .requeue)
      (queued : s.requestsQueue.find? (fun r => r.id == p) = some r) :
      Turn s { s with
        runningRequests := s.runningRequests ++ [r]
        requestsQueue := s.requestsQueue.eraseP fun r => r.id == p }
  | cancelQueued {s : ConnectionsManager} (p : Nat) (queued : ∃ r ∈ s.requestsQueue, r.id = p) :
      Turn s
        { s.record (.cancelled p) with
          requestsQueue := s.requestsQueue.eraseP fun r => r.id == p }
  | cancelRunning {s : ConnectionsManager} (p : Nat) (running : ∃ r ∈ s.runningRequests, r.id = p) :
      Turn s
        { s.record (.cancelled p) with
          runningRequests := s.runningRequests.eraseP fun r => r.id == p }
  -- messages
  | number {s : ConnectionsManager} (c : ConnectionId) (x : Connection) (increment : Bool)
      (msgId : Int) (n : Nat)
      (exist : s.connections c = some x) (later : s.lastOutgoingMessageId < msgId)
        (aligned : msgId % 4 = 0)
      (read : s.readings ≤ n) :
      Turn s { s with
        readings := n
        lastOutgoingMessageId := msgId
        connections := Function.update s.connections c (some (x.numbered increment))
        trace := s.trace ++ [.assigned x.sessionId msgId (x.seqNo increment)] }
  | startOver {s : ConnectionsManager} (msgId : Int) (allowed : K .startOver) :
      Turn s { s with lastOutgoingMessageId := msgId }
  | pushSession {s : ConnectionsManager} (d : Nat) (allowed : K .pushSession) :
      Turn s (s.modifyConnection ⟨d, .push⟩ fun session =>
        { session with sessionId := s.pushSessionId })
  | token {s : ConnectionsManager} (c : ConnectionId) (x : Connection) (exist : s.connections c =
      some x)
      (connecting : x.stage = .connecting) :
      Turn s
        { s with
          connections := Function.update s.connections c
            (some { x with stage := .connected s.lastConnectionToken })
          lastConnectionToken := (s.lastConnectionToken + 1) % 2 ^ 32
          trace := s.trace ++ [.connected c s.lastConnectionToken] }
  -- datacenters
  | authorize {s : ConnectionsManager} (authorization : Bool) :
      Turn s { s with movingAuthorization := authorization }
  | settle {s : ConnectionsManager} : Turn s { s with movingToDatacenterId := defaultDatacenterId }
  | move {s : ConnectionsManager} (id : Nat) (allowed : K .wait) :
      Turn s { s with movingToDatacenterId := id }
  -- a migration that ends where it began
  | migrate {s t : ConnectionsManager} (id : Nat)
      (acts : Acts env { s with movingToDatacenterId := id } t)
      (known : (t.datacenter t.movingToDatacenterId).isSome) : Turn s t.arrived
  | arriveKnown {s : ConnectionsManager} (known : (s.datacenter s.movingToDatacenterId).isSome) :
      Turn s s.arrived
  | arrive {s : ConnectionsManager} (allowed : K .arrive) : Turn s s.arrived
  | switch {s : ConnectionsManager} (d : Nat) (known : (s.datacenter d).isSome) :
      Turn s { s with currentDatacenterId := d }
  | switchToNothing {s : ConnectionsManager} (d : Nat) (allowed : K .switchToNothing) :
      Turn s { s with currentDatacenterId := d }
  | enter {s : ConnectionsManager} (id : Nat) :
      Turn s { s with datacenters := s.datacenters.insert id (some {}) }
  | configure {s : ConnectionsManager} (d : Nat) (f : Datacenter → Datacenter) :
      Turn s (s.modifyDatacenter d f)

/-- Runs of turns. -/
abbrev Turns := ReflTransGen (Turn env K)

variable {env K}

theorem turns_lift {s t : ConnectionsManager} (acts : Acts env s t) : Turns env K s t :=
  acts.lift id fun _ _ one => .act one

theorem turns_of_acts {α : Type} {m : M α} (kept : Keeps (Acts env) m) : Keeps (Turns env K) m :=
  kept.mono fun _ _ acts => turns_lift acts

theorem turns_of_calm {α : Type} {m : M α} (kept : Keeps (Calms env) m) : Keeps (Turns env K) m :=
  turns_of_acts (acts_of_calm kept)

theorem turns_rest {f : ConnectionsManager → ConnectionsManager} (same : ∀ s, SameWorld s (f s)) :
    Keeps (Turns env K) (update f) :=
  keeps_update fun s => .single (.rest (same s))

theorem turns_request {p : Nat} {f : Request → Request} (same : ∀ r, SameRequest r (f r)) :
    Keeps (Turns env K) (modifyRequest p f) :=
  keeps_update fun _ => .single (.request p f same)

theorem turns_configure (d : Nat) (f : Datacenter → Datacenter) :
    Keeps (Turns env K) (modifyDatacenter d f) :=
  keeps_update fun _ => .single (.configure d f)

/-! ## Requests of the application -/

theorem wrapInLayer_fields (r : Request) (dc : Option Datacenter) (version : Nat) :
    (wrapInLayer r dc version).id = r.id ∧ (wrapInLayer r dc version).connectionToken =
      r.connectionToken := by
  unfold wrapInLayer
  dsimp only
  split
  · split <;> exact ⟨rfl, rfl⟩
  · exact ⟨rfl, rfl⟩

theorem turns_enqueueRequest (args : RequestArgs) : Keeps (Turns env K) (enqueueRequest args) := by
  refine keeps_bind (turns_of_calm (keeps_getDatacenterWithId _)) fun d => ?_
  refine keeps_bind (keeps_update fun s => .single ?_) fun _ => ?_
  · have fields :=
      wrapInLayer_fields (newRequest s.nextRequest args) (d.bind s.datacenter) s.currentVersion
    exact .enqueue _ fields.1 fields.2
  · exact keeps_when fun _ => turns_of_calm (keeps_callQueue _)

instance : IsPreorder ConnectionsManager SameWorld where
  refl s := by constructor <;> rfl
  trans s t u first second :=
    { requestsQueue := second.requestsQueue.trans first.requestsQueue
      runningRequests := second.runningRequests.trans first.runningRequests
      nextRequest := second.nextRequest.trans first.nextRequest
      datacenters := second.datacenters.trans first.datacenters
      currentDatacenterId := second.currentDatacenterId.trans first.currentDatacenterId
      movingToDatacenterId := second.movingToDatacenterId.trans first.movingToDatacenterId
      connections := second.connections.trans first.connections
      lastConnectionToken := second.lastConnectionToken.trans first.lastConnectionToken
      lastOutgoingMessageId := second.lastOutgoingMessageId.trans first.lastOutgoingMessageId
      pushSessionId := second.pushSessionId.trans first.pushSessionId
      trace := second.trace.trans first.trace
      readings := first.readings.trans second.readings }

theorem turns_of_same {α : Type} {m : M α} (kept : Keeps SameWorld m) : Keeps (Turns env K) m :=
  kept.mono fun _ _ same => .single (.rest same)

theorem same_scheduleTask (task : Task) : Keeps SameWorld (scheduleTask task) :=
  keeps_update fun _ => by constructor <;> rfl

theorem same_newRequestToken : Keeps SameWorld newRequestToken :=
  keeps_bind keeps_read fun _ => keeps_bind (keeps_update fun _ => by constructor <;> rfl) fun _ =>
    keeps_pure _

theorem same_sendRequest (args : RequestArgs) : Keeps SameWorld (sendRequest args) := by
  refine keeps_bind keeps_read fun s => keeps_when fun _ => keeps_bind ?_ fun token =>
    same_scheduleTask _
  exact keeps_ite (fun _ => same_newRequestToken) fun _ => keeps_pure _

theorem same_sendNewRequest (object : Query) (callback : Callback) (flags d type : Nat) :
    Keeps SameWorld (sendNewRequest object callback flags d type) :=
  keeps_bind same_newRequestToken fun _ => same_sendRequest _

/-- A request that `find` finds is in the list. -/
theorem exists_of_find {requests : List Request} {matching : Request → Bool} {r : Request}
    (found : requests.find? matching = some r) : ∃ x ∈ requests, x.id = r.id :=
  ⟨r, List.mem_of_find?_eq_some found, rfl⟩

theorem turns_cancelRequestInternal (token messageId : Int) (notifyServer : Bool) :
    Keeps (Turns env K) (cancelRequestInternal token messageId notifyServer) := by
  intro s u t run
  cases queued : s.requestsQueue.find? fun r : Request =>
      (token != 0 && r.requestToken == token) || (messageId != 0 && r.respondsToMessageId messageId)
        with
  | some r =>
      simp only [cancelRequestInternal, read_bind, queued] at run
      rw [record, update_bind] at run
      rw [update_run run]
      exact .single (.cancelQueued r.id (exists_of_find queued))
  | none =>
      cases running : s.runningRequests.find? fun r : Request =>
          (token != 0 && r.requestToken == token) ||
            (messageId != 0 && r.respondsToMessageId messageId) with
      | some r =>
          simp only [cancelRequestInternal, read_bind, queued, running] at run
          obtain ⟨_, v, dropped, run⟩ := bind_run run
          have sent : SameWorld s v :=
            keeps_when (fun _ => same_sendNewRequest _ _ _ _ _) _ _ _ dropped
          rw [record, update_bind] at run
          rw [update_run run]
          refine .tail (.single (.rest sent)) (.cancelRunning r.id ?_)
          rw [sent.runningRequests]
          exact exists_of_find running
      | none =>
          simp only [cancelRequestInternal, read_bind, queued, running] at run
          rw [(pure_run run).2]

/-! ## Places -/

/-- The current datacenter and the migration are as they were, and no datacenter got lost. -/
structure SamePlaces (s t : ConnectionsManager) : Prop where
  current : t.currentDatacenterId = s.currentDatacenterId
  moving : t.movingToDatacenterId = s.movingToDatacenterId
  authorization : t.movingAuthorization = s.movingAuthorization
  known : ∀ d, (s.datacenter d).isSome → (t.datacenter d).isSome

instance : IsPreorder ConnectionsManager SamePlaces where
  refl _ := ⟨rfl, rfl, rfl, fun _ known => known⟩
  trans _ _ _ first second :=
    { current := second.current.trans first.current
      moving := second.moving.trans first.moving
      authorization := second.authorization.trans first.authorization
      known := fun d known => second.known d (first.known d known) }

theorem datacenter_insert (s : ConnectionsManager) (id d : Nat) (dc : Option Datacenter) :
    ({ s with datacenters := s.datacenters.insert id dc } : ConnectionsManager).datacenter d =
      if d = id then dc else s.datacenter d := by
  unfold ConnectionsManager.datacenter
  rw [OrderedMap.find_insert]
  split <;> rfl

theorem datacenter_modifyDatacenter (s : ConnectionsManager) (d d' : Nat)
    (f : Datacenter → Datacenter) :
    (s.modifyDatacenter d f).datacenter d' =
      if d' = d then (s.datacenter d).map f else s.datacenter d' := by
  unfold ConnectionsManager.modifyDatacenter
  cases here : s.datacenter d with
  | none =>
      change s.datacenter d' = if d' = d then none else s.datacenter d'
      split
      · next same => rw [same, here]
      · rfl
  | some dc => exact datacenter_insert s d d' (some (f dc))

theorem samePlaces_modifyDatacenter (s : ConnectionsManager) (d : Nat)
    (f : Datacenter → Datacenter) :
    SamePlaces s (s.modifyDatacenter d f) := by
  refine ⟨?_, ?_, ?_, fun d' known => ?_⟩
  · unfold ConnectionsManager.modifyDatacenter
    split <;> rfl
  · unfold ConnectionsManager.modifyDatacenter
    split <;> rfl
  · unfold ConnectionsManager.modifyDatacenter
    split <;> rfl
  · rw [datacenter_modifyDatacenter]
    split
    · next same =>
        rw [same] at known
        rwa [Option.isSome_map]
    · exact known

theorem Calm.samePlaces {s t : ConnectionsManager} (calm : Calm env s t) : SamePlaces s t := by
  have undisturbed := calm.undisturbed
  refine ⟨undisturbed.currentDatacenterId, undisturbed.movingToDatacenterId,
    undisturbed.movingAuthorization, ?_⟩
  intro d known
  cases calm with
  | other same => rwa [ConnectionsManager.datacenter, same.datacenters]
  | nullEntry unknown =>
      rw [datacenter_insert]
      split
      · next same =>
          -- the entry is new
          rw [same, ConnectionsManager.datacenter, unknown] at known
          cases known
      · exact known
  | batch b d' messages plain => cases b <;> exact known
  | _ => exact known

theorem Act.samePlaces {s t : ConnectionsManager} (act : Act env s t) : SamePlaces s t := by
  cases act with
  | edit p edit =>
      cases edit with
      | calm calm => exact calm.samePlaces
      | request f settled => exact ⟨rfl, rfl, rfl, fun _ known => known⟩
  | datacenter d f same => exact samePlaces_modifyDatacenter s d f
  | _ => exact ⟨rfl, rfl, rfl, fun _ known => known⟩

theorem samePlaces_of_acts {s t : ConnectionsManager} (acts : Acts env s t) : SamePlaces s t := by
  induction acts with
  | refl => exact refl s
  | tail _ act ih => exact IsTrans.trans _ _ _ ih act.samePlaces

/-! ## Migration -/

/-- The end of a migration, after the datacenter was made current. -/
theorem turns_afterArrival : Keeps (Turns env K) (do
    saveConfig
    scheduleTask (.processRequestQueue 0 0)) :=
  keeps_bind (turns_of_calm keeps_saveConfig) fun _ => turns_of_same (same_scheduleTask _)

theorem turns_authorizedOnMovingDatacenter (allowed : K .arrive) :
    Keeps (Turns env K) authorizedOnMovingDatacenter :=
  keeps_bind (keeps_update fun _ => .single (.arrive allowed)) fun _ => turns_afterArrival

/-- With a known datacenter the migration may end anywhere. -/
theorem authorizedOnMovingDatacenter_turns {s t : ConnectionsManager} {u : Unit}
    (known : (s.datacenter s.movingToDatacenterId).isSome)
    (run : authorizedOnMovingDatacenter s = some (u, t)) : Turns env K s t := by
  rw [authorizedOnMovingDatacenter, update_bind] at run
  exact .head (.arriveKnown known) (turns_afterArrival _ _ _ run)

/-- What the lookup of a datacenter of its own id finds is there. -/
theorem getDatacenterWithId_known {s t : ConnectionsManager} {id d : Nat}
    (own : id ≠ defaultDatacenterId)
    (run : getDatacenterWithId id s = some (some d, t)) : d = id ∧ (t.datacenter id).isSome := by
  rw [getDatacenterWithId, read_bind, if_neg own] at run
  obtain ⟨found, same⟩ := pure_run run
  rw [same]
  split at found
  · next known => exact ⟨Option.some.inj found, known⟩
  · cases found

/-- Authorizing on the datacenter that the client moves to ends in one of three ways: it is not
known, its authorization is imported, or it is current. -/
theorem authorizeOnMovingDatacenter_run {s t : ConnectionsManager} {u : Unit}
    (run : authorizeOnMovingDatacenter env s = some (u, t)) :
    (∃ v, Acts env s v ∧ getDatacenterWithId s.movingToDatacenterId s = some (none, v) ∧
        updateDcSettings env 0 false v = some (u, t)) ∨
      ∃ d v, Acts env s v ∧ (∃ w, getDatacenterWithId s.movingToDatacenterId s = some (some d, w) ∧
        Acts env w v) ∧
        ((s.movingAuthorization = true ∧
            (update (fun s : ConnectionsManager => { s with movingAuthorization := false }) >>=
              fun _ =>
                sendNewRequest .importAuthorization .moveImport RequestFlag.withoutLogin d
                  ConnectionType.generic) v =
                some (u, t)) ∨
          (s.movingAuthorization = false ∧ authorizedOnMovingDatacenter v = some (u, t))) := by
  rw [authorizeOnMovingDatacenter, read_bind] at run
  obtain ⟨moving, v, looked, run⟩ := bind_run run
  have first : Acts env s v := (acts_of_calm (keeps_getDatacenterWithId _)) _ _ _ looked
  cases moving with
  | none => exact .inl ⟨v, first, looked, run⟩
  | some d =>
      obtain ⟨_, w, recreated, run⟩ := bind_run run
      obtain ⟨_, x, cleared, run⟩ := bind_run run
      obtain ⟨dc, -, run⟩ := datacenter_bind run
      obtain ⟨_, y, shaken, run⟩ := bind_run run
      have second : Acts env v w := acts_recreateSessions d .all _ _ _ recreated
      have third : Acts env w x := acts_clearRequestsForDatacenter (some d) .all _ _ _ cleared
      have fourth : Acts env x y :=
        keeps_when (fun _ => acts_beginHandshake d .all true) _ _ _ shaken
      have later : Acts env v y := (second.trans third).trans fourth
      have same : y.movingAuthorization = s.movingAuthorization :=
        (samePlaces_of_acts (first.trans later)).authorization
      refine .inr ⟨d, y, first.trans later, ⟨v, looked, later⟩, ?_⟩
      rw [read_bind, same] at run
      cases authorization : s.movingAuthorization with
      | true =>
          rw [authorization, if_pos rfl] at run
          exact .inl ⟨rfl, run⟩
      | false =>
          rw [authorization, if_neg (by decide)] at run
          exact .inr ⟨rfl, run⟩

/-- The datacenter that the client moves to was found, so it is known when the client arrives
there. -/
theorem known_of_found {s v w : ConnectionsManager} {d : Nat}
    (own : s.movingToDatacenterId ≠ defaultDatacenterId)
    (looked : getDatacenterWithId s.movingToDatacenterId s = some (some d, w))
    (first : Acts env s v)
    (later : Acts env w v) : (v.datacenter v.movingToDatacenterId).isSome := by
  rw [(samePlaces_of_acts first).moving]
  exact (samePlaces_of_acts later).known _ (getDatacenterWithId_known own looked).2

theorem turns_authorizeOnMovingDatacenter {s t : ConnectionsManager} {u : Unit}
    (own : s.movingToDatacenterId ≠ defaultDatacenterId ∨ s.movingAuthorization = true)
    (run : authorizeOnMovingDatacenter env s = some (u, t)) : Turns env K s t := by
  rcases authorizeOnMovingDatacenter_run run with ⟨v, first, -, run⟩ |
    ⟨d, v, first, ⟨w, looked, later⟩, ⟨-, run⟩ | ⟨unauthorized, run⟩⟩
  · exact .trans (turns_lift first) (turns_of_calm (keeps_updateDcSettings _ _) _ _ _ run)
  · rw [update_bind] at run
    refine .trans (turns_lift first) (.head (.authorize false) ?_)
    exact turns_of_same (same_sendNewRequest _ _ _ _ _) _ _ _ run
  · have own : s.movingToDatacenterId ≠ defaultDatacenterId :=
      own.resolve_right (by rw [unauthorized]; decide)
    refine .trans (turns_lift first) (authorizedOnMovingDatacenter_turns ?_ run)
    exact known_of_found own looked first later

/-- A migration begins that does not end at once. -/
def StartsWaiting (target : MoveTarget) (s : ConnectionsManager) : Prop :=
  s.movingToDatacenterId ≠ target.id ∧
    (s.currentUserId ≠ 0 ∨ s.movingAuthorization = true ∨ s.datacenter target.id = none)

theorem moveToDatacenter_turns {target : MoveTarget} {s t : ConnectionsManager} {u : Unit}
    (waits : StartsWaiting target s → K .wait) (run : moveToDatacenter env target s = some (u, t)) :
    Turns env K s t := by
  rw [moveToDatacenter, read_bind] at run
  rcases when_run run with ⟨moves, run⟩ | ⟨-, rfl⟩
  · rw [update_bind] at run
    obtain ⟨current, v, looked, run⟩ := bind_run run
    obtain ⟨_, w, cleared, run⟩ := bind_run run
    have first := (acts_of_calm (keeps_getDatacenterWithId _) : Keeps (Acts env) _) _ _ _ looked
    have second : Acts env v w := acts_clearRequestsForDatacenter _ _ _ _ _ cleared
    have later : Acts env { s with movingToDatacenterId := target.id } w := first.trans second
    have places := samePlaces_of_acts later
    have own : w.movingToDatacenterId ≠ defaultDatacenterId := by
      rw [places.moving]
      exact target.ne_default
    by_cases waiting : s.currentUserId ≠ 0 ∨ s.movingAuthorization = true ∨
      s.datacenter target.id = none
    · refine .head (.move target.id (waits ⟨moves, waiting⟩)) (.trans (turns_lift later) ?_)
      split at run
      · exact turns_of_same (same_sendNewRequest _ _ _ _ _) _ _ _ run
      · exact turns_authorizeOnMovingDatacenter (.inl own) run
    · obtain ⟨nobody, unauthorized, known⟩ := not_or.1 waiting |>.imp_right not_or.1
      rw [if_neg nobody] at run
      have here : (w.datacenter w.movingToDatacenterId).isSome := by
        rw [places.moving]
        exact places.known _ (Option.isSome_iff_ne_none.2 known)
      rcases authorizeOnMovingDatacenter_run run with ⟨x, -, looked, -⟩ |
        ⟨d, x, third, ⟨y, looked, fourth⟩, ⟨authorized, -⟩ | ⟨-, run⟩⟩
      · rw [getDatacenterWithId, read_bind, if_neg own, if_pos here] at looked
        cases (pure_run looked).1
      · rw [places.authorization] at authorized
        exact absurd authorized unauthorized
      · have arrived := known_of_found own looked third fourth
        rw [authorizedOnMovingDatacenter, update_bind] at run
        exact .head (.migrate target.id (later.trans third) arrived) (turns_afterArrival _ _ _ run)
  · rfl

/-! ## A client that stays -/

/-- A client that does not move begins to move only where it waits. -/
theorem Turn.home {s t : ConnectionsManager} (turn : Turn env K s t)
    (home : s.movingToDatacenterId = defaultDatacenterId ∨ K .wait) :
    t.movingToDatacenterId = defaultDatacenterId ∨ K .wait := by
  cases turn with
  | act act => rwa [act.samePlaces.moving]
  | rest same => rwa [same.movingToDatacenterId]
  | settle => exact .inl rfl
  | move id allowed => exact .inr allowed
  | migrate id acts known => exact .inl rfl
  | arriveKnown known => exact .inl rfl
  | arrive allowed => exact .inl rfl
  | configure d f => rwa [(samePlaces_modifyDatacenter s d f).moving]
  | _ => exact home

theorem Turns.home {s t : ConnectionsManager} (turns : Turns env K s t)
    (home : s.movingToDatacenterId = defaultDatacenterId ∨ K .wait) :
    t.movingToDatacenterId = defaultDatacenterId ∨ K .wait := by
  induction turns with
  | refl => exact home
  | tail _ turn ih => exact turn.home ih

variable (env K) in
/-- Turns of a client that does not move, or that may wait. -/
def FromHome (s t : ConnectionsManager) : Prop :=
  s.movingToDatacenterId = defaultDatacenterId ∨ K .wait → Turns env K s t

instance : IsPreorder ConnectionsManager (FromHome env K) where
  refl _ _ := .refl
  trans _ _ _ first second home := (first home).trans (second (Turns.home (first home) home))

theorem fromHome_of_turns {α : Type} {m : M α} (kept : Keeps (Turns env K) m) :
    Keeps (FromHome env K) m :=
  kept.mono fun _ _ turns _ => turns

/-! ## Callbacks -/

/-- The client moves on from a datacenter only if it was moving to one. -/
theorem applyConfigEntry_turns {entry : Nat × Bool × Bool} {s t : ConnectionsManager} {u : Unit}
    (home : s.movingToDatacenterId = defaultDatacenterId ∨ K .wait)
    (run : applyConfigEntry env entry s = some (u, t)) : Turns env K s t := by
  obtain ⟨d, v, entered, run⟩ := bind_run run
  obtain ⟨_, w, configured, run⟩ := bind_run run
  have places : Turns env K s v ∧ v.movingToDatacenterId = s.movingToDatacenterId := by
    obtain ⟨found, x, looked, entered⟩ := bind_run entered
    have first : Calms env s x := keeps_getDatacenterWithId _ _ _ _ looked
    have same := first.undisturbed.movingToDatacenterId
    cases found with
    | some d' =>
        rw [(pure_run entered).2]
        exact ⟨turns_lift first.acts, same⟩
    | none =>
        change (update _ >>= fun _ => pure entry.1) x = some (d, v) at entered
        rw [update_bind] at entered
        rw [(pure_run entered).2]
        exact ⟨.tail (turns_lift first.acts) (.enter entry.1), same⟩
  have moving : w.movingToDatacenterId = s.movingToDatacenterId := by
    rw [update_run configured, (samePlaces_modifyDatacenter _ _ _).moving, places.2]
  refine .trans (places.1.trans (turns_configure d _ _ _ _ configured)) ?_
  rw [read_bind] at run
  rcases when_run run with ⟨here, run⟩ | ⟨-, rfl⟩
  · rw [update_bind] at run
    refine .head .settle ?_
    split at run
    · rw [(pure_run run).2]
    · next other =>
        refine moveToDatacenter_turns (fun _ => home.resolve_left fun home => other ?_) run
        rw [here, moving, home]
  · rfl

theorem fromHome_applyConfig (answer : Option Answer) :
    Keeps (FromHome env K) (applyConfig env answer) := by
  unfold applyConfig
  split
  · refine keeps_when fun _ => keeps_bind (keeps_each fun entry _ s u t run home => ?_) fun _ => ?_
    · exact applyConfigEntry_turns home run
    · refine fromHome_of_turns (keeps_bind (turns_of_calm keeps_saveConfig) fun _ => ?_)
      exact turns_of_same (same_scheduleTask _)
  · exact keeps_fault
  · exact keeps_pure _

theorem fromHome_onConfig (workaround : Bool) (answer : Option Answer) :
    Keeps (FromHome env K) (onConfig env workaround answer) := by
  refine keeps_bind keeps_read fun s => keeps_when fun _ =>
    keeps_bind (fromHome_applyConfig answer) fun _ => ?_
  exact fromHome_of_turns (turns_rest fun s => by split <;> constructor <;> rfl)

theorem turns_onCdnConfig (answer : Option Answer) :
    Keeps (Turns env K) (onCdnConfig env answer) := by
  unfold onCdnConfig
  split
  · exact turns_rest fun _ => by constructor <;> rfl
  · refine keeps_bind keeps_read fun s => ?_
    refine keeps_bind (keeps_each fun d _ => turns_of_acts (acts_beginHandshake _ _ _)) fun _ => ?_
    exact turns_rest fun _ => by constructor <;> rfl
  · exact keeps_fault

/-- Only the answer to an import makes a datacenter current that need not be known, and only the
error of an export begins to move again. -/
theorem runCallback_turns {callback : Callback} {answer : Option Answer} {s t : ConnectionsManager}
    {u : Unit}
    (home : s.movingToDatacenterId = defaultDatacenterId ∨ K .wait)
    (arrives : callback = .moveImport → answer.isSome = true → s.datacenter s.movingToDatacenterId =
      none →
      K .arrive)
    (exports : ∀ target, callback = .moveExport target → answer = none → StartsWaiting target s →
      K .wait)
    (run : runCallback env callback answer s = some (u, t)) : Turns env K s t := by
  cases callback with
  | none => rw [(pure_run run).2]
  | delegate => rw [(pure_run run).2]
  | updateDcSettings workaround => exact fromHome_onConfig workaround answer _ _ _ run home
  | requestSalts d =>
      refine keeps_bind (R := Turns env K) (turns_rest fun _ => by constructor <;> rfl) (fun _ =>
        ?_) _ _ _ run
      split
      · exact keeps_pure _
      · exact turns_of_calm keeps_saveConfig
      · exact keeps_fault
  | moveExport target =>
      cases answer with
      | none => exact moveToDatacenter_turns (exports target rfl rfl) run
      | some answer =>
          cases answer with
          | exportedAuthorization =>
              change (update _ >>= fun _ => authorizeOnMovingDatacenter env) s = some (u, t) at run
              rw [update_bind] at run
              exact .head (.authorize true) (turns_authorizeOnMovingDatacenter (.inr rfl) run)
          | _ => cases run
  | moveImport =>
      cases answer with
      | none => rw [(pure_run run).2]
      | some answer =>
          cases known : s.datacenter s.movingToDatacenterId with
          | none => exact turns_authorizedOnMovingDatacenter (arrives rfl rfl known) _ _ _ run
          | some dc => exact authorizedOnMovingDatacenter_turns (known ▸ rfl) run
  | exportAuthorization d =>
      cases answer with
      | none => exact turns_configure d _ _ _ _ run
      | some answer =>
          cases answer with
          | exportedAuthorization => exact turns_of_same (same_sendNewRequest _ _ _ _ _) _ _ _ run
          | _ => cases run
  | importAuthorization d =>
      refine keeps_bind (R := Turns env K) (keeps_when fun _ => ?_) (fun _ =>
        turns_configure d _) _ _ _ run
      refine keeps_bind (turns_configure d _) fun _ => ?_
      exact keeps_bind (turns_of_calm keeps_saveConfig) fun _ => turns_of_same (same_scheduleTask _)
  | cdnConfig => exact turns_onCdnConfig answer _ _ _ run

/-- A failed request moves the client only where it was to export an authorization for another
datacenter. -/
theorem runCallback_places {callback : Callback} {s t : ConnectionsManager} {u : Unit}
    (stays : ∀ target, callback = .moveExport target → s.movingToDatacenterId = target.id)
    (run : runCallback env callback none s = some (u, t)) : SamePlaces s t := by
  cases callback with
  | none | delegate | moveImport =>
      rw [(pure_run run).2]
      exact refl s
  | updateDcSettings workaround =>
      refine keeps_bind (R := SamePlaces) keeps_read (fun s => keeps_when fun _ => ?_) _ _ _ run
      refine keeps_bind (keeps_pure _) fun _ => keeps_update fun s => ?_
      split <;> exact ⟨rfl, rfl, rfl, fun _ known => known⟩
  | requestSalts d =>
      refine keeps_bind (R := SamePlaces) (keeps_update fun s => ?_) (fun _ =>
        keeps_pure _) _ _ _ run
      exact ⟨rfl, rfl, rfl, fun _ known => known⟩
  | moveExport target =>
      change moveToDatacenter env target s = some (u, t) at run
      rw [moveToDatacenter, read_bind] at run
      rcases when_run run with ⟨moves, -⟩ | ⟨-, rfl⟩
      · exact absurd (stays target rfl) moves
      · exact refl t
  | exportAuthorization d =>
      exact keeps_update (R := SamePlaces) (fun s => samePlaces_modifyDatacenter s d _) _ _ _ run
  | importAuthorization d =>
      refine keeps_bind (R := SamePlaces) (keeps_when fun answered => ?_) (fun _ => ?_) _ _ _ run
      · cases answered
      · exact keeps_update fun s => samePlaces_modifyDatacenter s d _
  | cdnConfig =>
      have kept : Keeps SamePlaces (onCdnConfig env none) :=
        keeps_update fun _ => ⟨rfl, rfl, rfl, fun _ known => known⟩
      exact kept _ _ _ run

/-! ## Numbers of messages -/

/-- A message has taken an id and a number, in one order or the other, and is noted. -/
theorem turn_number {s v w : ConnectionsManager} {c : ConnectionId} {x : Connection}
    {increment : Bool} {msgId : Int}
    {n : Nat} {u : Unit} (exist : s.connections c = some x)
    (later : s.lastOutgoingMessageId < msgId)
    (aligned : msgId % 4 = 0) (read : s.readings ≤ n)
    (numbered : v = { s with
      readings := n
      lastOutgoingMessageId := msgId
      connections := Function.update s.connections c (some (x.numbered increment)) })
    (noted : assigned c msgId (x.seqNo increment) v = some (u, w)) : Turn env K s w := by
  obtain ⟨y, here, rfl⟩ := assigned_run noted
  rw [numbered] at here
  change Function.update s.connections c (some (x.numbered increment)) c = some y at here
  rw [Function.update_self] at here
  obtain rfl := Option.some.inj here
  have session : (x.numbered increment).sessionId = x.sessionId := by cases increment <;> rfl
  rw [numbered, session]
  exact .number c x increment msgId n exist later aligned read

theorem turns_renewMessageId (p : Nat) (c : ConnectionId) :
    Keeps (Turns env K) (renewMessageId env p c) := by
  intro s u t run
  obtain ⟨r, -, run⟩ := runningRequest_bind run
  rcases when_run run with ⟨-, run⟩ | ⟨-, rfl⟩
  · obtain ⟨seqNo, v, numbered, run⟩ := bind_run run
    obtain ⟨x, exist, rfl, rfl⟩ := generateMessageSeqNo_run numbered
    obtain ⟨msgId, w, generated, run⟩ := bind_run run
    obtain ⟨later, aligned, rfl⟩ := generateMessageId_run generated
    obtain ⟨_, y, noted, run⟩ := bind_run run
    refine .head (turn_number exist later aligned (Nat.le_succ s.readings) rfl noted) ?_
    rw [update_run run]
    exact .single (.request p _ fun _ => ⟨rfl, rfl, rfl, rfl⟩)
  · rfl

/-! ## The queue -/

theorem turns_moveToQueue (loop : K .requeue) (p : Nat) : Keeps (Turns env K) (moveToQueue p) := by
  intro s u t run
  obtain ⟨r, running, run⟩ := runningRequest_bind run
  rw [update_run run]
  exact .single (.toQueue p r loop running)

theorem turns_moveToRunning (loop : K .requeue) (p : Nat) :
    Keeps (Turns env K) (moveToRunning p) := by
  intro s u t run
  obtain ⟨r, queued, run⟩ := queuedRequest_bind run
  rw [update_bind] at run
  rw [(pure_run run).2]
  exact .single (.toRunning p r loop queued)

theorem turns_retryRequest (call : QueueCall) (currentTime : Int) (p : Nat) (c : ConnectionId) :
    Keeps (Turns env K) (retryRequest env call currentTime p c) := by
  refine keeps_bind (turns_renewMessageId p c) fun _ => keeps_bind keeps_read fun s => ?_
  refine keeps_bind (turns_request fun _ => ⟨rfl, rfl, rfl, rfl⟩) fun _ => ?_
  exact keeps_bind (keeps_runningRequest p) fun r => keeps_when fun _ =>
    turns_of_calm (keeps_dispatch r c)

theorem turns_startRequest (loop : K .requeue) (currentTime : Int) (p : Nat) (c : ConnectionId) :
    Keeps (Turns env K) (startRequest env currentTime p c) := by
  intro s u t run
  obtain ⟨r, -, run⟩ := queuedRequest_bind run
  obtain ⟨msgId, v, generated, run⟩ := bind_run run
  obtain ⟨later, aligned, rfl⟩ := generateMessageId_run generated
  rw [reading_bind] at run
  obtain ⟨seqNo, w, numbered, run⟩ := bind_run run
  obtain ⟨x, exist, rfl, rfl⟩ := generateMessageSeqNo_run numbered
  obtain ⟨_, y, noted, run⟩ := bind_run run
  refine .head (turn_number exist later aligned (Nat.le_add_right s.readings 2) rfl noted) ?_
  rw [read_bind] at run
  obtain ⟨_, z, stamped, run⟩ := bind_run run
  obtain ⟨r', a, moved, run⟩ := bind_run run
  have sent : Turns env K a t := turns_of_calm (keeps_dispatch r' c) _ _ _ run
  refine .trans ?_ (.trans (turns_moveToRunning loop p _ _ _ moved) sent)
  rw [update_run stamped]
  exact .single (.request p _ fun _ => ⟨rfl, rfl, rfl, rfl⟩)

/-- The other datacenters are known ones. -/
theorem find_of_mem_differentDatacenters {own id : Nat}
    {datacenters : OrderedMap Nat (Option Datacenter)}
    {ids : List Nat} (others : differentDatacenters own datacenters = some ids) (mem : id ∈ ids) :
    id ≠ own ∧ ∃ dc, datacenters.find id = some (some dc) := by
  induction datacenters generalizing ids with
  | nil =>
      obtain rfl : [] = ids := Option.some.inj others
      cases mem
  | cons entry rest ih =>
      obtain ⟨key, dc⟩ := entry
      by_cases same : key = own
      · rw [differentDatacenters, if_pos same] at others
        obtain ⟨ne, dc', found⟩ := ih others mem
        exact ⟨ne, dc', by rw [OrderedMap.find, if_neg (same.symm ▸ ne.symm), found]⟩
      · rw [differentDatacenters, if_neg same] at others
        obtain ⟨dc, rfl, others⟩ := Option.bind_eq_some_iff.1 others
        obtain ⟨behind, below, rfl⟩ := Option.map_eq_some_iff.1 others
        by_cases here : key = id
        · exact ⟨here ▸ same, dc, by rw [OrderedMap.find, if_pos here]⟩
        · have mem : id ∈ behind := by
            split at mem
            · exact mem
            · exact (List.mem_cons.1 mem).resolve_left fun eq => here eq.symm
          obtain ⟨ne, dc', found⟩ := ih below mem
          exact ⟨ne, dc', by rw [OrderedMap.find, if_neg here, found]⟩

theorem pickDatacenter_mem {allDc : List Nat} (some_dc : allDc ≠ []) (index : Nat) :
    pickDatacenter allDc index ∈ allDc := by
  have inside : index % allDc.length < allDc.length := Nat.mod_lt _ (List.length_pos_iff.2 some_dc)
  rw [pickDatacenter, List.getD_eq_getElem?_getD, List.getElem?_eq_getElem inside]
  exact List.getElem_mem inside

/-- An edited request is found where it was. -/
theorem find_modifyRequest {requests : List Request} {p : Nat} {f : Request → Request}
    (same : ∀ r, (f r).id = r.id) :
    (requests.map fun r => if r.id = p then f r else r).find? (fun r => r.id == p) =
      (requests.find? fun r => r.id == p).map f := by
  have id : ∀ r : Request, (if r.id = p then f r else r).id = r.id := by
    intro r
    split
    · exact same r
    · rfl
  rw [List.find?_map]
  have matching : ((fun r : Request => r.id == p) ∘ fun r => if r.id = p then f r else r) = fun r =>
      r.id == p :=
    funext fun r => by rw [Function.comp_apply, id]
  rw [matching]
  cases found : requests.find? fun r => r.id == p with
  | none => rfl
  | some r =>
      have own : r.id = p := by simpa using List.find?_some found
      rw [Option.map_some, Option.map_some, if_pos own]

theorem find_queued_modifyRequest (s : ConnectionsManager) (p : Nat) {f : Request → Request}
    (same : ∀ r, (f r).id = r.id) :
    (s.modifyRequest p f).requestsQueue.find? (fun r => r.id == p) =
      (s.requestsQueue.find? fun r => r.id == p).map f :=
  find_modifyRequest same

/-- The datacenter that a waiting request switches to is a known one, unless there is none. -/
theorem switchDatacenter_turns {currentTime : Int} {p datacenterId chosen : Nat}
    {s t : ConnectionsManager}
    (alone : ∀ r, s.requestsQueue.find? (fun r => r.id == p) = some r → r.rawRequest ≠ .getConfig →
      differentDatacenters datacenterId s.datacenters = some [] → K .switchToNothing)
    (run : switchDatacenter env currentTime p datacenterId s = some (chosen, t)) :
    Turns env K s t := by
  rw [switchDatacenter, read_bind] at run
  obtain ⟨allDc, v, required, run⟩ := bind_run run
  obtain ⟨others, same⟩ := require_run required
  rw [same, reading_bind] at run
  refine .head (.rest (t := { s with readings := s.readings + 1 }) ?_) ?_
  · constructor <;> first | rfl | exact Nat.le_succ _
  obtain ⟨r, queued, run⟩ := queuedRequest_bind run
  obtain ⟨_, w, switched, run⟩ := bind_run run
  rw [(pure_run run).2]
  split at switched
  · rw [update_bind] at switched
    rw [update_run switched]
    refine .head
      (.rest (t := { s with readings := s.readings + 1, updatingDcStartTime := currentTime }) ?_) ?_
    · constructor <;> rfl
    · exact .single (.request p _ fun _ => ⟨rfl, rfl, rfl, rfl⟩)
  · next other =>
      rw [update_run switched]
      by_cases none : allDc = []
      · rw [none] at others
        exact .single (.switchToNothing _ (alone r queued other others))
      · obtain ⟨-, dc, found⟩ := find_of_mem_differentDatacenters others
          (pickDatacenter_mem none (env.randomByte s.readings))
        refine .single (.switch _ ?_)
        change (s.datacenters.find _).join.isSome = true
        rw [found]
        rfl

/-- Whether a waiting request has waited long enough to change the current datacenter. -/
def Request.switches (r : Request) (currentTime : Int) : Bool :=
  r.hasFlag RequestFlag.tryDifferentDc && decide (r.rawRequest ≠ .getConfig) &&
    decide (r.startTime ≠ 0) &&
    decide (30 ≤ (currentTime - r.startTime).natAbs)

theorem chooseDatacenter_turns {currentTime : Int} {p datacenterId chosen : Nat}
    {s t : ConnectionsManager}
    (alone : ∀ r, s.requestsQueue.find? (fun r => r.id == p) = some r →
      r.switches currentTime = true →
      differentDatacenters datacenterId s.datacenters = some [] → K .switchToNothing)
    (run : chooseDatacenter env currentTime p datacenterId s = some (chosen, t)) :
    Turns env K s t := by
  obtain ⟨r, queued, run⟩ := queuedRequest_bind run
  rw [read_bind] at run
  split at run
  · next different =>
      obtain ⟨_, v, reset, run⟩ := bind_run run
      -- the time is set back after it was read
      have first : Turns env K s v ∧ v.datacenters = s.datacenters ∧
          ∀ r', v.requestsQueue.find? (fun r => r.id == p) = some r' →
            r'.rawRequest = r.rawRequest := by
        rcases when_run reset with ⟨-, reset⟩ | ⟨-, rfl⟩
        · rw [update_run reset]
          refine ⟨.single (.request p _ fun _ => ⟨rfl, rfl, rfl, rfl⟩), rfl, fun r' queued' => ?_⟩
          rw [find_queued_modifyRequest, queued] at queued'
          · rw [← Option.some.inj queued']
          · exact fun _ => rfl
        · refine ⟨.refl, rfl, fun r' queued' => ?_⟩
          rw [queued] at queued'
          rw [Option.some.inj queued']
      obtain ⟨first, datacenters, same⟩ := first
      refine first.trans ?_
      by_cases config : r.rawRequest = .getConfig
      · have switched : Turns env K v t ∨ t = v := by
          split_ifs at run with updating waited waited
          · exact .inl (switchDatacenter_turns (fun r' queued' other =>
              absurd ((same r' queued').trans config) other) run)
          · exact .inr (pure_run run).2
          · exact .inl (switchDatacenter_turns (fun r' queued' other =>
              absurd ((same r' queued').trans config) other) run)
          · exact .inr (pure_run run).2
        rcases switched with switched | rfl
        · exact switched
        · rfl
      · simp only [config, decide_false, Bool.and_false, Bool.false_eq_true, if_false] at run
        split at run
        · next waited =>
            refine switchDatacenter_turns (fun r' _ _ none =>
              alone r queued ?_ (datacenters ▸ none)) run
            simp only [Request.switches, different, config, waited.1, waited.2, decide_true,
              Bool.and_true, ne_eq, not_false_eq_true]
        · rw [(pure_run run).2]
  · rw [(pure_run run).2]

theorem turns_queuedInDatacenter (loop : K .requeue) (currentTime : Int) (p datacenterId d : Nat) :
    Keeps (Turns env K) (queuedInDatacenter env currentTime p datacenterId d) := by
  refine keeps_bind (keeps_datacenter d) fun dc => keeps_bind keeps_read fun s => ?_
  refine keeps_bind (turns_request fun r => ?_) fun _ => keeps_bind (keeps_queuedRequest p) fun r =>
    ?_
  · have settled := settled_wrapInLayer r (some dc) s.currentVersion
    split
    · exact ⟨settled.id, settled.rawRequest, settled.callback, settled.connectionType⟩
    · exact ⟨rfl, rfl, rfl, rfl⟩
  refine keeps_ite (fun _ => turns_of_calm (keeps_addNeededDatacenter _ _)) fun _ =>
    keeps_ite (fun _ => turns_of_calm (keeps_addUnauthorizedDatacenter _)) fun _ => ?_
  refine keeps_bind (turns_of_calm (keeps_getConnectionByType _ _ _)) fun connection => ?_
  refine keeps_bind (keeps_require _) fun c => keeps_bind keeps_read fun s => keeps_when fun _ => ?_
  refine keeps_bind (turns_of_calm (keeps_admitRequest _ _)) fun admitted => ?_
  exact keeps_when fun _ => turns_startRequest loop currentTime p c

/-- A waiting request changes the current datacenter although there is no other. -/
def SwitchesToNothing (currentTime : Int) (p : Nat) (s : ConnectionsManager) : Prop :=
  ∃ r, s.requestsQueue.find? (fun r => r.id == p) = some r ∧ r.cancelled = false ∧
    r.waitsForMove s.movingToDatacenterId = false ∧ r.switches currentTime = true ∧
      differentDatacenters (r.targetDatacenterId s.currentDatacenterId) s.datacenters = some []

/-- The body of the loop over the queue. -/
theorem queueStep_turns {currentTime : Int} {p : Nat} {s t : ConnectionsManager} {u : Unit}
    (loop : K .requeue)
    (alone : SwitchesToNothing currentTime p s → K .switchToNothing)
    (run : queueStep env currentTime p s = some (u, t)) : Turns env K s t := by
  obtain ⟨r, queued, run⟩ := queuedRequest_bind run
  rw [read_bind] at run
  split at run
  · exact turns_of_acts (acts_eraseQueued p) _ _ _ run
  · next open_request =>
      rcases when_run run with ⟨stays, run⟩ | ⟨-, rfl⟩
      · obtain ⟨chosen, v, chose, run⟩ := bind_run run
        refine .trans (chooseDatacenter_turns (fun r' queued' switches none => ?_) chose) ?_
        · rw [queued] at queued'
          obtain rfl := Option.some.inj queued'
          exact alone ⟨r, queued, Bool.eq_false_iff.2 open_request, stays, switches, none⟩
        · refine keeps_bind (R := Turns env K) (turns_of_calm (keeps_getDatacenterWithId _))
            (fun found => ?_) _ _ _ run
          split
          · exact turns_of_calm (keeps_addUnknownDatacenter _)
          · exact turns_queuedInDatacenter loop currentTime p _ _
      · rfl

end Mtproto.Manager
