import Mtproto.Manager.Acts

/-!
The sessions that are left to be destroyed.  A call of `processRequestQueue` touches
`sessionsToDestroy` in one place, `destroySession`; everything else it does is *quiet*.  So what a
whole call does to the list is what `destroySession` does to it, and that is what the list is for
(`Destroys`) exactly where the first two ids are the same and the call is not throttled.
-/

namespace Mtproto.Manager

open Lib Program Relation

/-! ## Quiet changes -/

/-- The sessions that the messages collected for a datacenter ask to destroy. -/
def ConnectionsManager.destroys (s : ConnectionsManager) (d : Nat) : List Int :=
  ((s.genericMessagesToDatacenters.find d).getD []).filterMap (·.destroySession)

/-- The list, its clock and the messages for it are the same. -/
structure Quiet (s t : ConnectionsManager) : Prop where
  sessionsToDestroy : t.sessionsToDestroy = s.sessionsToDestroy
  lastDestroySessionRequestTime : t.lastDestroySessionRequestTime = s.lastDestroySessionRequestTime
  destroys : t.destroys = s.destroys

instance : IsPreorder ConnectionsManager Quiet where
  refl _ := ⟨rfl, rfl, rfl⟩
  trans _ _ _ first second :=
    ⟨second.sessionsToDestroy.trans first.sessionsToDestroy,
      second.lastDestroySessionRequestTime.trans first.lastDestroySessionRequestTime,
      second.destroys.trans first.destroys⟩

section Changes

variable {env : Env} {s t : ConnectionsManager}

/-- Messages that destroy no session. -/
theorem destroys_setBatch (s : ConnectionsManager) (b : Batch) (d : Nat)
    {messages : List NetworkMessage}
    (plain : ∀ m ∈ messages, m.destroySession = none) :
    (s.setBatch b ((s.batch b).insert d (((s.batch b).find d).getD [] ++ messages))).destroys =
      s.destroys := by
  have nothing : messages.filterMap (·.destroySession) = [] := List.filterMap_eq_nil_iff.2 plain
  cases b with
  | generic =>
      funext e
      show (((s.genericMessagesToDatacenters.insert d _).find e).getD []).filterMap _ = _
      rw [OrderedMap.find_insert]
      by_cases same : e = d
      · subst same
        simp [ConnectionsManager.destroys, ConnectionsManager.batch, nothing]
      · simp [ConnectionsManager.destroys, same]
  | genericMedia => rfl
  | temp => rfl

theorem Calm.quiet (calm : Calm env s t) : Quiet s t := by
  cases calm with
  | other same =>
      refine ⟨same.sessionsToDestroy, same.lastDestroySessionRequestTime, ?_⟩
      have generic : t.genericMessagesToDatacenters = s.genericMessagesToDatacenters :=
        congrFun same.batch .generic
      funext d
      simp only [ConnectionsManager.destroys, generic]
  | batch b d messages plain =>
      refine ⟨?_, ?_, destroys_setBatch s b d plain⟩
      · cases b <;> rfl
      · cases b <;> rfl
  | _ => exact ⟨rfl, rfl, rfl⟩

theorem Act.quiet (act : Act env s t) : Quiet s t := by
  cases act with
  | edit p edit =>
      cases edit with
      | calm calm => exact calm.quiet
      | request f settled => exact ⟨rfl, rfl, rfl⟩
  | datacenter d f same =>
      unfold ConnectionsManager.modifyDatacenter
      split <;> exact ⟨rfl, rfl, rfl⟩
  | _ => exact ⟨rfl, rfl, rfl⟩

/-- Runs of acts are quiet. -/
theorem Acts.quiet (acts : Acts env s t) : Quiet s t := by
  induction acts with
  | refl => exact refl s
  | tail _ act ih => exact IsTrans.trans _ _ _ ih act.quiet

theorem quiet_of_acts {α : Type} {m : M α} (kept : Keeps (Acts env) m) : Keeps Quiet m :=
  kept.mono fun _ _ acts => acts.quiet

theorem quiet_of_calm {α : Type} {m : M α} (kept : Keeps (Calms env) m) : Keeps Quiet m :=
  quiet_of_acts (acts_of_calm kept)

end Changes

/-- A change of another part of the state. -/
theorem quiet_update {f : ConnectionsManager → ConnectionsManager}
    (sessions : ∀ s, (f s).sessionsToDestroy = s.sessionsToDestroy)
    (time : ∀ s, (f s).lastDestroySessionRequestTime = s.lastDestroySessionRequestTime)
    (messages : ∀ s, (f s).genericMessagesToDatacenters = s.genericMessagesToDatacenters) :
    Keeps Quiet (update f) := by
  refine keeps_update fun s => ⟨sessions s, time s, ?_⟩
  funext d
  simp only [ConnectionsManager.destroys, messages]

theorem quiet_modifyRequest (p : Nat) (f : Request → Request) : Keeps Quiet (modifyRequest p f) :=
  quiet_update (fun _ => rfl) (fun _ => rfl) fun _ => rfl

theorem quiet_modifyDatacenter (d : Nat) (f : Datacenter → Datacenter) :
    Keeps Quiet (modifyDatacenter d f) := by
  refine keeps_update fun s => ?_
  unfold ConnectionsManager.modifyDatacenter
  split <;> exact ⟨rfl, rfl, rfl⟩

theorem quiet_modifyConnection (c : ConnectionId) (f : Connection → Connection) :
    Keeps Quiet (modifyConnection c f) :=
  quiet_update (fun _ => rfl) (fun _ => rfl) fun _ => rfl

theorem quiet_record (e : Event) : Keeps Quiet (record e) :=
  quiet_update (fun _ => rfl) (fun _ => rfl) fun _ => rfl

theorem quiet_generateMessageSeqNo (c : ConnectionId) (increment : Bool) :
    Keeps Quiet (generateMessageSeqNo c increment) := by
  refine keeps_bind (keeps_connection c) fun session => ?_
  exact keeps_bind (keeps_when fun _ => quiet_modifyConnection c _) fun _ => keeps_pure _

theorem quiet_assigned (c : ConnectionId) (msgId : Int) (seqNo : Nat) :
    Keeps Quiet (assigned c msgId seqNo) :=
  keeps_bind (keeps_connection c) fun _ => quiet_record _

theorem quiet_moveToQueue (p : Nat) : Keeps Quiet (moveToQueue p) :=
  keeps_bind (keeps_runningRequest p) fun _ => quiet_update (fun _ => rfl) (fun _ => rfl) fun _ =>
    rfl

/-! ## Callbacks -/

theorem quiet_scheduleTask (task : Task) : Keeps Quiet (scheduleTask task) :=
  quiet_update (fun _ => rfl) (fun _ => rfl) fun _ => rfl

section Callbacks

-- the commands that read no clock are calm for every environment
variable (env : Env)
include env

theorem quiet_saveConfig : Keeps Quiet saveConfig :=
  quiet_of_calm (keeps_saveConfig : Keeps (Calms env) saveConfig)

theorem quiet_getDatacenterWithId (id : Nat) : Keeps Quiet (getDatacenterWithId id) :=
  quiet_of_calm (keeps_getDatacenterWithId id : Keeps (Calms env) _)

theorem quiet_sendNewRequest (object : Query) (callback : Callback) (flags d : Nat) :
    Keeps Quiet (sendNewRequest object callback flags d ConnectionType.generic) :=
  quiet_of_calm (keeps_sendNewRequest (proper_generic callback) : Keeps (Calms env) _)

theorem quiet_authorizedOnMovingDatacenter : Keeps Quiet authorizedOnMovingDatacenter := by
  refine keeps_bind (quiet_update (fun _ => rfl) (fun _ => rfl) fun _ => rfl) fun _ => ?_
  exact keeps_bind (quiet_saveConfig env) fun _ => quiet_scheduleTask _

theorem quiet_authorizeOnMovingDatacenter : Keeps Quiet (authorizeOnMovingDatacenter env) := by
  refine keeps_bind keeps_read fun s => keeps_bind (quiet_getDatacenterWithId env _) fun moving =>
    ?_
  split
  · exact quiet_of_calm (keeps_updateDcSettings _ _)
  · refine keeps_bind (quiet_of_acts (acts_recreateSessions _ _)) fun _ => ?_
    refine keeps_bind (quiet_of_acts (acts_clearRequestsForDatacenter _ _ : Keeps (Acts env) _))
      fun _ => ?_
    refine keeps_bind (keeps_datacenter _) fun dc => ?_
    refine keeps_bind (keeps_when fun _ => quiet_of_acts (acts_beginHandshake _ _ _)) fun _ => ?_
    refine keeps_bind keeps_read fun s => keeps_ite (fun _ => ?_) fun _ =>
      quiet_authorizedOnMovingDatacenter env
    refine keeps_bind (quiet_update (fun _ => rfl) (fun _ => rfl) fun _ => rfl) fun _ => ?_
    exact quiet_sendNewRequest env _ _ _ _

theorem quiet_moveToDatacenter (target : MoveTarget) :
    Keeps Quiet (moveToDatacenter env target) := by
  refine keeps_bind keeps_read fun s => keeps_when fun _ => ?_
  refine keeps_bind (quiet_update (fun _ => rfl) (fun _ => rfl) fun _ => rfl) fun _ => ?_
  refine keeps_bind (quiet_getDatacenterWithId env _) fun current => ?_
  refine keeps_bind (quiet_of_acts (acts_clearRequestsForDatacenter _ _ : Keeps (Acts env) _))
    fun _ => ?_
  exact keeps_ite (fun _ => quiet_sendNewRequest env _ _ _ _) fun _ =>
    quiet_authorizeOnMovingDatacenter env

theorem quiet_applyConfigEntry (entry : Nat × Bool × Bool) :
    Keeps Quiet (applyConfigEntry env entry) := by
  refine keeps_bind ?_ fun d => keeps_bind (quiet_modifyDatacenter d _) fun _ => ?_
  · refine keeps_bind (quiet_getDatacenterWithId env _) fun found => ?_
    split
    · exact keeps_pure _
    · exact keeps_bind (quiet_update (fun _ => rfl) (fun _ => rfl) fun _ => rfl) fun _ =>
        keeps_pure _
  · refine keeps_bind keeps_read fun s => keeps_when fun _ => ?_
    refine keeps_bind (quiet_update (fun _ => rfl) (fun _ => rfl) fun _ => rfl) fun _ => ?_
    split
    · exact keeps_pure _
    · exact quiet_moveToDatacenter env _

theorem quiet_applyConfig (answer : Option Answer) : Keeps Quiet (applyConfig env answer) := by
  unfold applyConfig
  split
  · refine keeps_when fun _ =>
      keeps_bind (keeps_each fun entry _ => quiet_applyConfigEntry env entry) fun _ => ?_
    exact keeps_bind (quiet_saveConfig env) fun _ => quiet_scheduleTask _
  · exact keeps_fault
  · exact keeps_pure _

theorem quiet_onConfig (workaround : Bool) (answer : Option Answer) :
    Keeps Quiet (onConfig env workaround answer) := by
  refine keeps_bind keeps_read fun s => keeps_when fun _ =>
    keeps_bind (quiet_applyConfig env answer) fun _ => ?_
  exact keeps_update fun s => by split <;> exact ⟨rfl, rfl, rfl⟩

theorem quiet_onCdnConfig (answer : Option Answer) : Keeps Quiet (onCdnConfig env answer) := by
  unfold onCdnConfig
  split
  · exact quiet_update (fun _ => rfl) (fun _ => rfl) fun _ => rfl
  · refine keeps_bind keeps_read fun s => ?_
    refine keeps_bind (keeps_each fun d _ => quiet_of_acts (acts_beginHandshake _ _ _)) fun _ => ?_
    exact quiet_update (fun _ => rfl) (fun _ => rfl) fun _ => rfl
  · exact keeps_fault

theorem quiet_runCallback (callback : Callback) (answer : Option Answer) :
    Keeps Quiet (runCallback env callback answer) := by
  cases callback with
  | none => exact keeps_pure _
  | delegate => exact keeps_pure _
  | updateDcSettings workaround => exact quiet_onConfig env workaround answer
  | requestSalts d =>
      refine keeps_bind (quiet_update (fun _ => rfl) (fun _ => rfl) fun _ => rfl) fun _ => ?_
      split
      · exact keeps_pure _
      · exact quiet_saveConfig env
      · exact keeps_fault
  | moveExport target =>
      simp only [runCallback]
      split
      · exact quiet_moveToDatacenter env target
      · refine keeps_bind (quiet_update (fun _ => rfl) (fun _ => rfl) fun _ => rfl) fun _ => ?_
        exact quiet_authorizeOnMovingDatacenter env
      · exact keeps_fault
  | moveImport =>
      simp only [runCallback]
      split
      · exact keeps_pure _
      · exact quiet_authorizedOnMovingDatacenter env
  | exportAuthorization d =>
      simp only [runCallback]
      split
      · exact quiet_modifyDatacenter d _
      · exact quiet_sendNewRequest env _ _ _ _
      · exact keeps_fault
  | importAuthorization d =>
      refine keeps_bind (keeps_when fun _ => ?_) fun _ => quiet_modifyDatacenter d _
      refine keeps_bind (quiet_modifyDatacenter d _) fun _ => ?_
      exact keeps_bind (quiet_saveConfig env) fun _ => quiet_scheduleTask _
  | cdnConfig => exact quiet_onCdnConfig env answer

/-! ## The two loops -/

theorem quiet_failRequest (p : Nat) : Keeps Quiet (failRequest env p) := by
  refine keeps_bind (keeps_runningRequest p) fun r => keeps_bind ?_ fun _ => ?_
  · exact keeps_bind (quiet_record _) fun _ => quiet_runCallback env _ _
  · exact quiet_update (fun _ => rfl) (fun _ => rfl) fun _ => rfl

theorem quiet_renewMessageId (p : Nat) (c : ConnectionId) :
    Keeps Quiet (renewMessageId env p c) := by
  refine keeps_bind (keeps_runningRequest p) fun r => keeps_when fun _ => ?_
  refine keeps_bind (quiet_generateMessageSeqNo c _) fun seqNo => ?_
  refine keeps_bind (quiet_of_calm keeps_generateMessageId) fun msgId => ?_
  exact keeps_bind (quiet_assigned c _ _) fun _ => quiet_modifyRequest p _

theorem quiet_retryRequest (call : QueueCall) (currentTime : Int) (p : Nat) (c : ConnectionId) :
    Keeps Quiet (retryRequest env call currentTime p c) := by
  refine keeps_bind (quiet_renewMessageId env p c) fun _ => keeps_bind keeps_read fun s => ?_
  refine keeps_bind (quiet_modifyRequest p _) fun _ => keeps_bind (keeps_runningRequest p) fun r =>
    ?_
  exact keeps_when fun _ => quiet_of_calm (keeps_dispatch r c)

theorem quiet_retryIfDue (call : QueueCall) (currentTime : Int) (p : Nat) (c : ConnectionId) :
    Keeps Quiet (retryIfDue env call currentTime p c) := by
  refine keeps_bind (keeps_runningRequest p) fun r => ?_
  refine keeps_bind (keeps_when fun _ => quiet_modifyRequest p _) fun _ => ?_
  refine keeps_bind (keeps_runningRequest p) fun r => keeps_bind keeps_read fun s =>
    keeps_when fun _ => ?_
  refine keeps_bind (quiet_modifyRequest p _) fun _ => keeps_bind (keeps_runningRequest p) fun r =>
    ?_
  exact keeps_ite (fun _ => quiet_failRequest env p) fun _ =>
    quiet_retryRequest env call currentTime p c

theorem quiet_runningInDatacenter (call : QueueCall) (currentTime : Int) (p d : Nat) :
    Keeps Quiet (runningInDatacenter env call currentTime p d) := by
  refine keeps_bind (keeps_datacenter d) fun dc => ?_
  refine keeps_bind (keeps_when fun _ => quiet_modifyRequest p _) fun _ => ?_
  refine keeps_bind (keeps_runningRequest p) fun r => keeps_bind keeps_read fun s => ?_
  refine keeps_ite (fun _ => quiet_moveToQueue p) fun _ => keeps_ite (fun _ => ?_) fun _ =>
    keeps_ite (fun _ => ?_) fun _ => ?_
  · exact quiet_of_calm (keeps_addNeededDatacenter _ _ : Keeps (Calms env) _)
  · exact quiet_of_calm (keeps_addUnauthorizedDatacenter _ : Keeps (Calms env) _)
  · refine keeps_bind (quiet_of_calm (keeps_getConnectionByType _ _ _)) fun connection => ?_
    refine keeps_bind keeps_read fun s => keeps_when fun _ => keeps_bind (keeps_require _) fun c =>
      ?_
    exact keeps_when fun _ => quiet_retryIfDue env call currentTime p c

theorem quiet_runningLoop (call : QueueCall) (currentTime : Int) :
    Keeps Quiet (runningLoop env call currentTime) := by
  refine keeps_bind keeps_read fun s => keeps_each fun p _ => ?_
  refine keeps_bind (keeps_runningRequest p) fun r => keeps_bind keeps_read fun s =>
    keeps_when fun _ => ?_
  refine keeps_bind (quiet_of_calm (keeps_countRunning _ _ : Keeps (Calms env) _)) fun _ => ?_
  refine keeps_bind (quiet_of_calm (keeps_leavesForDifferentDc _ _ : Keeps (Calms env) _))
    fun leaves => ?_
  refine keeps_ite (fun _ => quiet_moveToQueue p) fun _ => ?_
  refine keeps_bind (quiet_getDatacenterWithId env _) fun found => ?_
  split
  · exact quiet_of_calm (keeps_addUnknownDatacenter _ : Keeps (Calms env) _)
  · exact quiet_runningInDatacenter env call currentTime p _

theorem quiet_chooseDatacenter (currentTime : Int) (p datacenterId : Nat) :
    Keeps Quiet (chooseDatacenter env currentTime p datacenterId) := by
  refine keeps_bind (keeps_queuedRequest p) fun r => keeps_bind keeps_read fun s => ?_
  refine keeps_ite (fun _ => ?_) fun _ => keeps_pure _
  refine keeps_bind (keeps_when fun _ => quiet_modifyRequest p _) fun _ => ?_
  refine keeps_ite (fun _ => ?_) fun _ => keeps_pure _
  refine keeps_bind keeps_read fun s => keeps_bind (keeps_require _) fun allDc => ?_
  refine keeps_bind (quiet_of_calm (keeps_reading : Keeps (Calms env) _)) fun n => ?_
  refine keeps_bind (keeps_queuedRequest p) fun r => keeps_bind ?_ fun _ => keeps_pure _
  refine keeps_ite (fun _ => ?_) fun _ => quiet_update (fun _ => rfl) (fun _ => rfl) fun _ => rfl
  exact keeps_bind (quiet_update (fun _ => rfl) (fun _ => rfl) fun _ => rfl) fun _ =>
    quiet_modifyRequest p _

theorem quiet_startRequest (currentTime : Int) (p : Nat) (c : ConnectionId) :
    Keeps Quiet (startRequest env currentTime p c) := by
  refine keeps_bind (keeps_queuedRequest p) fun r => ?_
  refine keeps_bind (quiet_of_calm keeps_generateMessageId) fun msgId => ?_
  refine keeps_bind (quiet_of_calm (keeps_reading : Keeps (Calms env) _)) fun n => ?_
  refine keeps_bind (quiet_generateMessageSeqNo c _) fun seqNo =>
    keeps_bind (quiet_assigned c _ _) fun _ => ?_
  refine keeps_bind keeps_read fun s => keeps_bind (quiet_modifyRequest p _) fun _ => ?_
  refine keeps_bind ?_ fun r => quiet_of_calm (keeps_dispatch r c)
  refine keeps_bind (keeps_queuedRequest p) fun r => ?_
  exact keeps_bind (quiet_update (fun _ => rfl) (fun _ => rfl) fun _ => rfl) fun _ => keeps_pure _

theorem quiet_queuedInDatacenter (currentTime : Int) (p datacenterId d : Nat) :
    Keeps Quiet (queuedInDatacenter env currentTime p datacenterId d) := by
  refine keeps_bind (keeps_datacenter d) fun dc => keeps_bind keeps_read fun s => ?_
  refine keeps_bind (quiet_modifyRequest p _) fun _ => keeps_bind (keeps_queuedRequest p) fun r =>
    ?_
  refine keeps_ite (fun _ => ?_) fun _ => keeps_ite (fun _ => ?_) fun _ => ?_
  · exact quiet_of_calm (keeps_addNeededDatacenter _ _ : Keeps (Calms env) _)
  · exact quiet_of_calm (keeps_addUnauthorizedDatacenter _ : Keeps (Calms env) _)
  · refine keeps_bind (quiet_of_calm (keeps_getConnectionByType _ _ _)) fun connection => ?_
    refine keeps_bind (keeps_require _) fun c => keeps_bind keeps_read fun s => keeps_when fun _ =>
      ?_
    refine keeps_bind (quiet_of_calm (keeps_admitRequest _ _ : Keeps (Calms env) _)) fun admitted =>
      ?_
    exact keeps_when fun _ => quiet_startRequest env currentTime p c

theorem quiet_queueLoop (currentTime : Int) : Keeps Quiet (queueLoop env currentTime) := by
  refine keeps_bind keeps_read fun s => keeps_each fun p _ => ?_
  refine keeps_bind (keeps_queuedRequest p) fun r => keeps_bind keeps_read fun s => ?_
  refine keeps_ite (fun _ => ?_) fun _ => keeps_when fun _ => ?_
  · exact quiet_update (fun _ => rfl) (fun _ => rfl) fun _ => rfl
  · refine keeps_bind (quiet_chooseDatacenter env _ _ _) fun chosen => ?_
    refine keeps_bind (quiet_getDatacenterWithId env _) fun found => ?_
    split
    · exact quiet_of_calm (keeps_addUnknownDatacenter _ : Keeps (Calms env) _)
    · exact quiet_queuedInDatacenter env currentTime p _ _

/-- What follows the place where a session is destroyed. -/
theorem quiet_rest (call : QueueCall) (currentTime : Int) :
    Keeps Quiet (do
      queueLoop env currentTime
      confirmationLoop env
      sendAllBatches env call
      finishQueue env call) := by
  refine keeps_bind (quiet_queueLoop env currentTime) fun _ => ?_
  refine keeps_bind (quiet_of_calm keeps_confirmationLoop) fun _ => ?_
  exact keeps_bind (quiet_of_calm (keeps_sendAllBatches call)) fun _ =>
    quiet_of_acts (acts_finishQueue call)

end Callbacks

/-! ## Destroying a session -/

section Destroy

variable {env : Env} {s t u v : ConnectionsManager}

/-- Calm changes take no token away and give none. -/
theorem Calm.token (calm : Calm env s t) (c : ConnectionId) : t.token c = s.token c := by
  have modify : ∀ (e : ConnectionId) (f : Connection → Connection),
      (∀ x, s.connections e = some x → (f x).stage.token = x.stage.token) →
        (s.modifyConnection e f).token c = s.token c := by
    intro e f same
    simp only [ConnectionsManager.token, ConnectionsManager.modifyConnection]
    by_cases here : c = e
    · subst here
      cases found : s.connections c with
      | none => simp
      | some x => simp [same x found]
    · simp [here]
  have unconnected : ∀ {stage : Stage}, stage.isConnected = false → stage.token = 0 := by
    intro stage closed
    cases stage with
    | connected token => cases closed
    | _ => rfl
  cases calm with
  | other same => simp only [ConnectionsManager.token, same.connections]
  | create e new =>
      simp only [ConnectionsManager.token]
      by_cases here : c = e
      · subst here
        simp [new, Stage.token]
      · simp [here]
  | opening e f closed stays same =>
      refine modify e f fun x found => ?_
      rw [unconnected (stays x (closed x found)), unconnected (closed x found)]
  | session e f same => exact modify e f fun x _ => by rw [(same x).1]
  | batch b d messages plain => cases b <;> rfl
  | _ => rfl

theorem Calms.token (calm : Calms env s t) (c : ConnectionId) : t.token c = s.token c := by
  induction calm with
  | refl => rfl
  | tail _ last ih => rw [last.token, ih]

/-- The current datacenter has a key and a connected generic connection. -/
def ConnectionsManager.CanDestroy (s : ConnectionsManager) : Prop :=
  (∃ dc, s.datacenter s.currentDatacenterId = some dc ∧ dc.authKeyPerm = true) ∧
    s.token ⟨s.currentDatacenterId, .generic⟩ ≠ 0

/-- The last request for a session is at most two seconds old. -/
def ConnectionsManager.Throttled (s : ConnectionsManager) (currentTime : Int) : Prop :=
  (currentTime - s.lastDestroySessionRequestTime).natAbs ≤ 2

theorem getDatacenterWithId_current {found : Option Nat}
    (run : getDatacenterWithId s.currentDatacenterId s = some (found, t)) :
    found = (s.datacenter s.currentDatacenterId).map (fun _ => s.currentDatacenterId) ∧
      (found.isSome = true → t = s) := by
  rw [getDatacenterWithId, read_bind] at run
  split at run
  · cases entry : s.datacenters.find s.currentDatacenterId with
    | none =>
        rw [entry] at run
        rw [(pure_run run).1]
        simp [ConnectionsManager.datacenter, entry]
    | some known =>
        rw [entry] at run
        cases known with
        | none =>
            rw [(pure_run run).1]
            simp [ConnectionsManager.datacenter, entry]
        | some dc =>
            rw [(pure_run run).1]
            exact ⟨by simp [ConnectionsManager.datacenter, entry], fun _ => (pure_run run).2⟩
  · rw [(pure_run run).1]
    refine ⟨?_, fun _ => (pure_run run).2⟩
    cases s.datacenter s.currentDatacenterId <;> simp

theorem getConnection_run {c : ConnectionId} {found : Option ConnectionId}
    (run : getConnection env c true s = some (found, t)) :
    ∃ dc, s.datacenter c.datacenter = some dc ∧
      found = if dc.authKeyPerm = true ∧ (t.connections c).isSome = true then some c else none := by
  obtain ⟨key, w, checked, rest⟩ := bind_run run
  obtain ⟨dc, known, ended⟩ := datacenter_bind checked
  obtain ⟨rfl, rfl⟩ := pure_run ended
  refine ⟨dc, known, ?_⟩
  split at rest
  · rename_i key
    obtain ⟨x, w, -, rest⟩ := bind_run rest
    rw [read_bind] at rest
    obtain ⟨rfl, rfl⟩ := pure_run rest
    simp [key]
  · rename_i no_key
    rw [(pure_run rest).1]
    simp [no_key]

theorem destroys_addMessageToDatacenter (d : Nat) (m : NetworkMessage) {session : Int}
    (names : m.destroySession = some session)
    (run : addMessageToDatacenter d m .generic s = some ((), t)) :
    t.sessionsToDestroy = s.sessionsToDestroy ∧
      t.destroys = Function.update s.destroys d (s.destroys d ++ [session]) := by
  rw [update_run run]
  refine ⟨rfl, ?_⟩
  funext e
  show (((s.genericMessagesToDatacenters.insert d _).find e).getD []).filterMap _ = _
  rw [OrderedMap.find_insert]
  by_cases same : e = d
  · subst same
    simp [ConnectionsManager.destroys, ConnectionsManager.batch, names]
  · simp [ConnectionsManager.destroys, same]

theorem destroyFirst_run {currentTime : Int} {d : Nat} {c : ConnectionId}
    (run : destroyFirst env currentTime d c u = some ((), v)) :
    (¬ (u.sessionsToDestroy ≠ [] ∧ u.token c ≠ 0) ∧ v = u) ∨
      (u.token c ≠ 0 ∧ u.Throttled currentTime ∧ v.destroys = u.destroys ∧
        ∃ id, u.sessionsToDestroy = id :: v.sessionsToDestroy) ∨
      (u.token c ≠ 0 ∧ ¬ u.Throttled currentTime ∧
        ∃ id next rest, u.sessionsToDestroy = id :: next :: rest ∧
          v.sessionsToDestroy = next :: rest ∧
          v.destroys = Function.update u.destroys d (u.destroys d ++ [next])) := by
  rw [destroyFirst, read_bind] at run
  rcases when_run run with ⟨⟨filled, connected⟩, run⟩ | ⟨stop, same⟩
  · obtain ⟨id, rest, ids⟩ := List.exists_cons_of_ne_nil filled
    rw [update_bind] at run
    rcases when_run run with ⟨late, run⟩ | ⟨early, rfl⟩
    · rw [update_bind, read_bind] at run
      obtain ⟨next, w, taken, run⟩ := bind_run run
      obtain ⟨head, rfl⟩ := require_run taken
      obtain ⟨m, x, numbered, run⟩ := bind_run run
      obtain ⟨n, y, measured, run⟩ := bind_run run
      have first := quiet_of_calm (keeps_newMessage c) _ _ _ numbered
      have second := quiet_of_calm (keeps_reading : Keeps (Calms env) _) _ _ _ measured
      obtain ⟨kept, names⟩ := destroys_addMessageToDatacenter d _ rfl run
      have list : v.sessionsToDestroy = u.sessionsToDestroy.tail :=
        kept.trans (second.sessionsToDestroy.trans first.sessionsToDestroy)
      have messages : y.destroys = u.destroys := second.destroys.trans first.destroys
      rw [messages] at names
      simp only [ids, List.tail_cons] at head list
      refine .inr (.inr ⟨connected, by simpa [ConnectionsManager.Throttled] using late, ?_⟩)
      cases rest with
      | nil => cases head
      | cons next' rest =>
          obtain rfl : next' = next := Option.some.inj head
          exact ⟨id, next', rest, ids, list, names⟩
    · refine .inr
        (.inl ⟨connected, by simpa [ConnectionsManager.Throttled] using early, rfl, id, ?_⟩)
      simp [ids]
  · exact .inl ⟨stop, same⟩

/-- What `destroySession` does to the list: nothing, or its first id is gone, without a message
where the call is throttled and with a message for the id after it otherwise. -/
theorem destroySession_run {currentTime : Int}
    (run : destroySession env currentTime u = some ((), v)) :
    (¬ (u.CanDestroy ∧ u.sessionsToDestroy ≠ []) ∧ Quiet u v) ∨
      (u.CanDestroy ∧ u.Throttled currentTime ∧ v.destroys = u.destroys ∧
        ∃ id, u.sessionsToDestroy = id :: v.sessionsToDestroy) ∨
      (u.CanDestroy ∧ ¬ u.Throttled currentTime ∧
        ∃ id next rest, u.sessionsToDestroy = id :: next :: rest ∧
          v.sessionsToDestroy = next :: rest ∧
          v.destroys = Function.update u.destroys u.currentDatacenterId
            (u.destroys u.currentDatacenterId ++ [next])) := by
  rw [destroySession, read_bind] at run
  obtain ⟨found, w, looked, run⟩ := bind_run run
  have calm : Calms env u w := keeps_getDatacenterWithId _ _ _ _ looked
  obtain ⟨rfl, stays⟩ := getDatacenterWithId_current looked
  cases known : u.datacenter u.currentDatacenterId with
  | none =>
      simp only [known, Option.map_none] at run
      rw [(pure_run run).2]
      refine .inl ⟨fun both => ?_, calm.acts.quiet⟩
      obtain ⟨⟨⟨dc, exist, -⟩, -⟩, -⟩ := both
      rw [known] at exist
      cases exist
  | some dc =>
      simp only [known, Option.map_some] at run stays
      obtain rfl := stays rfl
      obtain ⟨connection, x, got, run⟩ := bind_run run
      have opened : Calms env w x := keeps_getConnection _ _ _ _ _ got
      have quiet := opened.acts.quiet
      have same_token := opened.token ⟨w.currentDatacenterId, .generic⟩
      obtain ⟨dc', known', rfl⟩ := getConnection_run got
      obtain rfl : dc' = dc := Option.some.inj (known'.symm.trans known)
      have key_of_can : w.CanDestroy → dc'.authKeyPerm = true := by
        rintro ⟨⟨dc, exist, key⟩, -⟩
        rw [known] at exist
        cases exist
        exact key
      by_cases present : dc'.authKeyPerm = true ∧
          (x.connections ⟨w.currentDatacenterId, .generic⟩).isSome = true
      · simp only [if_pos present] at run
        have can : x.token ⟨w.currentDatacenterId, .generic⟩ ≠ 0 → w.CanDestroy := by
          rw [same_token]
          exact fun connected => ⟨⟨dc', known, present.1⟩, connected⟩
        have throttled : x.Throttled currentTime ↔ w.Throttled currentTime := by
          rw [ConnectionsManager.Throttled, quiet.lastDestroySessionRequestTime,
            ConnectionsManager.Throttled]
        have list := quiet.sessionsToDestroy
        have messages := quiet.destroys
        rcases destroyFirst_run run with ⟨stop, rfl⟩ | ⟨connected, early, same, id, ids⟩ |
          ⟨connected, late, id, next, rest, ids, after, names⟩
        · refine .inl ⟨fun both => stop ⟨?_, ?_⟩, quiet⟩
          · rw [list]
            exact both.2
          · rw [same_token]
            exact both.1.2
        · exact .inr (.inl ⟨can connected, throttled.1 early, same.trans messages, id, list ▸ ids⟩)
        · refine .inr (.inr ⟨can connected, fun h => late (throttled.2 h), id, next, rest,
            list ▸ ids, after, ?_⟩)
          rw [names, messages]
      · simp only [if_neg present] at run
        rw [(pure_run run).2]
        refine .inl ⟨fun both => present ⟨key_of_can both.1, ?_⟩, quiet⟩
        have connected := both.1.2
        rw [← same_token] at connected
        cases exist : x.connections ⟨w.currentDatacenterId, .generic⟩ with
        | none => simp [ConnectionsManager.token, exist] at connected
        | some _ => rfl

end Destroy

/-! ## Calls of `processRequestQueue` -/

variable (env : Env)

/-- The part of a call before a session is destroyed; its value is the time of the call. -/
def beforeDestroy (call : QueueCall) : M Int := do
  update fun s => s.clearWork
  let n ← reading
  runningLoop env call (env.currentTime n)
  pure (env.currentTime n)

theorem processRequestQueue_eq (call : QueueCall) (s : ConnectionsManager) :
    processRequestQueue env call s =
      (do
        let currentTime ← beforeDestroy env call
        destroySession env currentTime
        queueLoop env currentTime
        confirmationLoop env
        sendAllBatches env call
        finishQueue env call) s := by
  simp only [processRequestQueue, processRequestQueueAt, beforeDestroy, bind_apply,
    Option.bind_assoc, pure_apply, Option.bind_some]

/-- A finished call of `processRequestQueue`: the states around it, and the time and the state in
which it came to the sessions. -/
structure QueueRun where
  call : QueueCall
  before : ConnectionsManager
  currentTime : Int
  entry : ConnectionsManager
  after : ConnectionsManager
  enters : beforeDestroy env call before = some (currentTime, entry)
  finishes : processRequestQueue env call before = some ((), after)

namespace QueueRun

variable {env} (c : QueueRun env)

/-- The sessions that the messages of the call ask the current datacenter to destroy. -/
def destroyed : List Int := c.after.destroys c.entry.currentDatacenterId

/-- A throttled call leaves the list alone; otherwise an id leaves the list exactly when the call
builds a message with this id for the current datacenter, and it is the first one. -/
def Destroys : Prop :=
  (c.before.Throttled c.currentTime → c.after.sessionsToDestroy = c.before.sessionsToDestroy) ∧
    ((c.after.sessionsToDestroy = c.before.sessionsToDestroy ∧ c.after.destroys = fun _ => []) ∨
      ∃ id, c.before.sessionsToDestroy = id :: c.after.sessionsToDestroy ∧
        c.after.destroys = Function.update (fun _ => []) c.entry.currentDatacenterId [id])

/-- The list is empty, or the current datacenter has no connected generic connection, or the call is
not throttled and the first two ids are the same. -/
def Harmless : Prop :=
  c.entry.sessionsToDestroy = [] ∨ ¬ c.entry.CanDestroy ∨
    (¬ c.entry.Throttled c.currentTime ∧ ∃ id rest, c.entry.sessionsToDestroy = id :: id :: rest)

/-- Up to the entry the list and its clock are the same, and no message asks for a session. -/
theorem entry_quiet :
    c.entry.sessionsToDestroy = c.before.sessionsToDestroy ∧
      c.entry.lastDestroySessionRequestTime = c.before.lastDestroySessionRequestTime ∧
        c.entry.destroys = fun _ => [] := by
  have enters := c.enters
  rw [beforeDestroy, update_bind, reading_bind] at enters
  obtain ⟨x, u, loop, rest⟩ := bind_run enters
  obtain ⟨-, same⟩ := pure_run rest
  have quiet := quiet_runningLoop env _ _ _ _ _ loop
  rw [same]
  exact ⟨quiet.sessionsToDestroy, quiet.lastDestroySessionRequestTime, quiet.destroys⟩

/-- What follows the entry is `destroySession` and quiet. -/
theorem exists_destroySession :
    ∃ v, destroySession env c.currentTime c.entry = some ((), v) ∧ Quiet v c.after := by
  have finishes := c.finishes
  rw [processRequestQueue_eq, bind_apply, c.enters, Option.bind_some] at finishes
  obtain ⟨x, v, destroys, rest⟩ := bind_run finishes
  exact ⟨v, destroys, quiet_rest env c.call c.currentTime _ _ _ rest⟩

/-- A call does what the list is for exactly where it is harmless. -/
theorem destroys_iff : c.Destroys ↔ c.Harmless := by
  obtain ⟨list, time, messages⟩ := c.entry_quiet
  obtain ⟨v, run, quiet⟩ := c.exists_destroySession
  have throttled : c.before.Throttled c.currentTime ↔ c.entry.Throttled c.currentTime := by
    rw [ConnectionsManager.Throttled, ← time, ConnectionsManager.Throttled]
  rw [Destroys, Harmless, throttled, ← list, quiet.sessionsToDestroy, quiet.destroys]
  rcases destroySession_run run with ⟨stop, same⟩ | ⟨can, early, -, id, ids⟩ |
    ⟨can, late, id, next, rest, ids, after, names⟩
  · rw [same.sessionsToDestroy, same.destroys, messages]
    refine ⟨fun _ => ?_, fun _ => ⟨fun _ => rfl, .inl ⟨rfl, rfl⟩⟩⟩
    by_cases can : c.entry.CanDestroy
    · exact .inl (by_contra fun filled => stop ⟨can, filled⟩)
    · exact .inr (.inl can)
  · constructor
    · intro destroys
      have same := congrArg List.length (destroys.1 early)
      rw [ids, List.length_cons] at same
      omega
    · rintro (empty | cannot | ⟨late, -⟩)
      · rw [ids] at empty
        cases empty
      · exact absurd can cannot
      · exact absurd early late
  · rw [ids, after, names, messages]
    constructor
    · rintro ⟨-, ⟨same, -⟩ | ⟨id', same, built⟩⟩
      · have lengths := congrArg List.length same
        simp at lengths
      · have value := congrFun built c.entry.currentDatacenterId
        simp only [Function.update_self, List.nil_append, List.cons.injEq, and_true] at value same
        refine .inr (.inr ⟨late, id, rest, ?_⟩)
        rw [value, same]
    · rintro (empty | cannot | ⟨-, id', rest', same⟩)
      · cases empty
      · exact absurd can cannot
      · simp only [List.cons.injEq] at same
        obtain ⟨rfl, rfl, rfl⟩ := same
        exact ⟨fun early => absurd early late, .inr ⟨_, rfl, by simp⟩⟩

/-- The ids that left the list are the ones in the messages. -/
theorem Destroys.list {c : QueueRun env} (destroys : c.Destroys) :
    c.before.sessionsToDestroy = c.destroyed ++ c.after.sessionsToDestroy := by
  rcases destroys.2 with ⟨same, none_built⟩ | ⟨id, list, built⟩
  · rw [destroyed, none_built, same]
    rfl
  · rw [destroyed, built, list, Function.update_self]
    rfl

end QueueRun

/-! ## Runs -/

/-- Calls of `processRequestQueue`, oldest first, and between them anything that leaves the list
alone. -/
inductive SessionRun (s : ConnectionsManager) : List (QueueRun env) → ConnectionsManager → Prop
  | start : SessionRun s [] s
  | call {calls : List (QueueRun env)} (c : QueueRun env) :
      SessionRun s calls c.before → SessionRun s (calls ++ [c]) c.after
  | other {calls : List (QueueRun env)} {t u : ConnectionsManager} :
      SessionRun s calls t → u.sessionsToDestroy = t.sessionsToDestroy → SessionRun s calls u

variable {env} {s t : ConnectionsManager} {calls : List (QueueRun env)}

theorem SessionRun.list (run : SessionRun env s calls t) (destroys : ∀ c ∈ calls, c.Destroys) :
    s.sessionsToDestroy = calls.flatMap (·.destroyed) ++ t.sessionsToDestroy := by
  induction run with
  | start => simp
  | call c _ ih =>
      rw [ih fun c' mem => destroys c' (List.mem_append_left _ mem), (destroys c (by simp)).list]
      simp
  | other _ same ih => rw [ih destroys, same]

/-- In a run every call destroys the sessions it forgets, and they are destroyed in the order of the
list, exactly when every call of it is harmless. -/
theorem sessions_destroyed_iff (run : SessionRun env s calls t) :
    ((∀ c ∈ calls, c.Destroys) ∧
        s.sessionsToDestroy = calls.flatMap (·.destroyed) ++ t.sessionsToDestroy) ↔
      ∀ c ∈ calls, c.Harmless := by
  constructor
  · intro destroys c mem
    exact c.destroys_iff.1 (destroys.1 c mem)
  · intro harmless
    have destroys : ∀ c ∈ calls, c.Destroys := fun c mem => c.destroys_iff.2 (harmless c mem)
    exact ⟨destroys, run.list destroys⟩

/-! ## A state with two sessions -/

/-- A clock that stands at ten seconds. -/
def tenSeconds : Env where
  currentTimeMillis _ := 0
  currentTimeMonotonicMillis _ := 10000
  messageIdAt _ _ := 0
  messageTime _ := 0
  newSessionId _ := 0
  randomByte _ := 0
  opens _ := true
  objectSize _ := 12

/-- Datacenter 2 is connected, and the sessions are still there. -/
def connectedWith (sessions : List Int) (lastTime : Int) : ConnectionsManager where
  datacenters := [(2, some { authKeyPerm := true })]
  currentDatacenterId := 2
  connections c :=
    if c = ⟨2, .generic⟩ then some { stage := .connected 1, sessionId := 9 } else none
  sessionsToDestroy := sessions
  lastDestroySessionRequestTime := lastTime

/-- A call in this state. -/
def callWith (sessions : List Int) (lastTime : Int)
    (finishes : (processRequestQueue tenSeconds ⟨0, 0,
      false⟩ (connectedWith sessions lastTime)).isSome = true) :
    QueueRun tenSeconds where
  call := ⟨0, 0, false⟩
  before := connectedWith sessions lastTime
  currentTime := 10
  entry := { connectedWith sessions lastTime with readings := 1 }
  after := (Option.get _ finishes).2
  enters := rfl
  finishes := (Option.some_get finishes).symm

/-- Of the sessions 5 and 7 the first is forgotten and the second is asked to be destroyed. -/
theorem not_destroys_first : ¬ (callWith [5, 7] 0 (by decide +kernel)).Destroys := by
  rw [QueueRun.destroys_iff]
  rintro (empty | cannot | ⟨-, id, rest, same⟩)
  · cases empty
  · exact cannot ⟨⟨_, rfl, rfl⟩, by decide⟩
  · have ids : [5, 7] = id :: id :: rest := same
    simp only [List.cons.injEq] at ids
    omega

/-- Two entries for one session, and a call that is late enough. -/
theorem destroyed_same_twice :
    (callWith [5, 5] 0 (by decide +kernel)).before.sessionsToDestroy =
      [callWith [5, 5] 0 (by decide +kernel)].flatMap (·.destroyed) ++
        (callWith [5, 5] 0 (by decide +kernel)).after.sessionsToDestroy := by
  refine ((sessions_destroyed_iff (.call _ .start)).2 ?_).2
  intro c mem
  rw [List.nil_append, List.mem_singleton] at mem
  subst mem
  refine .inr (.inr ⟨?_, 5, [], rfl⟩)
  show ¬ (10 - 0 : Int).natAbs ≤ 2
  decide

end Mtproto.Manager
