import Mtproto.Manager.Turns

/-!
A step of the machine is a run of *changes*: turns, and requests that are completed.  A completed
request has its callback called, turns follow, and it leaves the list; only an error 401 can leave
it there.  Each marked change is possible in a step only where the input triggers it (`Triggers`),
so that a property kept by all other changes is kept by every step that does not trigger the marked
ones.
-/

namespace Mtproto.Manager

open Lib Program Relation

/-! ## Changes -/

/-- A running request is no longer in the list. -/
def ConnectionsManager.withoutRunning (s : ConnectionsManager) (p : Nat) : ConnectionsManager :=
  { s with runningRequests := s.runningRequests.eraseP fun r => r.id == p }

variable (env : Env) (K : Kind → Prop)

/-- While a callback is called no loop moves a request. -/
def Calling (K : Kind → Prop) (k : Kind) : Prop := K k ∧ k ≠ .requeue

inductive Change : ConnectionsManager → ConnectionsManager → Prop
  | turn {s t : ConnectionsManager} : Turn env K s t → Change s t
  | complete {s t : ConnectionsManager} (p : Nat) (running : ∃ r ∈ s.runningRequests, r.id = p)
      (turns : Turns env (Calling K) (s.record (.onComplete p)) t) : Change s (t.withoutRunning p)
  | keep {s t : ConnectionsManager} (p : Nat) (allowed : K .keepCompleted)
      (running : ∃ r ∈ s.runningRequests, r.id = p)
      (turns : Turns env (Calling K) (s.record (.onComplete p)) t) : Change s t

/-- Runs of changes. -/
abbrev Changes := ReflTransGen (Change env K)

variable {env K}

theorem changes_lift {s t : ConnectionsManager} (turns : Turns env K s t) : Changes env K s t :=
  turns.lift id fun _ _ one => .turn one

theorem changes_of_turns {α : Type} {m : M α} (kept : Keeps (Turns env K) m) :
    Keeps (Changes env K) m :=
  kept.mono fun _ _ turns => changes_lift turns

theorem changes_of_acts {α : Type} {m : M α} (kept : Keeps (Acts env) m) :
    Keeps (Changes env K) m :=
  changes_of_turns (turns_of_acts kept)

theorem changes_of_calm {α : Type} {m : M α} (kept : Keeps (Calms env) m) :
    Keeps (Changes env K) m :=
  changes_of_turns (turns_of_calm kept)

/-! ## Completed requests -/

theorem onComplete_turns {r : Request} {answer : Option Answer} {s t : ConnectionsManager}
    {u : Unit}
    (home : s.movingToDatacenterId = defaultDatacenterId ∨ K .wait)
    (arrives : r.onCompleteRequestCallback = .moveImport → answer.isSome = true →
      s.datacenter s.movingToDatacenterId = none → K .arrive)
    (exports : ∀ target, r.onCompleteRequestCallback = .moveExport target → answer = none →
      StartsWaiting target s →
      K .wait)
    (run : onComplete env r answer s = some (u, t)) :
    Turns env (Calling K) (s.record (.onComplete r.id)) t := by
  rw [onComplete, record, update_bind] at run
  refine runCallback_turns (s := s.record (.onComplete r.id)) (home.imp_right fun wait => ?_)
    (fun own answered nowhere => ?_) (fun target own failed waiting => ?_) run
  · exact ⟨wait, by decide⟩
  · exact ⟨arrives own answered nowhere, by decide⟩
  · exact ⟨exports target own failed waiting, by decide⟩

theorem onComplete_places {r : Request} {s t : ConnectionsManager} {u : Unit}
    (stays : ∀ target, r.onCompleteRequestCallback = .moveExport target →
      s.movingToDatacenterId = target.id)
    (run : onComplete env r none s = some (u, t)) : SamePlaces s t := by
  rw [onComplete, record, update_bind] at run
  have places := runCallback_places (s := s.record (.onComplete r.id)) stays run
  exact ⟨places.current, places.moving, places.authorization, places.known⟩

/-- What `finishRequest` does before the request leaves the list and after that. -/
theorem finishRequest_run {d : Nat} {r : Request} {initialised : Bool} {s t : ConnectionsManager}
    {u : Unit}
    (run : finishRequest d r initialised s = some (u, t)) :
    ∃ v, Acts env s v ∧ Calms env (v.withoutRunning r.id) t := by
  rw [finishRequest, read_bind] at run
  obtain ⟨dc, -, run⟩ := datacenter_bind run
  obtain ⟨_, v, noted, run⟩ := bind_run run
  rw [eraseRunning, update_bind] at run
  refine ⟨v, ?_, keeps_callQueue _ _ _ _ run⟩
  refine keeps_when (R := Acts env) (fun _ => ?_) _ _ _ noted
  refine keeps_bind (acts_modifyDatacenter fun dc => ?_) fun _ => acts_of_calm keeps_saveConfig
  split <;> rfl

/-- A request whose callback was called, and that is finished then. -/
theorem changes_complete {d : Nat} {r : Request} {initialised : Bool} {s v t : ConnectionsManager}
    {u : Unit}
    (running : r ∈ s.runningRequests)
    (called : Turns env (Calling K) (s.record (.onComplete r.id)) v)
    (run : finishRequest d r initialised v = some (u, t)) : Changes env K s t := by
  obtain ⟨w, before_erasure, after_erasure⟩ : ∃ w, Acts env v w ∧
      Calms env (w.withoutRunning r.id) t :=
    finishRequest_run run
  have completed : Change env K s (w.withoutRunning r.id) :=
    .complete r.id ⟨r, running, rfl⟩ (called.trans (turns_lift before_erasure))
  exact .head completed (changes_lift (turns_lift after_erasure.acts))

/-! ## Running requests -/

/-- No authorization is being exported for a migration. -/
def ConnectionsManager.NoExports (s : ConnectionsManager) : Prop :=
  ∀ r ∈ s.runningRequests, ∀ target, r.onCompleteRequestCallback ≠ .moveExport target

theorem ConnectionsManager.NoExports.of_same {s t : ConnectionsManager} (none : s.NoExports)
    (same : t.runningRequests = s.runningRequests) : t.NoExports :=
  fun r mem => none r (same ▸ mem)

theorem ConnectionsManager.NoExports.modifyRequest {s : ConnectionsManager} (none : s.NoExports)
    (p : Nat)
    {f : Request → Request}
    (same : ∀ r, (f r).onCompleteRequestCallback = r.onCompleteRequestCallback) :
    (s.modifyRequest p f).NoExports := by
  intro r mem target
  obtain ⟨r', old, rfl⟩ := List.mem_map.1 mem
  split
  · rw [same]
    exact none r' old target
  · exact none r' old target

/-- Only a loop brings a request into the list. -/
theorem Turn.noExports {s t : ConnectionsManager} (turn : Turn env (Calling K) s t)
    (none : s.NoExports) :
    t.NoExports := by
  have acts : ∀ {s t : ConnectionsManager}, Act env s t → s.NoExports → t.NoExports := by
    intro s t act none
    cases act with
    | edit p edit =>
        cases edit with
        | calm calm => exact none.of_same calm.undisturbed.runningRequests
        | request f settled => exact none.modifyRequest p fun r => (settled r).callback
    | datacenter d f same =>
        refine none.of_same ?_
        unfold ConnectionsManager.modifyDatacenter
        split <;> rfl
    | drop queue running queued ran => exact fun r mem => none r (ran.subset mem)
    | _ => exact none.of_same rfl
  cases turn with
  | act act => exact acts act none
  | rest same => exact none.of_same same.runningRequests
  | request p f same => exact none.modifyRequest p fun r => (same r).callback
  | toQueue p r allowed running => exact absurd rfl allowed.2
  | toRunning p r allowed queued => exact absurd rfl allowed.2
  | cancelRunning p running => exact fun r mem => none r (List.mem_of_mem_eraseP mem)
  | migrate id run known =>
      have moved : ∀ {s t : ConnectionsManager}, Acts env s t → s.NoExports → t.NoExports := by
        intro s t run none
        induction run with
        | refl => exact none
        | tail _ act ih => exact acts act ih
      exact (moved run (none.of_same rfl)).of_same rfl
  | configure d f =>
      refine none.of_same ?_
      unfold ConnectionsManager.modifyDatacenter
      split <;> rfl
  | _ => exact none.of_same rfl

theorem Turns.noExports {s t : ConnectionsManager} (turns : Turns env (Calling K) s t)
    (none : s.NoExports) :
    t.NoExports := by
  induction turns with
  | refl => exact none
  | tail _ turn ih => exact turn.noExports ih

/-- The client does not move, and no authorization is exported for a migration; or it may wait. -/
def Settles (K : Kind → Prop) (s : ConnectionsManager) : Prop :=
  (s.movingToDatacenterId = defaultDatacenterId ∧ s.NoExports) ∨ K .wait

theorem Settles.home {s : ConnectionsManager} (settles : Settles K s) :
    s.movingToDatacenterId = defaultDatacenterId ∨ K .wait :=
  settles.imp_left And.left

variable (env K) in
/-- Changes from a state that settles to another one. -/
def Guarded (s t : ConnectionsManager) : Prop := Settles K s → Changes env K s t ∧ Settles K t

instance : IsPreorder ConnectionsManager (Guarded env K) where
  refl _ settles := ⟨.refl, settles⟩
  trans _ _ _ first second settles :=
    have here := first settles
    have there := second here.2
    ⟨here.1.trans there.1, there.2⟩

theorem guarded_of_turns {α : Type} {m : M α} (kept : ∀ J : Kind → Prop, Keeps (Turns env J) m) :
    Keeps (Guarded env K) m := by
  intro s a t run settles
  have turns : Turns env K s t := kept K s a t run
  refine ⟨changes_lift turns, ?_⟩
  rcases settles with ⟨home, none⟩ | wait
  · have calling : Turns env (Calling K) s t := kept (Calling K) s a t run
    exact (turns.home (.inl home)).imp_left fun home => ⟨home, calling.noExports none⟩
  · exact .inr wait

theorem guarded_of_calm {α : Type} {m : M α} (kept : Keeps (Calms env) m) :
    Keeps (Guarded env K) m :=
  guarded_of_turns fun _ => turns_of_calm kept

theorem guarded_moveToQueue (loop : K .requeue) (p : Nat) :
    Keeps (Guarded env K) (moveToQueue p) := by
  intro s u t run settles
  refine ⟨changes_lift (turns_moveToQueue loop p _ _ _ run), ?_⟩
  obtain ⟨r, -, run⟩ := runningRequest_bind run
  rw [update_run run]
  exact settles.imp_left fun ⟨home, exportless⟩ =>
    ⟨home, fun r mem => exportless r (List.mem_of_mem_eraseP mem)⟩

theorem guarded_failRequest (p : Nat) : Keeps (Guarded env K) (failRequest env p) := by
  intro s u t run settles
  obtain ⟨r, running, run⟩ := runningRequest_bind run
  obtain ⟨_, v, called, run⟩ := bind_run run
  have own : r.id = p := by simpa using List.find?_some running
  have mem := List.mem_of_find?_eq_some running
  have turns : Turns env (Calling K) (s.record (.onComplete p)) v := by
    refine own ▸ onComplete_turns settles.home (fun _ answered => by cases answered)
      (fun target own _ _ => ?_)
      called
    exact settles.resolve_left fun ⟨_, exportless⟩ => exportless r mem target own
  rw [update_run run]
  refine ⟨.single (.complete p ⟨r, mem, own⟩ turns), ?_⟩
  rcases settles with ⟨home, none⟩ | wait
  · have later := turns.home (.inl home)
    have quiet : v.NoExports := turns.noExports (none.of_same rfl)
    exact later.imp (fun home => ⟨home, fun r mem => quiet r (List.mem_of_mem_eraseP mem)⟩)
      fun calling => calling.1
  · exact .inr wait

theorem guarded_retryIfDue (call : QueueCall) (currentTime : Int) (p : Nat) (c : ConnectionId) :
    Keeps (Guarded env K) (retryIfDue env call currentTime p c) := by
  refine keeps_bind (keeps_runningRequest p) fun r => ?_
  refine keeps_bind (keeps_when fun _ => guarded_of_turns fun _ => turns_request fun r => ?_)
    fun _ => ?_
  · split <;> exact ⟨rfl, rfl, rfl, rfl⟩
  refine keeps_bind (keeps_runningRequest p) fun r => keeps_bind keeps_read fun s =>
    keeps_when fun _ => ?_
  refine keeps_bind (guarded_of_turns fun _ => turns_request fun _ => ⟨rfl, rfl, rfl, rfl⟩) fun _ =>
    ?_
  refine keeps_bind (keeps_runningRequest p) fun r =>
    keeps_ite (fun _ => guarded_failRequest p) fun _ => ?_
  exact guarded_of_turns fun _ => turns_retryRequest call currentTime p c

theorem guarded_runningInDatacenter (loop : K .requeue) (call : QueueCall) (currentTime : Int)
    (p d : Nat) :
    Keeps (Guarded env K) (runningInDatacenter env call currentTime p d) := by
  refine keeps_bind (keeps_datacenter d) fun dc => ?_
  refine keeps_bind (keeps_when fun _ => guarded_of_turns fun _ => turns_request fun _ =>
    ⟨rfl, rfl, rfl, rfl⟩)
    fun _ => ?_
  refine keeps_bind (keeps_runningRequest p) fun r => keeps_bind keeps_read fun s => ?_
  refine keeps_ite (fun _ => guarded_moveToQueue loop p) fun _ => ?_
  refine keeps_ite (fun _ => guarded_of_calm (keeps_addNeededDatacenter _ _)) fun _ => ?_
  refine keeps_ite (fun _ => guarded_of_calm (keeps_addUnauthorizedDatacenter _)) fun _ => ?_
  refine keeps_bind (guarded_of_calm (keeps_getConnectionByType _ _ _)) fun connection => ?_
  refine keeps_bind keeps_read fun s => keeps_when fun _ => keeps_bind (keeps_require _) fun c => ?_
  exact keeps_when fun _ => guarded_retryIfDue call currentTime p c

theorem guarded_runningLoop (loop : K .requeue) (call : QueueCall) (currentTime : Int) :
    Keeps (Guarded env K) (runningLoop env call currentTime) := by
  refine keeps_bind keeps_read fun s => keeps_each fun p _ => ?_
  refine keeps_bind (keeps_runningRequest p) fun r => keeps_bind keeps_read fun s =>
    keeps_when fun _ => ?_
  refine keeps_bind (guarded_of_calm (keeps_countRunning _ _)) fun _ => ?_
  refine keeps_bind (guarded_of_calm (keeps_leavesForDifferentDc _ _)) fun leaves => ?_
  refine keeps_ite (fun _ => guarded_moveToQueue loop p) fun _ => ?_
  refine keeps_bind (guarded_of_calm (keeps_getDatacenterWithId _)) fun found => ?_
  split
  · exact guarded_of_calm (keeps_addUnknownDatacenter _)
  · exact guarded_runningInDatacenter loop call currentTime p _

theorem turns_destroySession (currentTime : Int) :
    Keeps (Turns env K) (destroySession env currentTime) := by
  refine keeps_bind keeps_read fun s =>
    keeps_bind (turns_of_calm (keeps_getDatacenterWithId _)) fun found => ?_
  split
  · exact keeps_pure _
  refine keeps_bind (turns_of_calm (keeps_getConnection _ _)) fun connection => ?_
  split
  · exact keeps_pure _
  refine keeps_bind keeps_read fun s => keeps_when fun _ => ?_
  refine keeps_bind (turns_rest fun _ => by constructor <;> rfl) fun _ => keeps_when fun _ => ?_
  refine keeps_bind (turns_rest fun _ => by constructor <;> rfl) fun _ =>
    keeps_bind keeps_read fun s => ?_
  refine keeps_bind (keeps_require _) fun session =>
    keeps_bind (turns_of_calm (keeps_newMessage _)) fun m => ?_
  refine keeps_bind (turns_of_calm keeps_reading) fun n => turns_rest fun s => ?_
  constructor <;> rfl

/-! ## The queue -/

/-- A loop comes to an entry in a state. -/
inductive Visits {σ α : Type} (f : α → Program σ Unit) : List α → σ → α → σ → Prop
  | here (a : α) (as : List α) (s : σ) : Visits f (a :: as) s a s
  | later {a b : α} {as : List α} {s t u : σ} (run : f a s = some ((), t))
      (rest : Visits f as t b u) :
      Visits f (a :: as) s b u

/-- A relation that every visited entry keeps is kept by the loop. -/
theorem each_visits {σ α : Type} {R : σ → σ → Prop} [IsPreorder σ R] {f : α → Program σ Unit}
    {as : List α}
    {s t : σ} {x : Unit} (kept : ∀ a u v, Visits f as s a u → f a u = some ((), v) → R u v)
    (run : each f as s = some (x, t)) : R s t := by
  induction as generalizing s with
  | nil =>
      rw [(pure_run run).2]
      exact refl s
  | cons a as ih =>
      obtain ⟨⟨⟩, u, first, rest⟩ := bind_run run
      have head : R s u := kept a s u (.here a as s) first
      exact IsTrans.trans s u t head
        (ih (fun b v w visited => kept b v w (.later first visited)) rest)

/-- The state in which the loop over the queue begins, with the time of the call. -/
def beforeQueueLoop (env : Env) (call : QueueCall) : M Int := do
  update fun s => s.clearWork
  let n ← reading
  runningLoop env call (env.currentTime n)
  destroySession env (env.currentTime n)
  pure (env.currentTime n)

/-- In a call of `processRequestQueue` a waiting request switches although there is no other
datacenter. -/
def CallSwitchesToNothing (env : Env) (call : QueueCall) (s : ConnectionsManager) : Prop :=
  ∃ currentTime v p u, beforeQueueLoop env call s = some (currentTime, v) ∧
    Visits (queueStep env currentTime) (v.requestsQueue.map (·.id)) v p u ∧
      SwitchesToNothing currentTime p u

theorem processRequestQueue_changes {call : QueueCall} {s t : ConnectionsManager} {u : Unit}
    (requeue : K .requeue)
    (settles : Settles K s)
    (alone : CallSwitchesToNothing env call s → K .switchToNothing)
    (run : processRequestQueue env call s = some (u, t)) : Changes env K s t := by
  rw [processRequestQueue, update_bind, reading_bind] at run
  have cleared : SameWorld s { s.clearWork with readings := s.readings + 1 } := by
    constructor <;> first | rfl | exact Nat.le_succ _
  refine .head (.turn (.rest cleared)) ?_
  obtain ⟨_, v, running, run⟩ := bind_run run
  obtain ⟨_, w, destroyed, run⟩ := bind_run run
  obtain ⟨_, x, queued, run⟩ := bind_run run
  have prefixed : beforeQueueLoop env call s = some (env.currentTime s.readings, w) := by
    rw [beforeQueueLoop, update_bind, reading_bind, bind_apply, running]
    simp only [Option.bind_some, bind_apply, destroyed, pure_apply]
    rfl
  have loop : Turns env K w x := by
    rw [queueLoop, read_bind] at queued
    refine each_visits (R := Turns env K) (fun p u' v' visited run => ?_) queued
    exact queueStep_turns requeue (fun switches =>
      alone ⟨_, w, p, u', prefixed, visited, switches⟩) run
  have loops : Settles K { s.clearWork with readings := s.readings + 1 } :=
    settles.imp_left fun ⟨home, exportless⟩ => ⟨home, exportless.of_same rfl⟩
  refine .trans (guarded_runningLoop requeue call _ _ _ _ running loops).1 ?_
  refine .trans (changes_lift ((turns_destroySession _ _ _ _ destroyed).trans loop)) ?_
  refine keeps_bind (R := Changes env K) (changes_of_calm keeps_confirmationLoop) (fun _ =>
    ?_) _ _ _ run
  refine keeps_bind (changes_of_calm (keeps_sendAllBatches call)) fun _ => ?_
  exact changes_of_acts (acts_finishQueue call)

/-! ## Answers -/

/-- The error 401 finds the request in a datacenter that is neither the current one nor the one the
client moves to, or the request's callback makes the client move. -/
def UnauthorizedElsewhere (c : ConnectionId) (r : Request) (text : String)
    (s : ConnectionsManager) : Prop :=
  containsText text "SESSION_PASSWORD_NEEDED" = false ∧
    ((c.datacenter ≠ s.currentDatacenterId ∧ c.datacenter ≠ s.movingToDatacenterId) ∨
      ∃ target, r.onCompleteRequestCallback = .moveExport target ∧
        s.movingToDatacenterId ≠ target.id)

theorem onUnauthorizedError_changes {c : ConnectionId} {r : Request} {text : String}
    {s v t : ConnectionsManager}
    {u : Unit} (running : r ∈ s.runningRequests)
    (called : Turns env (Calling K) (s.record (.onComplete r.id)) v)
    (places : c.datacenter = v.currentDatacenterId ∨ c.datacenter = v.movingToDatacenterId ∨
      containsText text "SESSION_PASSWORD_NEEDED" = true ∨ K .keepCompleted)
    (run : onUnauthorizedError c.datacenter r text v = some (u, t)) : Changes env K s t := by
  rw [onUnauthorizedError, read_bind] at run
  split at run
  · exact changes_complete running called run
  · next password =>
      split at run
      · obtain ⟨_, w, logout, run⟩ := bind_run run
        have turns : Turns env (Calling K) v w := by
          refine keeps_when (R := Turns env (Calling K)) (fun _ => ?_) _ _ _ logout
          exact keeps_bind (turns_rest fun _ => by constructor <;> rfl) fun _ =>
            turns_of_same (same_scheduleTask _)
        exact changes_complete running (called.trans turns) run
      · next elsewhere =>
          have allowed : K .keepCompleted := by
            rcases places with current | moving | needed | allowed
            · exact absurd (.inl current) elsewhere
            · exact absurd (.inr moving) elsewhere
            · exact absurd needed password
            · exact allowed
          have kept : Keeps (Turns env (Calling K)) (do
              modifyDatacenter c.datacenter fun dc => { dc with authorized := false }
              saveConfig
              keepRequest r.id
              if (hasBits r.connectionType ConnectionType.download = true ∨
                  hasBits r.connectionType ConnectionType.upload = true) ∧
                  c.datacenter ≠ defaultDatacenterId - 1 then
                callQueue ⟨r.connectionType, c.datacenter, false⟩
              else callQueueForAll) := by
            refine keeps_bind (turns_configure _ _) fun _ =>
              keeps_bind (turns_of_calm keeps_saveConfig) fun _ => ?_
            refine keeps_bind (turns_of_acts (acts_modifyRequest fun r => settled_clear r false))
              fun _ => ?_
            exact keeps_ite (fun _ => turns_of_calm (keeps_callQueue _)) fun _ =>
              turns_of_calm (keeps_callQueue _)
          exact .single (.keep r.id allowed ⟨r, running, rfl⟩ (called.trans (kept _ _ _ run)))

/-- An error 401 that is handed to a request elsewhere. -/
def KeepsCompleted (c : ConnectionId) (r : Request) (object : RpcObject)
    (s : ConnectionsManager) : Prop :=
  ∃ text, object = .rpcError 401 text ∧ containsText text "AUTH_KEY_PERM_EMPTY" = false ∧
    UnauthorizedElsewhere c r text s

theorem retryAfterError_401 {r : Request} {text : String} {now : Int}
    (retry : retryAfterError r 401 text now = none) :
    containsText text "AUTH_KEY_PERM_EMPTY" = false := by
  cases lost : containsText text "AUTH_KEY_PERM_EMPTY" with
  | false => rfl
  | true =>
      simp [retryAfterError, isAuthKeyPermEmpty, lost] at retry

theorem onRpcError_changes {c : ConnectionId} {r : Request} {code : Int} {text : String}
    {s t : ConnectionsManager}
    {u : Unit} (running : r ∈ s.runningRequests)
    (home : s.movingToDatacenterId = defaultDatacenterId ∨ K .wait)
    (exports : ∀ target, r.onCompleteRequestCallback = .moveExport target → StartsWaiting target s →
      K .wait)
    (keeps : KeepsCompleted c r (.rpcError code text) s → K .keepCompleted)
    (run : onRpcError env c r code text s = some (u, t)) : Changes env K s t := by
  rw [onRpcError, reading_bind] at run
  have clock : SameWorld s { s with readings := s.readings + 1 } := by
    constructor <;> first | rfl | exact Nat.le_succ _
  refine .head (.turn (.rest clock)) ?_
  cases retry : retryAfterError r code text ((env.currentTimeMonotonicMillis s.readings).tdiv 1000)
    with
  | some r' =>
      simp only [retry] at run
      have kept : Keeps (Acts env) (do
          modifyRequest r.id fun r =>
            (retryAfterError r code text
              ((env.currentTimeMonotonicMillis s.readings).tdiv 1000)).getD r
          when (isAuthKeyPermEmpty code text) (restartHandshake env c false)
          keepRequest r.id
          callQueueForAll) := by
        refine keeps_bind (acts_modifyRequest fun r => settled_retryAfterError r code text _)
          fun _ => ?_
        refine keeps_bind (keeps_when fun _ => acts_restartHandshake c false) fun _ => ?_
        refine keeps_bind (acts_modifyRequest fun r => settled_clear r false) fun _ => ?_
        exact acts_of_calm (keeps_callQueue _)
      exact changes_lift (turns_lift (kept _ _ _ run))
  | none =>
      simp only [retry] at run
      obtain ⟨_, v, called, run⟩ := bind_run run
      have turns :
        Turns env (Calling K) (({ s with readings := s.readings + 1 } : ConnectionsManager).record
          (.onComplete r.id)) v :=
        onComplete_turns (s := { s with readings := s.readings + 1 }) home
          (fun _ answered => by cases answered)
          (fun target own _ => exports target own) called
      split at run
      · next unauthorized =>
          refine onUnauthorizedError_changes running turns ?_ run
          by_contra elsewhere
          push Not at elsewhere
          obtain ⟨notCurrent, notMoving, password, notKept⟩ := elsewhere
          subst unauthorized
          refine notKept (keeps ⟨text, rfl, retryAfterError_401 retry, Bool.eq_false_iff.2 password,
            ?_⟩)
          by_contra stays
          push Not at stays
          have places :=
            onComplete_places (s := { s with readings := s.readings + 1 }) stays.2 called
          rw [places.current] at notCurrent
          rw [places.moving] at notMoving
          exact notMoving (stays.1 notCurrent)
      · rw [read_bind] at run
        obtain ⟨_, w, cleaned, run⟩ := bind_run run
        have after_call : Turns env (Calling K) v w :=
          turns_of_same (keeps_when fun _ => same_scheduleTask _) _ _ _ cleaned
        exact changes_complete running (turns.trans after_call) run

/-- The answer to the import of a migration, while the client moves to no known datacenter. -/
def ArrivesNowhere (r : Request) (s : ConnectionsManager) : Prop :=
  r.onCompleteRequestCallback = .moveImport ∧ s.datacenter s.movingToDatacenterId = none

theorem answerRequest_changes {c : ConnectionId} {r : Request} {result : RpcResult}
    {s t : ConnectionsManager}
    {u : Unit} (running : r ∈ s.runningRequests)
    (home : s.movingToDatacenterId = defaultDatacenterId ∨ K .wait)
    (exports : ∀ target, r.onCompleteRequestCallback = .moveExport target → StartsWaiting target s →
      K .wait)
    (keeps : ∀ object, result.unpacked = some object → r.onCompleteRequestCallback ≠ .none →
      KeepsCompleted c r object s → K .keepCompleted)
    (arrives : ∀ answer, result.unpacked = some (.answer answer) → ArrivesNowhere r s → K .arrive)
    (run : answerRequest env c r result s = some (u, t)) : Changes env K s t := by
  have failed : ∀ {t : ConnectionsManager} {u : Unit}, (onComplete env r none >>= fun _ =>
      finishRequest c.datacenter r false) s = some (u, t) → Changes env K s t := by
    intro t u run
    obtain ⟨_, v, called, run⟩ := bind_run run
    refine changes_complete running
      (onComplete_turns home (fun _ answered => ?_) (fun target own _ => ?_) called) run
    · cases answered
    · exact exports target own
  unfold answerRequest at run
  cases callback : r.onCompleteRequestCallback with
  | none =>
      simp only [callback] at run
      exact changes_lift (turns_lift (acts_finishRequest _ _ _ _ _ _ run))
  | _ =>
      simp only [callback] at run
      cases unpacked : result.unpacked with
      | none =>
          simp only [unpacked] at run
          exact failed run
      | some object =>
          simp only [unpacked] at run
          cases object with
          | rpcError code text =>
              exact onRpcError_changes running home exports
                (keeps _ unpacked (by rw [callback]; intro h; cases h)) run
          | tlError => exact failed run
          | answer answer =>
              obtain ⟨_, v, called, run⟩ := bind_run run
              refine changes_complete running (onComplete_turns home (fun own _ nowhere =>
                ?_) (fun _ _ failed => ?_)
                called) run
              · exact arrives answer unpacked ⟨own, nowhere⟩
              · cases failed

/-- The message keeps a request in the list although its callback was called. -/
def ServerMessage.KeepsCompleted (m : ServerMessage) (c : ConnectionId)
    (s : ConnectionsManager) : Prop :=
  ∃ reqMsgId result r object, m = .rpcResult reqMsgId result ∧
    s.runningRequests.find? (fun r => r.respondsToMessageId reqMsgId) = some r ∧
      r.onCompleteRequestCallback ≠ .none ∧ result.unpacked = some object ∧
        Manager.KeepsCompleted c r object s

/-- The message answers the import of a migration, while the client moves to no known datacenter. -/
def ServerMessage.Arrives (m : ServerMessage) (s : ConnectionsManager) : Prop :=
  ∃ reqMsgId r,
      ((∃ result answer, m = .rpcResult reqMsgId result ∧ result.unpacked = some (.answer answer)) ∨
        m = .futureSalts reqMsgId) ∧
    s.runningRequests.find? (fun r => r.respondsToMessageId reqMsgId) = some r ∧ ArrivesNowhere r s

/-- The message makes the client move, and wait for an answer. -/
def ServerMessage.Waits (m : ServerMessage) (s : ConnectionsManager) : Prop :=
  ∃ reqMsgId result target, m = .rpcResult reqMsgId result ∧ StartsWaiting target s ∧
    (result.migrateTo = target.id ∨
      ∃ r, s.runningRequests.find? (fun r => r.respondsToMessageId reqMsgId) = some r ∧
      r.onCompleteRequestCallback = .moveExport target)

/-- The message sets `lastOutgoingMessageId`. -/
def ServerMessage.startsOver (m : ServerMessage) (messageId : Int) : Bool :=
  match m with
  | .badMsgNotification _ errorCode => decide (errorCode ∈ [16, 17, 19, 32, 33, 64])
  | .badServerSalt _ => decide (messageId ≠ 0)
  | _ => false

theorem onRpcResult_changes {c : ConnectionId} {reqMsgId : Int} {result : RpcResult}
    {s t : ConnectionsManager}
    {u : Unit} (home : s.movingToDatacenterId = defaultDatacenterId ∨ K .wait)
    (keeps : (ServerMessage.rpcResult reqMsgId result).KeepsCompleted c s → K .keepCompleted)
    (arrives : (ServerMessage.rpcResult reqMsgId result).Arrives s → K .arrive)
    (waits : (ServerMessage.rpcResult reqMsgId result).Waits s → K .wait)
    (run : onRpcResult env c reqMsgId result s = some (u, t)) : Changes env K s t := by
  unfold onRpcResult at run
  split at run
  · rw [read_bind] at run
    cases found : s.runningRequests.find? fun r => r.respondsToMessageId reqMsgId with
    | none =>
        rw [found] at run
        exact changes_of_calm (keeps_callQueue _) _ _ _ run
    | some r =>
        rw [found] at run
        refine answerRequest_changes (List.mem_of_find?_eq_some found) home
          (fun target export_of waiting => ?_)
          (fun object unpacked called kept => ?_) (fun answer unpacked nowhere => ?_) run
        · exact waits ⟨reqMsgId, result, target, rfl, waiting, .inr ⟨r, found, export_of⟩⟩
        · exact keeps ⟨reqMsgId, result, r, object, rfl, found, called, unpacked, kept⟩
        · exact arrives ⟨reqMsgId, r, .inl ⟨result, answer, rfl, unpacked⟩, found, nowhere⟩
  · obtain ⟨_, v, moved, run⟩ := bind_run run
    have turns : Turns env K s v :=
      moveToDatacenter_turns (fun waiting => waits ⟨reqMsgId, result, _, rfl, waiting, .inl rfl⟩)
        moved
    exact .trans (changes_lift turns) (changes_of_calm (keeps_callQueue _) _ _ _ run)

theorem onFutureSalts_changes {reqMsgId : Int} {s t : ConnectionsManager} {u : Unit}
    (home : s.movingToDatacenterId = defaultDatacenterId ∨ K .wait)
    (arrives : (ServerMessage.futureSalts reqMsgId).Arrives s → K .arrive)
    (run : onFutureSalts env reqMsgId s = some (u, t)) : Changes env K s t := by
  rw [onFutureSalts, read_bind] at run
  cases found : s.runningRequests.find? fun r => r.respondsToMessageId reqMsgId with
  | none =>
      rw [found] at run
      rw [(pure_run run).2]
  | some r =>
      rw [found] at run
      obtain ⟨_, v, called, run⟩ := bind_run run
      have turns : Turns env (Calling K) (s.record (.onComplete r.id)) v :=
        onComplete_turns home (fun own _ nowhere =>
          arrives ⟨reqMsgId, r, .inr rfl, found, own, nowhere⟩)
          (fun _ _ failed => by cases failed) called
      rw [update_run run]
      exact .single (.complete r.id ⟨r, List.mem_of_find?_eq_some found, rfl⟩ turns)

theorem turns_startOver {f : ConnectionsManager → Int} (allowed : K .startOver) :
    Keeps (Turns env K) (update fun s : ConnectionsManager =>
      { s with lastOutgoingMessageId := f s }) :=
  keeps_update fun s => .single (.startOver (f s) allowed)

theorem turns_onBadMsgNotification
    {messageId innerMsgId containerMessageId badMsgId errorCode : Int}
    {c : ConnectionId}
    (anew : (ServerMessage.badMsgNotification badMsgId errorCode).startsOver messageId = true →
      K .startOver) :
    Keeps (Turns env K)
      (onBadMsgNotification env c messageId innerMsgId containerMessageId badMsgId errorCode) := by
  refine keeps_ite (fun code => ?_) fun _ => keeps_when fun _ =>
    turns_of_acts (acts_clearResponding _ _ _)
  refine keeps_bind (keeps_when fun _ => turns_of_calm (keeps_correctTime _)) fun _ => ?_
  refine keeps_bind (turns_of_acts (acts_recreateSessions _ _)) fun _ => ?_
  refine keeps_bind (turns_of_calm keeps_saveConfig) fun _ => ?_
  refine keeps_bind (turns_startOver (f := fun _ => 0) (anew (decide_eq_true code))) fun _ => ?_
  exact turns_of_acts (acts_clearRequestsForDatacenter _ _)

theorem turns_onBadServerSalt {messageId badMsgId : Int} {c : ConnectionId}
    (anew : (ServerMessage.badServerSalt badMsgId).startsOver messageId = true → K .startOver) :
    Keeps (Turns env K) (onBadServerSalt env c messageId badMsgId) := by
  refine keeps_bind (keeps_when fun sent => ?_) fun _ => ?_
  · refine keeps_bind (turns_of_calm (keeps_correctTime _)) fun _ => ?_
    exact turns_startOver (f := fun s => saltedLastId messageId s.lastOutgoingMessageId)
      (anew (decide_eq_true sent))
  refine keeps_bind (keeps_when fun _ => turns_of_acts (acts_failBySalt _)) fun _ => ?_
  refine keeps_bind (turns_of_calm keeps_saveConfig) fun _ => ?_
  refine keeps_bind (turns_of_calm (keeps_requestSaltsForDatacenter _)) fun _ => ?_
  exact keeps_bind (keeps_hasAuthKey _) fun key => keeps_when fun _ =>
    turns_of_calm (keeps_callQueue _)

theorem processServerResponse_changes {m : ServerMessage}
    {messageId innerMsgId containerMessageId : Int}
    {c : ConnectionId} {s t : ConnectionsManager} {u : Unit}
    (home : s.movingToDatacenterId = defaultDatacenterId ∨ K .wait)
    (keeps : m.KeepsCompleted c s → K .keepCompleted) (arrives : m.Arrives s → K .arrive)
    (waits : m.Waits s → K .wait)
    (anew : m.startsOver messageId = true → K .startOver)
    (run : processServerResponse env m messageId c innerMsgId containerMessageId s = some (u, t)) :
    Changes env K s t := by
  cases m with
  | newSessionCreated firstMsgId uniqueId =>
      exact changes_of_acts (acts_onNewSession _ _ _) _ _ _ run
  | pong pingId => exact changes_of_acts (acts_onPong _ _ _) _ _ _ run
  | futureSalts reqMsgId => exact onFutureSalts_changes home arrives run
  | rpcResult reqMsgId result => exact onRpcResult_changes home keeps arrives waits run
  | badMsgNotification badMsgId errorCode =>
      exact changes_lift (turns_onBadMsgNotification anew _ _ _ run)
  | badServerSalt badMsgId => exact changes_lift (turns_onBadServerSalt anew _ _ _ run)
  | msgsStateInfo reqMsgId => exact changes_of_acts (acts_onMsgsStateInfo _ _) _ _ _ run
  | msgDetailedInfo msgId answerMsgId =>
      exact changes_of_acts (acts_onMsgDetailedInfo _ _ _) _ _ _ run
  | msgNewDetailedInfo answerMsgId =>
      exact changes_of_acts (acts_onMsgNewDetailedInfo _ _ _) _ _ _ run
  | other => rw [(pure_run run).2]

/-! ## Tasks and sockets -/

theorem turns_cleanUp (resetKeys : Bool) : Keeps (Turns env K) (cleanUp env resetKeys) := by
  refine keeps_bind (keeps_update fun s => .single (.act ?_)) fun _ =>
    keeps_bind keeps_read fun s => ?_
  · exact .drop [] [] (List.nil_sublist _) (List.nil_sublist _)
  refine keeps_bind (keeps_each fun d _ => ?_) fun _ => ?_
  · refine keeps_bind (keeps_datacenter d) fun dc =>
      keeps_bind (keeps_when fun _ => turns_configure d _) fun _ => ?_
    exact keeps_bind (turns_of_acts (acts_recreateSessions _ _)) fun _ => turns_configure d _
  · exact keeps_bind (turns_rest fun _ => by constructor <;> rfl) fun _ =>
      turns_of_calm keeps_saveConfig

theorem turns_checkProxyInternal (info : ProxyCheckInfo) :
    Keeps (Turns env K) (checkProxyInternal env info) := by
  refine keeps_bind keeps_read fun s => ?_
  split
  · exact turns_rest fun _ => by constructor <;> rfl
  refine keeps_bind (turns_of_calm (keeps_getDatacenterWithId _)) fun found => ?_
  refine keeps_bind (keeps_require _) fun d =>
    keeps_bind (turns_of_calm (keeps_getConnection _ _)) fun connection => ?_
  split
  · exact keeps_pure _
  refine keeps_bind (turns_of_acts (acts_suspendConnection _ _)) fun _ => ?_
  refine keeps_bind (turns_of_same same_newRequestToken) fun token => ?_
  refine keeps_bind (turns_of_same (same_sendRequest _)) fun _ => turns_rest fun _ => ?_
  constructor <;> rfl

theorem Calms.pushSessionId {s t : ConnectionsManager} (calm : Calms env s t) :
    t.pushSessionId = s.pushSessionId := by
  induction calm with
  | refl => rfl
  | tail _ last ih =>
      refine Eq.trans ?_ ih
      cases last with
      | other same => exact same.pushSessionId
      | batch b d messages plain => cases b <;> rfl
      | _ => rfl

theorem turns_openPushConnection (allowed : K .pushSession) :
    Keeps (Turns env K) (openPushConnection env) := by
  intro s u t run
  rw [openPushConnection, read_bind] at run
  obtain ⟨found, v, looked, run⟩ := bind_run run
  have first : Calms env s v := keeps_getDatacenterWithId _ _ _ _ looked
  refine .trans (turns_lift first.acts) ?_
  cases found with
  | none => rw [(pure_run run).2]
  | some d =>
      obtain ⟨_, w, created, run⟩ := bind_run run
      have second : Calms env v w := keeps_createConnection _ _ _ _ created
      refine .trans (turns_lift second.acts) ?_
      obtain ⟨_, x, taken, run⟩ := bind_run run
      have calm : Calms env s w := first.trans second
      rw [update_run taken, ← calm.pushSessionId] at run
      exact .head (.pushSession d allowed) (turns_of_calm (keeps_sendPing d true) _ _ _ run)

theorem turns_setUserId {userId : Int} (allowed : K .pushSession) :
    Keeps (Turns env K) (setUserId env userId) := by
  refine keeps_bind (turns_rest fun _ => by constructor <;> rfl) fun _ =>
    keeps_bind keeps_read fun s => ?_
  exact keeps_when fun _ => turns_openPushConnection allowed

theorem turns_setPushConnectionEnabled {value : Bool} (allowed : value = true → K .pushSession) :
    Keeps (Turns env K) (setPushConnectionEnabled env value) := by
  refine keeps_bind (turns_rest fun _ => by constructor <;> rfl) fun _ => ?_
  refine keeps_ite (fun enabled => turns_openPushConnection (allowed enabled)) fun _ => ?_
  refine keeps_bind keeps_read fun s =>
    keeps_bind (turns_of_calm (keeps_getDatacenterWithId _)) fun found => ?_
  split
  · exact keeps_pure _
  · refine keeps_bind (turns_of_calm (keeps_getConnection _ _)) fun connection => ?_
    split
    · exact keeps_pure _
    · exact turns_of_acts (acts_suspendConnection _ _)

theorem turns_setNetworkAvailable (value : Bool) :
    Keeps (Turns env K) (setNetworkAvailable env value) := by
  refine keeps_bind (turns_rest fun _ => by constructor <;> rfl) fun _ =>
    keeps_bind keeps_read fun s => ?_
  refine keeps_when fun _ => keeps_each fun d _ => keeps_bind (keeps_datacenter d) fun dc => ?_
  have opened : ∀ c, Keeps (Turns env K) (do createConnection env c; connect env c) := fun c =>
    turns_of_calm (keeps_bind (keeps_createConnection c) fun _ => keeps_connect c)
  exact keeps_ite (fun _ => opened _) fun _ => keeps_when fun _ => opened _

theorem Task.turns {task : Task} (push : ∀ userId, task = .setUserId userId → K .pushSession) :
    Keeps (Turns env K) (task.run env) := by
  cases task with
  | sendRequest args => exact turns_enqueueRequest args
  | cancelRequest token notifyServer => exact turns_cancelRequestInternal token 0 notifyServer
  | cleanUp resetKeys => exact turns_cleanUp resetKeys
  | processRequestQueue connectionTypes dc => exact turns_of_calm (keeps_callQueue _)
  | handshakeComplete d type timeDifference =>
      exact turns_of_acts (acts_onHandshakeComplete d type timeDifference)
  | proxyConnectionClosed c => exact turns_of_acts (acts_onProxyConnectionClosed c)
  | checkProxy info => exact turns_checkProxyInternal info
  | setUserId userId => exact turns_setUserId (push userId rfl)

theorem turns_takeToken (c : ConnectionId) : Keeps (Turns env K) (takeToken c) := by
  intro s u t run
  obtain ⟨x, exist, run⟩ := connection_bind run
  rw [read_bind] at run
  split at run
  · cases run
  · next connecting =>
      rw [modifyConnection, update_bind, update_bind] at run
      rw [update_run run, ConnectionsManager.modifyConnection, exist]
      exact .single (.token c x exist (not_not.1 connecting))

theorem turns_onConnectionConnected (c : ConnectionId) :
    Keeps (Turns env K) (onConnectionConnected env c) := by
  refine keeps_bind (keeps_datacenter _) fun dc => keeps_when fun _ =>
    keeps_ite (fun _ => ?_) fun _ => ?_
  · exact keeps_bind (turns_rest fun _ => by constructor <;> rfl) fun _ =>
      turns_of_calm (keeps_sendPing _ true)
  · exact turns_of_calm (keeps_callQueue _)

/-! ## Steps -/

/-- What an input can lead to in a state. -/
def Triggers (env : Env) (input : Input) (s : ConnectionsManager) : Kind → Prop
  | .arrive => ∃ m messageId c innerMsgId containerMessageId,
      input = .received m messageId c innerMsgId containerMessageId ∧ m.Arrives s
  | .switchToNothing => ∃ call, input = .runQueueCall ∧ s.queueCall = some call ∧
      CallSwitchesToNothing env call { s with queueCall := none }
  | .keepCompleted => ∃ m messageId c innerMsgId containerMessageId,
      input = .received m messageId c innerMsgId containerMessageId ∧ m.KeepsCompleted c s
  | .requeue => input = .runQueueCall
  | .startOver => ∃ m messageId c innerMsgId containerMessageId,
      input = .received m messageId c innerMsgId containerMessageId ∧ m.startsOver messageId = true
  | .wait => s.movingToDatacenterId ≠ defaultDatacenterId ∨
      (∃ m messageId c innerMsgId containerMessageId,
        input = .received m messageId c innerMsgId containerMessageId ∧ m.Waits s) ∨
      (input = .runQueueCall ∧ ¬ s.NoExports)
  | .pushSession => input = .setPushConnectionEnabled true ∨
      ∃ userId rest, input = .runTask ∧ s.pendingTasks = .setUserId userId :: rest

/-- Whatever the machine does in a step, it does by changes that the input can lead to. -/
theorem Input.run_changes {input : Input} {s t : ConnectionsManager} {u : Unit}
    (run : input.run env s = some (u, t)) : Changes env (Triggers env input s) s t := by
  cases input with
  | sendRequest args =>
      refine keeps_ite (R := Changes env _) (fun _ => ?_) (fun _ => keeps_fault) _ _ _ run
      exact changes_of_turns (turns_of_same (same_sendRequest args))
  | schedule task =>
      refine keeps_ite (R := Changes env _) (fun _ => ?_) (fun _ => keeps_fault) _ _ _ run
      exact changes_of_turns (turns_of_same (same_scheduleTask task))
  | setPushConnectionEnabled value =>
      exact changes_lift (turns_setPushConnectionEnabled (fun enabled =>
        .inl (by rw [enabled])) _ _ _ run)
  | setNetworkAvailable value => exact changes_lift (turns_setNetworkAvailable value _ _ _ run)
  | updateDcSettings dcNum workaround =>
      exact changes_of_calm (keeps_updateDcSettings _ _) _ _ _ run
  | runTask =>
      rw [Input.run, read_bind] at run
      cases planned : s.pendingTasks with
      | nil =>
          rw [planned] at run
          cases run
      | cons task rest =>
          rw [planned] at run
          change (update _ >>= fun _ => task.run env) s = some (u, t) at run
          rw [update_bind] at run
          refine changes_lift
            (.head (.act (.forget rest (planned ▸ List.sublist_cons_self task rest))) ?_)
          exact Task.turns (fun userId own => .inr ⟨userId, rest, rfl, own ▸ planned⟩) _ _ _ run
  | runQueueCall =>
      rw [Input.run, read_bind] at run
      obtain ⟨call, v, required, run⟩ := bind_run run
      obtain ⟨pending, same⟩ := require_run required
      rw [same, update_bind] at run
      have taken : SameWorld s { s with queueCall := none } := by constructor <;> rfl
      refine .head (.turn (.rest taken)) ?_
      have settles : Settles (Triggers env .runQueueCall s) s := by
        by_cases home : s.movingToDatacenterId = defaultDatacenterId ∧ s.NoExports
        · exact .inl home
        · exact .inr ((not_and_or.1 home).imp_right fun exports => .inr ⟨rfl, exports⟩)
      have settles : Settles (Triggers env .runQueueCall s) { s with queueCall := none } :=
        settles.imp_left fun ⟨home, exportless⟩ => ⟨home, exportless.of_same rfl⟩
      exact processRequestQueue_changes rfl settles (fun alone => ⟨call, rfl, pending, alone⟩) run
  | processRequestQueue connectionTypes dc => exact changes_of_calm (keeps_callQueue _) _ _ _ run
  | cancelRequestInternal token messageId notifyServer =>
      exact changes_lift (turns_cancelRequestInternal token messageId notifyServer _ _ _ run)
  | getDatacenterWithId id =>
      refine keeps_bind (R := Changes env _) (changes_of_calm (keeps_getDatacenterWithId id))
        (fun _ => ?_) _ _ _ run
      exact keeps_pure _
  | clearRequestsForDatacenter d type =>
      exact changes_of_acts (acts_clearRequestsForDatacenter _ _) _ _ _ run
  | connected c =>
      refine keeps_bind (R := Changes env _) (changes_of_turns (turns_takeToken c)) (fun _ =>
        ?_) _ _ _ run
      exact changes_of_turns (turns_onConnectionConnected c)
  | disconnected c error => exact changes_of_acts (acts_onDisconnected c error) _ _ _ run
  | reconnect c => exact changes_of_acts (acts_reconnect c) _ _ _ run
  | reconnectTimer c =>
      refine keeps_bind (R := Changes env _) (changes_of_calm (keeps_session ?_)) (fun _ =>
        ?_) _ _ _ run
      · exact fun _ => ⟨rfl, rfl, rfl⟩
      · exact changes_of_calm (keeps_connect c)
  | suspendConnections d => exact changes_of_acts (acts_suspendConnections d) _ _ _ run
  | keyNotFound c => exact changes_of_acts (acts_onKeyNotFound c) _ _ _ run
  | sendPing d usePushConnection => exact changes_of_calm (keeps_sendPing d _) _ _ _ run
  | received m messageId c innerMsgId containerMessageId =>
      apply processServerResponse_changes (m := m) (c := c)
      · exact (em _).imp_right fun moves => .inl moves
      · exact fun kept => ⟨m, messageId, c, innerMsgId, containerMessageId, rfl, kept⟩
      · exact fun arrives => ⟨m, messageId, c, innerMsgId, containerMessageId, rfl, arrives⟩
      · exact fun waits => .inr (.inl ⟨m, messageId, c, innerMsgId, containerMessageId, rfl, waits⟩)
      · exact fun anew => ⟨m, messageId, c, innerMsgId, containerMessageId, rfl, anew⟩
      · exact run
  | messageToConfirm c messageId =>
      exact changes_of_calm (keeps_addMessageToConfirm c messageId) _ _ _ run
  | messageProcessed c messageId =>
      exact changes_of_calm (keeps_addProcessedMessageId c messageId) _ _ _ run
  | acknowledge c =>
      exact changes_of_calm (keeps_sendMessagesToConnectionWithConfirmation [] c) _ _ _ run
  | beginHandshake d type reopen =>
      exact changes_of_acts (acts_beginHandshake d type reopen) _ _ _ run
  | handshakeData d type => exact changes_of_calm (keeps_sendHandshakeData d type) _ _ _ run
  | loadCdnConfig d cached => exact changes_of_acts (acts_loadCdnConfig d cached) _ _ _ run

theorem step_changes {input : Input} {s t : ConnectionsManager} {u : Unit}
    (run : step env input s = some (u, t)) : Changes env (Triggers env input s) s t := by
  rw [step, read_bind] at run
  split at run
  · cases run
  · exact Input.run_changes run

/-! ## Runs on given inputs -/

variable (env) in
/-- The state after the inputs, for a file that is read first. -/
def afterInputs (config : Option SavedConfig) (inputs : List Input) :
    Option (Unit × ConnectionsManager) :=
  (loadConfig env config { currentVersion := 1 }).bind fun start => each (step env) inputs start.2

theorem reaches_afterInputs {config : Option SavedConfig}
    {allowed : ConnectionsManager → Input → Prop}
    {inputs : List Input} (always : ∀ i ∈ inputs, ∀ s, allowed s i) {x : Unit}
    {s : ConnectionsManager}
    (run : afterInputs env config inputs = some (x, s)) :
    Reaches (step env) (Started env config) allowed s := by
  obtain ⟨⟨⟨⟩, start⟩, loaded, run⟩ := Option.bind_eq_some_iff.1 run
  exact Reaches.each always (.start ⟨0, 1, true, true, loaded⟩) run

/-- Every reading of a clock is ten seconds after the one before. -/
def everyTenSeconds : Env where
  currentTimeMillis n := 10000 * n
  currentTimeMonotonicMillis n := 10000 * n
  messageIdAt millis _ := 4 * millis
  messageTime _ := 0
  newSessionId n := n + 1
  randomByte _ := 0
  opens _ := true
  objectSize _ := 4

/-- The file of a client with a key for two datacenters. -/
def twoDatacenters : SavedConfig where
  currentDatacenterId := 2
  timeDifference := 0
  pushSessionId := 1
  sessionsToDestroy := []
  datacenters := [(2, { authKeyPerm := true }), (4, { authKeyPerm := true })]

end Mtproto.Manager
