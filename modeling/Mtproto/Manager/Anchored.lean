import Mtproto.Manager.Changes

/-!
The current datacenter is one the client knows, and no entry of `datacenters` is a null pointer.
Two things break this: a waiting request that changes the current datacenter where there is no
other, and an answer to the import of a migration that arrives when the client moves to no
datacenter it knows.  A run without them keeps it.
-/

namespace Mtproto.Manager

open Lib Program Relation

variable {env : Env} {K : Kind → Prop}

/-- The current datacenter is there, and no key has a null pointer. -/
structure ConnectionsManager.Anchored (s : ConnectionsManager) : Prop where
  current : (s.datacenter s.currentDatacenterId).isSome
  entries : ∀ entry ∈ s.datacenters, entry.2.isSome

/-! ## Steps -/

section Kept

variable {s t : ConnectionsManager}

theorem ConnectionsManager.Anchored.of_same (anchored : s.Anchored)
    (datacenters : t.datacenters = s.datacenters)
    (current : t.currentDatacenterId = s.currentDatacenterId) : t.Anchored := by
  refine ⟨?_, datacenters ▸ anchored.entries⟩
  rw [ConnectionsManager.datacenter, datacenters, current]
  exact anchored.current

theorem ConnectionsManager.Anchored.insert (anchored : s.Anchored) (d : Nat) (dc : Datacenter) :
    ({ s with datacenters := s.datacenters.insert d (some dc) } : ConnectionsManager).Anchored := by
  refine ⟨?_, fun entry mem => ?_⟩
  · rw [datacenter_insert]
    split
    · rfl
    · exact anchored.current
  · rcases OrderedMap.mem_insert mem with rfl | mem
    · rfl
    · exact anchored.entries entry mem

theorem ConnectionsManager.Anchored.modifyDatacenter (anchored : s.Anchored) (d : Nat)
    (f : Datacenter → Datacenter) :
    (s.modifyDatacenter d f).Anchored := by
  unfold ConnectionsManager.modifyDatacenter
  split
  · exact anchored.insert d _
  · exact anchored

theorem Calm.anchored (calm : Calm env s t) (anchored : s.Anchored) : t.Anchored := by
  cases calm with
  | other same => exact anchored.of_same same.datacenters same.currentDatacenterId
  | nullEntry unknown =>
      -- the current datacenter is known
      have current := anchored.current
      rw [ConnectionsManager.datacenter, unknown] at current
      cases current
  | batch b d messages plain => cases b <;> exact anchored.of_same rfl rfl
  | _ => exact anchored.of_same rfl rfl

theorem Act.anchored (act : Act env s t) (anchored : s.Anchored) : t.Anchored := by
  cases act with
  | edit p edit =>
      cases edit with
      | calm calm => exact calm.anchored anchored
      | request f settled => exact anchored.of_same rfl rfl
  | datacenter d f same => exact anchored.modifyDatacenter d f
  | _ => exact anchored.of_same rfl rfl

theorem Acts.anchored (acts : Acts env s t) (anchored : s.Anchored) : t.Anchored := by
  induction acts with
  | refl => exact anchored
  | tail _ act ih => exact act.anchored ih

theorem Turn.anchored (arrive : ¬ K .arrive) (switch : ¬ K .switchToNothing) (turn : Turn env K s t)
    (anchored : s.Anchored) : t.Anchored := by
  cases turn with
  | act act => exact act.anchored anchored
  | rest same => exact anchored.of_same same.datacenters same.currentDatacenterId
  | migrate id acts known => exact ⟨known, (Acts.anchored acts (anchored.of_same rfl rfl)).entries⟩
  | arriveKnown known => exact ⟨known, anchored.entries⟩
  | arrive allowed => exact absurd allowed arrive
  | switch d known => exact ⟨known, anchored.entries⟩
  | switchToNothing d allowed => exact absurd allowed switch
  | enter id => exact anchored.insert id {}
  | configure d f => exact anchored.modifyDatacenter d f
  | _ => exact anchored.of_same rfl rfl

theorem Turns.anchored (arrive : ¬ K .arrive) (switch : ¬ K .switchToNothing)
    (turns : Turns env K s t)
    (anchored : s.Anchored) : t.Anchored := by
  induction turns with
  | refl => exact anchored
  | tail _ turn ih => exact turn.anchored arrive switch ih

theorem Changes.anchored (arrive : ¬ K .arrive) (switch : ¬ K .switchToNothing)
    (changes : Changes env K s t)
    (anchored : s.Anchored) : t.Anchored := by
  induction changes with
  | refl => exact anchored
  | tail _ change ih =>
      have called : ∀ {s t : ConnectionsManager}, Turns env (Calling K) s t → s.Anchored →
          t.Anchored :=
        fun turns => Turns.anchored (fun calling => arrive calling.1) (fun calling =>
          switch calling.1) turns
      cases change with
      | turn turn => exact turn.anchored arrive switch ih
      | complete p running turns =>
          have after_call := called turns (ih.of_same rfl rfl)
          exact after_call.of_same rfl rfl
      | keep p allowed running turns => exact called turns (ih.of_same rfl rfl)

end Kept

/-! ## The start -/

/-- The stored current datacenter is stored too, if there is one and it is not the one that is
always there. -/
def SavedConfig.HasCurrent (config : SavedConfig) : Prop :=
  config.currentDatacenterId = 0 ∨ config.currentDatacenterId = 2 ∨
    ∃ entry ∈ config.datacenters, entry.1 = config.currentDatacenterId

/-- What `loadConfig` has read so far. -/
structure Loaded (s : ConnectionsManager) : Prop where
  current : s.currentDatacenterId = 0 ∨ s.currentDatacenterId = 2 ∨
    (s.datacenter s.currentDatacenterId).isSome
  entries : ∀ entry ∈ s.datacenters, entry.2.isSome

theorem Loaded.known {s : ConnectionsManager} (loaded : Loaded s) {d : Nat}
    (found : s.datacenters.find d ≠ none) :
    (s.datacenter d).isSome := by
  rw [ConnectionsManager.datacenter]
  cases entry : s.datacenters.find d with
  | none => exact absurd entry found
  | some dc => simpa using loaded.entries _ (OrderedMap.mem_of_find entry)

/-- The datacenters of the file, put into the map one after the other. -/
theorem loaded_datacenters (stored : List (Nat × Datacenter))
    (m : OrderedMap Nat (Option Datacenter)) :
    ((∀ entry ∈ m, entry.2.isSome) →
      ∀ entry ∈ stored.foldl (fun m entry => m.insert entry.1 (some entry.2)) m, entry.2.isSome) ∧
    ∀ d, (m.find d ≠ none ∨ ∃ entry ∈ stored, entry.1 = d) →
      (stored.foldl (fun m entry => m.insert entry.1 (some entry.2)) m).find d ≠ none := by
  induction stored generalizing m with
  | nil => exact ⟨id, fun d known => known.resolve_right (by simp)⟩
  | cons first rest ih =>
      obtain ⟨entries, keys⟩ := ih (m.insert first.1 (some first.2))
      refine ⟨fun some_entries => entries fun entry mem => ?_, fun d known => keys d ?_⟩
      · rcases OrderedMap.mem_insert mem with rfl | mem
        · rfl
        · exact some_entries entry mem
      · by_cases here : d = first.1
        · exact .inl (by rw [here, OrderedMap.find_insert_self]; exact Option.some_ne_none _)
        · rw [OrderedMap.find_insert_of_ne m _ here]
          refine known.imp_right fun ⟨entry, mem, own⟩ => ⟨entry, ?_, own⟩
          exact (List.mem_cons.1 mem).resolve_left fun same => here (own ▸ same ▸ rfl)

theorem loaded_readConfig {config : Option SavedConfig} {s t : ConnectionsManager} {u : Unit}
    (stored : ∀ saved, config = some saved → saved.HasCurrent) (fresh : s.datacenters = [])
    (none_yet : s.currentDatacenterId = 0) (run : readConfig config s = some (u, t)) :
    Loaded t := by
  cases config with
  | none =>
      rw [(pure_run run).2]
      exact ⟨.inl none_yet, by simp [fresh]⟩
  | some saved =>
      rw [readConfig] at run
      rw [update_run run, fresh]
      obtain ⟨entries, keys⟩ := loaded_datacenters saved.datacenters []
      have entries := entries (by simp)
      have current := (stored saved rfl).imp_right (Or.imp_right fun here => keys _ (.inr here))
      refine ⟨current.imp_right (Or.imp_right fun found => ?_), entries⟩
      rw [ConnectionsManager.datacenter]
      obtain ⟨dc, found⟩ := Option.ne_none_iff_exists'.1 found
      rw [found]
      simpa using entries _ (OrderedMap.mem_of_find found)

theorem loaded_resetAuthorization {s t : ConnectionsManager} {u : Unit} (loaded : Loaded s)
    (run : resetAuthorization s = some (u, t)) : Loaded t := by
  rw [resetAuthorization, read_bind] at run
  rcases when_run run with ⟨-, run⟩ | ⟨-, rfl⟩
  · obtain ⟨found, v, looked, run⟩ := bind_run run
    have same : v = s := by
      rw [getDatacenterWithId, read_bind] at looked
      split at looked
      · next default =>
          -- no null pointer is entered, for the id is one that was loaded
          have known :=
            (loaded.current.resolve_left (by rw [default]; decide)).resolve_left
              (by rw [default]; decide)
          cases entry : s.datacenters.find s.currentDatacenterId with
          | none =>
              rw [ConnectionsManager.datacenter, entry] at known
              cases known
          | some dc =>
              rw [entry] at looked
              cases dc with
              | none => exact (pure_run looked).2
              | some dc => exact (pure_run looked).2
      · exact (pure_run looked).2
    rw [same, read_bind] at run
    rcases when_run run with ⟨-, run⟩ | ⟨-, rfl⟩
    · rw [update_run run]
      exact ⟨.inl rfl, by simp⟩
    · exact loaded
  · exact loaded

theorem loaded_initDatacenters {s t : ConnectionsManager} {u : Unit} (loaded : Loaded s)
    (run : initDatacenters s = some (u, t)) : Loaded t ∧ (t.datacenter 2).isSome := by
  rw [update_run run]
  split
  · have two :
        (({ s with datacenters := s.datacenters.insert 2 (some {}) } :
          ConnectionsManager).datacenter 2).isSome := by
      rw [datacenter_insert]
      rfl
    refine ⟨⟨loaded.current.imp_right (Or.imp_right fun known => ?_), fun entry mem => ?_⟩, two⟩
    · rw [datacenter_insert]
      split
      · rfl
      · exact known
    · rcases OrderedMap.mem_insert mem with rfl | mem
      · rfl
      · exact loaded.entries entry mem
  · next found => exact ⟨loaded, loaded.known found⟩

theorem anchored_of_started {config : Option SavedConfig}
    (stored : ∀ saved, config = some saved → saved.HasCurrent)
    {s : ConnectionsManager} (started : Started env config s) : s.Anchored := by
  obtain ⟨userId, version, hasNetwork, enablePushConnection, run⟩ := started
  obtain ⟨_, v, stored_read, run⟩ := bind_run run
  obtain ⟨_, w, reset, run⟩ := bind_run run
  obtain ⟨_, x, initial, run⟩ := bind_run run
  have loaded := loaded_resetAuthorization (loaded_readConfig stored rfl rfl stored_read) reset
  obtain ⟨loaded, two⟩ := loaded_initDatacenters loaded initial
  rw [reading_bind, read_bind] at run
  rcases when_run run with ⟨-, run⟩ | ⟨complete, rfl⟩
  · rw [update_bind] at run
    have saved := (keeps_saveConfig : Keeps (Calms env) saveConfig) _ _ _ run
    refine Turns.anchored (K := fun _ => False) id id (turns_lift saved.acts) ⟨?_, loaded.entries⟩
    change (x.datacenter (if x.currentDatacenterId = 0 then 2 else x.currentDatacenterId)).isSome =
      true
    split
    · exact two
    · next current =>
        rcases loaded.current.resolve_left current with second | known
        · rwa [second]
        · exact known
  · refine ⟨?_, loaded.entries⟩
    have some_datacenter : x.datacenters ≠ [] := by
      intro none
      rw [ConnectionsManager.datacenter, none] at two
      cases two
    have current : x.currentDatacenterId ≠ 0 := fun zero => complete (.inl ⟨some_datacenter, zero⟩)
    rcases loaded.current.resolve_left current with second | known
    · exact second ▸ two
    · exact known

/-! ## Runs -/

/-- In a run without a change to nothing and an arrival nowhere, the current datacenter always
exists. -/
theorem anchored_of_reaches {config : Option SavedConfig}
    (stored : ∀ saved, config = some saved → saved.HasCurrent)
    {s : ConnectionsManager}
    (reached : Reaches (step env) (Started env config)
      (fun s input => ¬ Triggers env input s .arrive ∧ ¬ Triggers env input s .switchToNothing) s) :
    s.Anchored :=
  reached.invariant (fun _ started => anchored_of_started stored started)
    fun _ _ _ anchored allowed run =>
      Changes.anchored allowed.1 allowed.2 (step_changes run) anchored

/-- The file of a client that knows one datacenter. -/
def onlyDatacenter : SavedConfig where
  currentDatacenterId := 2
  timeDifference := 0
  pushSessionId := 1
  sessionsToDestroy := []
  datacenters := [(2, { authKeyPerm := true })]

/-- A request for any datacenter is sent, and not answered. -/
def unanswered : List Input :=
  [.sendRequest
      { object := .api
        onComplete := .delegate
        flags := RequestFlag.tryDifferentDc ||| RequestFlag.enableUnauthorized |||
          RequestFlag.withoutLogin
        datacenterId := defaultDatacenterId
        connectionType := ConnectionType.generic
        immediate := true
        requestToken := 1 },
    .runTask, .runQueueCall, .connected ⟨2, .generic⟩, .runQueueCall, .processRequestQueue 0 0,
      .runQueueCall]

/-- After thirty seconds the client has gone to datacenter 0, which does not exist. -/
theorem not_anchored_without_answer :
    onlyDatacenter.HasCurrent ∧
      ¬ ∀ s, Reaches (step everyTenSeconds) (Started everyTenSeconds (some onlyDatacenter))
        (fun _ _ => True) s →
        s.Anchored := by
  refine ⟨.inr (.inl rfl), fun always => ?_⟩
  have unknown : (afterInputs everyTenSeconds (some onlyDatacenter) unanswered).map (fun after =>
      (after.2.datacenter after.2.currentDatacenterId).isSome) = some false := by
    decide +kernel
  obtain ⟨⟨⟨⟩, s⟩, run, unknown⟩ := Option.map_eq_some_iff.1 unknown
  have anchored := always s (reaches_afterInputs (fun _ _ _ => trivial) run)
  rw [anchored.current] at unknown
  cases unknown

instance (currentTime : Int) (p : Nat) (s : ConnectionsManager) :
    Decidable (SwitchesToNothing currentTime p s) :=
  decidable_of_iff (((s.requestsQueue.find? fun r => r.id == p).any fun r =>
    decide (r.cancelled = false ∧ r.waitsForMove s.movingToDatacenterId = false ∧
      r.switches currentTime = true ∧
      differentDatacenters (r.targetDatacenterId s.currentDatacenterId) s.datacenters = some [])) =
        true)
    (by simp [SwitchesToNothing, Option.any_eq_true])

/-- Whether one of the entries switches to nothing where the loop comes to it. -/
def entrySwitches (env : Env) (currentTime : Int) : List Nat → ConnectionsManager → Bool
  | [], _ => false
  | p :: ps, s => decide (SwitchesToNothing currentTime p s) ||
      (queueStep env currentTime p s).any fun after => entrySwitches env currentTime ps after.2

theorem entrySwitches_of_visits {currentTime : Int} {ps : List Nat} {s u : ConnectionsManager}
    {p : Nat}
    (visits : Visits (queueStep env currentTime) ps s p u)
    (switches : SwitchesToNothing currentTime p u) :
    entrySwitches env currentTime ps s = true := by
  induction visits with
  | here p ps s => simp [entrySwitches, switches]
  | later run _ ih => simp [entrySwitches, run, ih switches]

/-- Whether a call of `processRequestQueue` switches to nothing. -/
def callSwitches (env : Env) (call : QueueCall) (s : ConnectionsManager) : Bool :=
  (beforeQueueLoop env call s).any fun after =>
    entrySwitches env after.1 (after.2.requestsQueue.map (·.id)) after.2

/-- No message comes in, and the call that is due does not switch to nothing. -/
def staysAnchored (env : Env) (s : ConnectionsManager) : Input → Bool
  | .received _ _ _ _ _ => false
  | .runQueueCall => s.queueCall.all fun call => !callSwitches env call { s with queueCall := none }
  | _ => true

theorem not_triggers_of_staysAnchored {s : ConnectionsManager} {input : Input}
    (stays : staysAnchored env s input = true) :
    ¬ Triggers env input s .arrive ∧ ¬ Triggers env input s .switchToNothing := by
  refine ⟨?_, ?_⟩
  · rintro ⟨m, messageId, c, innerMsgId, containerMessageId, rfl, -⟩
    cases stays
  · rintro ⟨call, rfl, due, currentTime, v, p, u, before, visits, switches⟩
    have found := entrySwitches_of_visits visits switches
    simp [staysAnchored, due, callSwitches, before, found] at stays

/-- As long as it has not waited for thirty seconds it is where it was. -/
theorem anchored_before_answer :
    ∃ s, afterInputs everyTenSeconds (some onlyDatacenter) (unanswered.take 6) = some ((), s) ∧
      s.runningRequests.length = 1 ∧ s.Anchored := by
  have finishes :
    ((loadConfig everyTenSeconds (some onlyDatacenter) { currentVersion := 1 }).bind fun start =>
      (each (guarded (step everyTenSeconds) fun s input => staysAnchored everyTenSeconds s input =
        true)
        (unanswered.take 6) start.2).map fun after => after.2.runningRequests.length) = some 1 := by
    decide +kernel
  obtain ⟨⟨⟨⟩, start⟩, loaded, finishes⟩ := Option.bind_eq_some_iff.1 finishes
  obtain ⟨⟨⟨⟩, s⟩, run, running⟩ := Option.map_eq_some_iff.1 finishes
  refine ⟨s, ?_, running, ?_⟩
  · rw [afterInputs, loaded]
    exact each_of_guarded run
  have reached : Reaches (step everyTenSeconds) (Started everyTenSeconds (some onlyDatacenter))
      (fun s input => ¬ Triggers everyTenSeconds input s .arrive ∧
        ¬ Triggers everyTenSeconds input s .switchToNothing)
      s :=
    (Reaches.guarded (.start ⟨0, 1, true, true, loaded⟩) run).mono fun _ _ =>
      not_triggers_of_staysAnchored
  refine anchored_of_reaches (fun saved own => ?_) reached
  exact Option.some.inj own ▸ .inr (.inl rfl)

end Mtproto.Manager
