import Mtproto.Manager.Changes

/-!
While the client moves to another datacenter, `processRequestQueue` skips the requests for the
default one.  The request that exports the authorization of a user is one of them, so a migration
that has to wait for it never ends; one that waits for an import ends only if there is no error.
The client does not block itself as long as every migration ends where it begins.
-/

namespace Mtproto.Manager

open Lib Program Relation

/-! ## Requests of a migration -/

/-- The callbacks of the requests on whose answers a migration waits. -/
def Callback.migrates : Callback → Bool
  | .moveExport _ | .moveImport => true
  | _ => false

/-- The request that a task is going to enter into the queue. -/
def Task.request (s : ConnectionsManager) : Task → Option Request
  | .sendRequest args => some (newRequest s.nextRequest args)
  | _ => none

/-- The requests on whose answers the migration waits, in the lists or still to be entered. -/
def ConnectionsManager.migrationRequests (s : ConnectionsManager) : List Request :=
  (s.requestsQueue ++ s.runningRequests ++ s.pendingTasks.filterMap (·.request s)).filter fun r =>
    r.onCompleteRequestCallback.migrates

/-- A client that moves has a request on whose answer the migration waits, and `processRequestQueue`
does not skip it. In particular there is a new one after one of them has failed. -/
def ConnectionsManager.Unblocked (s : ConnectionsManager) : Prop :=
  s.movingToDatacenterId ≠ defaultDatacenterId →
    (∃ r, r ∈ s.migrationRequests) ∧ ∀ r ∈ s.migrationRequests,
      r.waitsForMove s.movingToDatacenterId = false

/-! ## Runs -/

/-- The input makes the client move, and it has to wait for an answer: there is a user, or an
authorization to import, or the datacenter is not known. -/
def BeginsToWait (s : ConnectionsManager) (input : Input) : Prop :=
  (∃ m messageId c innerMsgId containerMessageId,
      input = .received m messageId c innerMsgId containerMessageId ∧ m.Waits s) ∨
    (input = .runQueueCall ∧ ¬ s.NoExports)

variable {env : Env}

theorem home_of_started {config : Option SavedConfig} {s : ConnectionsManager}
    (started : Started env config s) :
    s.movingToDatacenterId = defaultDatacenterId := by
  have same : ∀ f : ConnectionsManager → ConnectionsManager,
      (∀ s, (f s).movingToDatacenterId = s.movingToDatacenterId) →
        Keeps (Preserving fun s : ConnectionsManager => s.movingToDatacenterId =
          defaultDatacenterId) (update f) :=
    fun f same => keeps_update fun s home => (same s).trans home
  have calm : ∀ {α : Type} {m : M α}, Keeps (Calms env) m →
      Keeps (Preserving fun s : ConnectionsManager => s.movingToDatacenterId =
        defaultDatacenterId) m :=
    fun kept s a t run home => ((kept s a t run).undisturbed.movingToDatacenterId).trans home
  have kept :
    Keeps (Preserving fun s : ConnectionsManager => s.movingToDatacenterId = defaultDatacenterId)
      (loadConfig env config) := by
    refine keeps_bind ?_ fun _ => keeps_bind ?_ fun _ => keeps_bind ?_ fun _ => ?_
    · cases config with
      | none => exact keeps_pure ()
      | some saved => exact same _ fun _ => rfl
    · refine keeps_bind keeps_read fun s => keeps_when fun _ => ?_
      refine keeps_bind (calm (keeps_getDatacenterWithId _)) fun found =>
        keeps_bind keeps_read fun s => ?_
      exact keeps_when fun _ => same _ fun _ => rfl
    · exact same _ fun s => by split <;> rfl
    · refine keeps_bind (calm keeps_reading) fun n => keeps_bind keeps_read fun s =>
        keeps_when fun _ => ?_
      exact keeps_bind (same _ fun _ => rfl) fun _ => calm keeps_saveConfig
  obtain ⟨userId, version, hasNetwork, enablePushConnection, run⟩ := started
  exact kept _ _ _ run rfl

theorem Changes.home {K : Kind → Prop} {s t : ConnectionsManager} (changes : Changes env K s t)
    (stays : ¬ K .wait)
    (home : s.movingToDatacenterId = defaultDatacenterId) :
    t.movingToDatacenterId = defaultDatacenterId := by
  induction changes with
  | refl => exact home
  | tail _ change ih =>
      cases change with
      | turn turn => exact (turn.home (.inl ih)).resolve_right stays
      | complete p running turns =>
          exact (turns.home (.inl ih)).resolve_right fun calling => stays calling.1
      | keep p allowed running turns =>
          exact (turns.home (.inl ih)).resolve_right fun calling => stays calling.1

/-- In a run in which no migration has to wait, no migration blocks itself. -/
theorem unblocked_of_reaches {config : Option SavedConfig} {s : ConnectionsManager}
    (reached : Reaches (step env) (Started env config) (fun s input => ¬ BeginsToWait s input) s) :
      s.Unblocked := by
  have home : s.movingToDatacenterId = defaultDatacenterId :=
    reached.invariant (fun _ started => home_of_started started) fun _ _ _ home allowed run =>
      (step_changes run).home (fun wait => wait.elim (fun moves => moves home) allowed) home
  exact fun moves => absurd home moves

/-- The server sends a user to datacenter 4, and the queue is processed. -/
def userMigrates : List Input :=
  [.schedule (.setUserId 7), .runTask,
    .received (.rpcResult 0 (.plain (.rpcError 303 "USER_MIGRATE_4"))) 1 ⟨2, .generic⟩ 0 0,
    .runQueueCall, .runTask, .runQueueCall]

/-- The export of the authorization waits for the end of the migration, which waits for the
export. -/
theorem not_unblocked_user :
    ¬ ∀ s, Reaches (step everyTenSeconds) (Started everyTenSeconds (some twoDatacenters))
      (fun _ _ => True) s →
      s.Unblocked := by
  intro always
  have waiting : (afterInputs everyTenSeconds (some twoDatacenters) userMigrates).map (fun after =>
      (after.2.movingToDatacenterId,
        after.2.migrationRequests.map fun r => r.waitsForMove after.2.movingToDatacenterId)) =
          some (4, [true]) := by
    decide +kernel
  obtain ⟨⟨⟨⟩, s⟩, run, waiting⟩ := Option.map_eq_some_iff.1 waiting
  injection waiting with moving skipped
  change s.movingToDatacenterId = 4 at moving
  change s.migrationRequests.map (fun r => r.waitsForMove s.movingToDatacenterId) =
    [true] at skipped
  obtain ⟨⟨r, mem⟩, eligible⟩ :=
    always s (reaches_afterInputs (fun _ _ _ => trivial) run) (by rw [moving]; decide)
  have all : r.waitsForMove s.movingToDatacenterId ∈ [true] := skipped ▸ List.mem_map_of_mem mem
  rw [eligible r mem] at all
  exact absurd all (by decide)

/-- Without a user the client has moved in one step. -/
theorem unblocked_nobody :
    ∃ s t, loadConfig everyTenSeconds (some twoDatacenters) {} = some ((), s) ∧
      step everyTenSeconds (.received (.rpcResult 0 (.plain (.rpcError 303 "USER_MIGRATE_4"))) 1 ⟨2,
        .generic⟩ 0 0) s =
        some ((), t) ∧ t.currentDatacenterId = 4 ∧ t.Unblocked := by
  have facts : (loadConfig everyTenSeconds (some twoDatacenters) {}).map (fun start =>
      (start.2.currentUserId, start.2.movingAuthorization, (start.2.datacenter 4).isSome,
        start.2.runningRequests.length,
        (step everyTenSeconds (.received (.rpcResult 0 (.plain (.rpcError 303 "USER_MIGRATE_4"))) 1
          ⟨2, .generic⟩ 0 0)
          start.2).map (·.2.currentDatacenterId))) = some (0, false, true, 0, some 4) := by
    decide +kernel
  obtain ⟨⟨⟨⟩, s⟩, loaded, facts⟩ := Option.map_eq_some_iff.1 facts
  injection facts with nobody facts
  injection facts with unauthorized facts
  injection facts with known facts
  injection facts with none_running stepped
  obtain ⟨⟨⟨⟩, t⟩, run, current⟩ := Option.map_eq_some_iff.1 stepped
  refine ⟨s, t, loaded, run, current, ?_⟩
  have started : Started everyTenSeconds (some twoDatacenters) s := ⟨0, 1, true, true, loaded⟩
  refine unblocked_of_reaches (.step (.start started) ?_ run)
  rintro (⟨m, messageId, c, innerMsgId, containerMessageId, own, reqMsgId, result, target, rpc,
    ⟨-, waits⟩, answers⟩ |
    ⟨own, -⟩)
  · subst rpc
    injection own with rpc
    injection rpc with _ same
    have there : target.id = 4 := by
      rcases answers with migrates | ⟨r, found, -⟩
      · rw [← same] at migrates
        exact migrates.symm.trans (by decide +kernel)
      · change s.runningRequests.length = 0 at none_running
        rw [List.eq_nil_of_length_eq_zero none_running] at found
        cases found
    rcases waits with user | authorized | unknown
    · exact user nobody
    · exact absurd (authorized.symm.trans unauthorized) (by decide)
    · change (s.datacenter 4).isSome = true at known
      rw [there] at unknown
      rw [unknown] at known
      cases known
  · cases own

end Mtproto.Manager
