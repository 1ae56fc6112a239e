import Mathlib.Data.List.Nodup
import Mtproto.Manager.Requests

/-!
The guid tables of `ConnectionsManager`: `bindRequestToGuid` puts a request token under a guid, and
a request that is completed or cancelled takes it out again.  The two maps are meant to be inverse
to each other (`Inverse`), which is what makes `cancelRequestsForGuid` cancel the requests of its
guid.

Each operation keeps `Inverse` exactly where it is `Allowed`; `guid_tables_iff` is the same for
whole runs, with anything else the manager does in between.
-/

namespace Mtproto.Manager

open Lib Program

/-! ## The tables -/

/-- The manager with its two guid tables. -/
structure Tables where
  manager : ConnectionsManager := {}
  requestsByGuids : Int → Option (List Int) := fun _ => none
  guidsByRequests : Int → Option Int := fun _ => none

namespace Tables

/-- The tokens that stand under a guid. -/
def requests (s : Tables) (guid : Int) : List Int := (s.requestsByGuids guid).getD []

/-- A command of the manager leaves the tables alone. -/
def lift {α : Type} (m : M α) : Program Tables α := fun s =>
  (m s.manager).map fun last => (last.1, { s with manager := last.2 })

/-- The body of `bindRequestToGuid`. -/
def bindRequestToGuid (requestToken guid : Int) : Program Tables Unit := update fun s =>
  { s with
    requestsByGuids := Function.update s.requestsByGuids guid
      (match s.requestsByGuids guid with
        | some tokens => some (tokens ++ [requestToken])
        | none => some [requestToken])
    guidsByRequests := Function.update s.guidsByRequests requestToken (some guid) }

/-- The part of `removeRequestFromGuid` under the entry of the token.  The list is looked up by
`iter2->first`, which is the token and not its guid, and searched for `iter->first`, the key of the
list. -/
def eraseFromList (requestToken : Int) (s : Tables) : Tables :=
  match s.requestsByGuids requestToken with
  | none => s
  | some tokens =>
      if requestToken ∈ tokens then
        { s with
          requestsByGuids := Function.update s.requestsByGuids requestToken
            (if tokens.erase requestToken = [] then none else some (tokens.erase requestToken)) }
      else s

/-- `removeRequestFromGuid`. -/
def removeRequestFromGuid (requestToken : Int) : Program Tables Unit := update fun s =>
  match s.guidsByRequests requestToken with
  | none => s
  | some _ =>
      { eraseFromList requestToken s with
        guidsByRequests := Function.update s.guidsByRequests requestToken none }

/-- A request that waits or runs has the token. -/
def Pending (s : Tables) (token : Int) : Prop :=
  token ≠ 0 ∧ ∃ r ∈ s.manager.requestsQueue ++ s.manager.runningRequests, r.requestToken = token

instance (s : Tables) (token : Int) : Decidable (s.Pending token) := by
  unfold Pending
  infer_instance

/-- `cancelRequestInternal` with a token; only a request that was found leaves the tables. -/
def cancelByToken (token : Int) (notifyServer removeFromClass : Bool) : Program Tables Unit := do
  let s ← read
  lift (cancelRequestInternal token 0 notifyServer)
  when (s.Pending token ∧ removeFromClass = true) (removeRequestFromGuid token)

/-- The task of `cancelRequest`. -/
def cancelRequest (token : Int) (notifyServer : Bool) : Program Tables Unit :=
  when (token ≠ 0) (cancelByToken token notifyServer true)

/-- The task of `cancelRequestsForGuid`. -/
def cancelRequestsForGuid (guid : Int) : Program Tables Unit := do
  let s ← read
  match s.requestsByGuids guid with
  | none => pure ()
  | some tokens => do
      each (fun token => do
        cancelByToken token true false
        update fun s => { s with guidsByRequests := Function.update s.guidsByRequests token none })
          tokens
      update fun s => { s with requestsByGuids := Function.update s.requestsByGuids guid none }

/-- The end of `processServerResponse` for a completed request. -/
def complete (r : Request) : Program Tables Unit := do
  removeRequestFromGuid r.requestToken
  lift (eraseRunning r.id)

end Tables

/-! ## Cancelling one request -/

/-- Waiting and running requests are different objects and have tokens of their own, none of them 0,
as `sendRequest` hands them out. -/
structure ConnectionsManager.Distinct (s : ConnectionsManager) : Prop where
  ids : ((s.requestsQueue ++ s.runningRequests).map (·.id)).Nodup
  tokens : ((s.requestsQueue ++ s.runningRequests).map (·.requestToken)).Nodup
  nonzero : ∀ r ∈ s.requestsQueue ++ s.runningRequests, r.requestToken ≠ 0

/-- The requests with these tokens, and no others, left the two lists. -/
structure ConnectionsManager.Without (s : ConnectionsManager) (gone : Int → Bool)
    (t : ConnectionsManager) :
    Prop where
  queue : t.requestsQueue = s.requestsQueue.filter fun r => !gone r.requestToken
  running : t.runningRequests = s.runningRequests.filter fun r => !gone r.requestToken

section Cancel

variable {s t u : ConnectionsManager} {gone gone' : Int → Bool}

theorem ConnectionsManager.Distinct.of_sublist (distinct : s.Distinct)
    (queue : t.requestsQueue.Sublist s.requestsQueue)
    (running : t.runningRequests.Sublist s.runningRequests) :
    t.Distinct := by
  have sub := queue.append running
  exact
    { ids := (sub.map _).nodup distinct.ids
      tokens := (sub.map _).nodup distinct.tokens
      nonzero := fun r mem => distinct.nonzero r (sub.subset mem) }

theorem ConnectionsManager.Without.distinct (out : s.Without gone t) (distinct : s.Distinct) :
    t.Distinct := by
  apply distinct.of_sublist
  · rw [out.queue]
    exact List.filter_sublist
  · rw [out.running]
    exact List.filter_sublist

theorem ConnectionsManager.Without.congr (out : s.Without gone t)
    (same : ∀ token, gone token = true ↔ gone' token = true) : s.Without gone' t := by
  have eq : gone = gone' := funext fun token => Bool.eq_iff_iff.2 (same token)
  rwa [eq] at out

theorem ConnectionsManager.Without.trans (first : s.Without gone t) (second : t.Without gone' u) :
    s.Without (fun token => gone token || gone' token) u := by
  refine ⟨?_, ?_⟩
  · rw [second.queue, first.queue, List.filter_filter]
    exact List.filter_congr fun r _ => by rw [Bool.not_or, Bool.and_comm]
  · rw [second.running, first.running, List.filter_filter]
    exact List.filter_congr fun r _ => by rw [Bool.not_or, Bool.and_comm]

/-- An element is found by any key that tells the elements apart. -/
theorem eraseP_eq_filter {α β : Type} [DecidableEq β] (key : α → β) {l : List α}
    (nodup : (l.map key).Nodup) (k : β) :
    l.eraseP (fun x => key x == k) = l.filter fun x => !(key x == k) := by
  induction l with
  | nil => rfl
  | cons x l ih =>
      rw [List.map_cons, List.nodup_cons] at nodup
      by_cases same : key x = k
      · have rest : ∀ y ∈ l, (!(key y == k)) = true := by
          intro y mem
          have ne : key y ≠ k := fun eq => nodup.1 (List.mem_map.2 ⟨y, mem, eq.trans same.symm⟩)
          simp [ne]
        simp [same, List.filter_eq_self.2 rest]
      · simp [same, ih nodup.2]

/-- Taking out the object is taking out the token. -/
theorem eraseP_id_eq_filter {l : List Request} (ids : (l.map (·.id)).Nodup)
    (tokens : (l.map (·.requestToken)).Nodup) {r : Request} (mem : r ∈ l) :
    (l.eraseP fun x => x.id == r.id) = l.filter fun x => !(x.requestToken == r.requestToken) := by
  rw [eraseP_eq_filter Request.id ids r.id]
  apply List.filter_congr
  intro x mem_x
  have same : x.id = r.id ↔ x.requestToken = r.requestToken := by
    refine ⟨fun eq => ?_, fun eq => ?_⟩
    · rw [List.inj_on_of_nodup_map ids mem_x mem eq]
    · rw [List.inj_on_of_nodup_map tokens mem_x mem eq]
  simp [same]

theorem sendNewRequest_lists (object : Query) (onComplete : Callback)
    (flags datacenterId connectionType : Nat)
    (s : ConnectionsManager) :
    ∃ t, sendNewRequest object onComplete flags datacenterId connectionType s = some ((), t) ∧
      t.requestsQueue = s.requestsQueue ∧ t.runningRequests = s.runningRequests := by
  simp only [sendNewRequest, newRequestToken, sendRequest, scheduleTask, bind_apply, read_apply,
    update_apply, pure_apply, Option.bind_some, Program.when]
  split
  · split
    · exact ⟨_, rfl, rfl, rfl⟩
    · exact ⟨_, rfl, rfl, rfl⟩
  · exact ⟨_, rfl, rfl, rfl⟩

/-- `cancelRequestInternal` takes out the request with the token. -/
theorem cancelRequestInternal_lists (distinct : s.Distinct) (token : Int) (notifyServer : Bool) :
    ∃ t, cancelRequestInternal token 0 notifyServer s = some ((), t) ∧
      s.Without (· == token) t := by
  have matching : (fun r : Request => (token != 0 && r.requestToken == token) ||
      ((0 : Int) != 0 && r.respondsToMessageId 0)) = fun r =>
        token != 0 && r.requestToken == token := by
    funext r
    simp
  have kept : ∀ l : List Request, (∀ r ∈ l, r ∈ s.requestsQueue ++ s.runningRequests) →
      (l.find? fun r => token != 0 && r.requestToken == token) = none →
      l = l.filter fun r => !(r.requestToken == token) := by
    intro l sub absent
    refine (List.filter_eq_self.2 fun r mem => ?_).symm
    have no_match := List.find?_eq_none.1 absent r mem
    have nonzero := distinct.nonzero r (sub r mem)
    grind
  have ids := distinct.ids
  have tokens := distinct.tokens
  rw [List.map_append, List.nodup_append] at ids tokens
  simp only [cancelRequestInternal, matching, bind_apply, read_apply, Option.bind_some]
  cases queued : s.requestsQueue.find? fun r => token != 0 && r.requestToken == token with
  | some r =>
      have mem := List.mem_of_find?_eq_some queued
      have same : r.requestToken = token := by
        have found := List.find?_some queued
        grind
      refine ⟨_, rfl, ?_, ?_⟩
      · rw [← same]
        exact eraseP_id_eq_filter ids.1 tokens.1 mem
      · refine (List.filter_eq_self.2 fun x mem_x => ?_).symm
        have ne :=
          tokens.2.2 r.requestToken (List.mem_map_of_mem mem) x.requestToken
            (List.mem_map_of_mem mem_x)
        grind
  | none =>
      have queue_kept := kept s.requestsQueue (fun r mem => List.mem_append_left _ mem) queued
      cases started : s.runningRequests.find? fun r => token != 0 && r.requestToken == token with
      | some r =>
          have mem := List.mem_of_find?_eq_some started
          have same : r.requestToken = token := by
            have found := List.find?_some started
            grind
          have erased := eraseP_id_eq_filter ids.2.1 tokens.2.1 mem
          rw [same] at erased
          cases notifyServer with
          | true =>
              obtain ⟨t, run, queue, running⟩ := sendNewRequest_lists .dropAnswer .none
                (RequestFlag.enableUnauthorized ||| RequestFlag.withoutLogin |||
                  RequestFlag.failOnServerErrors) r.datacenterId r.connectionType s
              refine ⟨{ t.record (.cancelled r.id) with
                  runningRequests := t.runningRequests.eraseP fun x => x.id == r.id }, ?_, ?_, ?_⟩
              · simp only [Program.when, if_true, bind_apply, run, Option.bind_some]
                rfl
              · exact queue.trans queue_kept
              · show t.runningRequests.eraseP _ = _
                rw [running, erased]
          | false => exact ⟨_, rfl, queue_kept, erased⟩
      | none =>
          refine ⟨s, rfl, queue_kept, ?_⟩
          exact kept s.runningRequests (fun r mem => List.mem_append_right _ mem) started

end Cancel

/-! ## Inverse tables -/

namespace Tables

/-- A token stands under a guid exactly when the guid is the token's, so under one guid at most, and
there once; no list is empty. -/
structure Inverse (s : Tables) : Prop where
  mem_iff : ∀ token guid, token ∈ s.requests guid ↔ s.guidsByRequests token = some guid
  nodup : ∀ guid, (s.requests guid).Nodup
  ne_nil : ∀ guid, s.requestsByGuids guid ≠ some []

/-- `cancelRequestsForGuid` finishes, and takes out exactly the waiting and running requests whose
token is bound to the guid. -/
def CancelsExactly (s : Tables) : Prop :=
  ∀ guid, ∃ t, cancelRequestsForGuid guid s = some ((), t) ∧
    s.manager.Without (fun token => s.guidsByRequests token = some guid) t.manager

section Tables

variable {s t : Tables} {token guid : Int}

theorem requests_update_self (s : Tables) (guid : Int) (tokens : Option (List Int)) :
    ({ s with requestsByGuids := Function.update s.requestsByGuids guid tokens } : Tables).requests
    guid =
      tokens.getD [] := by
  simp [requests]

theorem requests_update_of_ne (s : Tables) {guid other : Int} (tokens : Option (List Int))
    (ne : other ≠ guid) :
    ({ s with requestsByGuids := Function.update s.requestsByGuids guid tokens } : Tables).requests
    other =
      s.requests other := by
  simp [requests, ne]

theorem inverse_start (manager : ConnectionsManager) : Inverse { manager } :=
  ⟨by simp [requests], by simp [requests], by simp⟩

/-- What the manager does is not seen in the tables. -/
theorem Inverse.of_manager (inverse : s.Inverse) (manager : ConnectionsManager) :
    Inverse { s with manager } :=
  ⟨inverse.mem_iff, inverse.nodup, inverse.ne_nil⟩

/-! ### Binding -/

/-- A token under a guid after a binding: it was there, or it is the new one. -/
theorem bindRequestToGuid_run (token guid : Int) (s : Tables) :
    ∃ t, bindRequestToGuid token guid s = some ((), t) ∧ t.manager = s.manager ∧
      t.guidsByRequests = Function.update s.guidsByRequests token (some guid) ∧
      t.requests guid = s.requests guid ++ [token] ∧
        (∀ other ≠ guid, t.requests other = s.requests other) ∧
        ∀ other, t.requestsByGuids other = some [] → s.requestsByGuids other = some [] := by
  refine ⟨_, rfl, rfl, rfl, ?_, ?_, ?_⟩
  · cases found : s.requestsByGuids guid <;> simp [requests, found]
  · intro other ne
    simp [requests, ne]
  · intro other empty
    by_cases same : other = guid
    · subst same
      cases found : s.requestsByGuids other <;> simp [found] at empty
    · simpa [same] using empty

/-- Binding keeps the tables inverse exactly for a token that is not bound. -/
theorem bind_inverse_iff (inverse : s.Inverse)
    (run : bindRequestToGuid token guid s = some ((), t)) :
    t.Inverse ↔ s.guidsByRequests token = none := by
  obtain ⟨t', run', -, owners, same, others, ne_nil⟩ := bindRequestToGuid_run token guid s
  obtain rfl : t' = t := by
    rw [run] at run'
    exact (congrArg Prod.snd (Option.some.inj run')).symm
  constructor
  · intro inverse'
    by_contra bound
    obtain ⟨old, owner⟩ := Option.ne_none_iff_exists'.1 bound
    have mem : token ∈ s.requests old := (inverse.mem_iff token old).2 owner
    by_cases again : old = guid
    · have twice := inverse'.nodup guid
      rw [same, ← again] at twice
      exact (List.nodup_append.1 twice).2.2 token mem token (by simp) rfl
    · have stale : token ∈ t'.requests old := by rwa [others old again]
      have owner' := (inverse'.mem_iff token old).1 stale
      rw [owners, Function.update_self] at owner'
      exact again (Option.some.inj owner').symm
  · intro unbound
    refine ⟨?_, ?_, fun other empty => inverse.ne_nil other (ne_nil other empty)⟩
    · intro x g
      by_cases here : g = guid
      · subst here
        rw [same, owners, List.mem_append, List.mem_singleton, inverse.mem_iff]
        by_cases new : x = token
        · simp [new]
        · simp [new]
      · rw [others g here, owners, inverse.mem_iff]
        by_cases new : x = token
        · simp [new, unbound, Ne.symm here]
        · simp [new]
    · intro g
      by_cases here : g = guid
      · subst here
        rw [same]
        refine List.nodup_append.2 ⟨inverse.nodup g, List.nodup_singleton token, ?_⟩
        intro x mem y single eq
        rw [List.mem_singleton] at single
        subst single eq
        have owner := (inverse.mem_iff x g).1 mem
        rw [unbound] at owner
        cases owner
      · rw [others g here]
        exact inverse.nodup g

/-! ### Removing -/

/-- A token that is bound is bound to the guid of its own number: the one case in which
`removeRequestFromGuid` looks into the right list. -/
def OwnGuid (s : Tables) (token : Int) : Prop :=
  ∀ guid, s.guidsByRequests token = some guid → guid = token

theorem eraseFromList_of_mem (inverse : s.Inverse) (mem : token ∈ s.requests token) :
    (eraseFromList token s).requests token = (s.requests token).erase token ∧
      (∀ other ≠ token, (eraseFromList token s).requests other = s.requests other) ∧
        ∀ other, (eraseFromList token s).requestsByGuids other ≠ some [] := by
  cases found : s.requestsByGuids token with
  | none => simp [requests, found] at mem
  | some tokens =>
      have listed : s.requests token = tokens := by simp [requests, found]
      rw [listed] at mem ⊢
      simp only [eraseFromList, found, if_pos mem]
      refine ⟨?_, ?_, ?_⟩
      · rw [requests_update_self]
        split
        · rename_i empty
          rw [empty, Option.getD_none]
        · rfl
      · intro other ne
        exact requests_update_of_ne s _ ne
      · intro other
        by_cases same : other = token
        · subst same
          rw [Function.update_self]
          split
          · simp
          · rename_i filled
            exact fun h => filled (Option.some.inj h)
        · rw [Function.update_of_ne same]
          exact inverse.ne_nil other

theorem eraseFromList_of_notMem (absent : token ∉ s.requests token) :
    eraseFromList token s = s := by
  cases found : s.requestsByGuids token with
  | none => simp [eraseFromList, found]
  | some tokens =>
      have listed : s.requests token = tokens := by simp [requests, found]
      rw [listed] at absent
      simp only [eraseFromList, found, if_neg absent]

theorem removeRequestFromGuid_of_bound (bound : s.guidsByRequests token = some guid) :
    removeRequestFromGuid token s =
      some ((), { eraseFromList token s with
        guidsByRequests := Function.update s.guidsByRequests token none }) := by
  simp only [removeRequestFromGuid, update_apply, bound]

theorem removeRequestFromGuid_of_unbound (unbound : s.guidsByRequests token = none) :
    removeRequestFromGuid token s = some ((), s) := by
  simp only [removeRequestFromGuid, update_apply, unbound]

theorem eraseFromList_manager (token : Int) (s : Tables) :
    (eraseFromList token s).manager = s.manager := by
  unfold eraseFromList
  split
  · rfl
  · split <;> rfl

theorem removeRequestFromGuid_run (token : Int) (s : Tables) :
    ∃ t, removeRequestFromGuid token s = some ((), t) ∧ t.manager = s.manager := by
  cases bound : s.guidsByRequests token with
  | none => exact ⟨s, removeRequestFromGuid_of_unbound bound, rfl⟩
  | some guid => exact ⟨_, removeRequestFromGuid_of_bound bound, eraseFromList_manager token s⟩

/-- Removing keeps the tables inverse exactly for a token whose guid is its own number. -/
theorem remove_inverse_iff (inverse : s.Inverse)
    (run : removeRequestFromGuid token s = some ((), t)) :
    t.Inverse ↔ s.OwnGuid token := by
  cases bound : s.guidsByRequests token with
  | none =>
      rw [removeRequestFromGuid_of_unbound bound] at run
      obtain rfl : s = t := congrArg Prod.snd (Option.some.inj run)
      refine ⟨fun _ guid owner => ?_, fun _ => inverse⟩
      rw [bound] at owner
      cases owner
  | some guid =>
      rw [removeRequestFromGuid_of_bound bound] at run
      obtain rfl := congrArg Prod.snd (Option.some.inj run)
      have mem : token ∈ s.requests guid := (inverse.mem_iff token guid).2 bound
      by_cases own : guid = token
      · subst own
        refine ⟨fun _ g owner => Option.some.inj (owner.symm.trans bound), fun _ => ?_⟩
        obtain ⟨same, others, ne_nil⟩ := eraseFromList_of_mem inverse mem
        refine ⟨?_, ?_, ne_nil⟩
        · intro x g
          show x ∈ (eraseFromList guid s).requests g ↔
            Function.update s.guidsByRequests guid none x = some g
          by_cases here : g = guid
          · subst here
            rw [same, (inverse.nodup g).mem_erase_iff, inverse.mem_iff]
            by_cases gone : x = g
            · simp [gone]
            · simp [gone]
          · rw [others g here, inverse.mem_iff]
            by_cases gone : x = guid
            · simp [gone, bound, Ne.symm here]
            · simp [gone]
        · intro g
          show ((eraseFromList guid s).requests g).Nodup
          by_cases here : g = guid
          · subst here
            rw [same]
            exact (inverse.nodup g).erase g
          · rw [others g here]
            exact inverse.nodup g
      · refine ⟨fun inverse' => ?_, fun all => absurd (all guid bound) own⟩
        have absent : token ∉ s.requests token := by
          intro wrong
          have owner := (inverse.mem_iff token token).1 wrong
          exact own (Option.some.inj (bound.symm.trans owner))
        have still : token ∈ (eraseFromList token s).requests guid := by
          rwa [eraseFromList_of_notMem absent]
        have stale : Function.update s.guidsByRequests token none token = some guid :=
          (inverse'.mem_iff token guid).1 still
        rw [Function.update_self] at stale
        cases stale

/-! ### Cancelling -/

theorem lift_run {α : Type} {m : M α} {a : α} {u : ConnectionsManager}
    (run : m s.manager = some (a, u)) :
    lift m s = some (a, { s with manager := u }) := by
  rw [lift, run]
  rfl

/-- With `removeFromClass` the token leaves the tables when a request was found. -/
theorem cancelByToken_run (distinct : s.manager.Distinct) (token : Int)
    (notifyServer removeFromClass : Bool) :
    ∃ u, s.manager.Without (· == token) u ∧
      cancelByToken token notifyServer removeFromClass s =
        if s.Pending token ∧ removeFromClass = true then
          removeRequestFromGuid token { s with manager := u }
        else some ((), { s with manager := u }) := by
  obtain ⟨u, run, out⟩ := cancelRequestInternal_lists distinct token notifyServer
  refine ⟨u, out, ?_⟩
  simp only [cancelByToken, bind_apply, read_apply, Option.bind_some, lift_run run, Program.when]
  split <;> rfl

/-- The loop of `cancelRequestsForGuid`. -/
theorem cancelLoop_run (tokens : List Int) {s : Tables} (distinct : s.manager.Distinct) :
    ∃ u, s.manager.Without (· ∈ tokens) u ∧
      each (fun token => do
        cancelByToken token true false
        update fun s => { s with guidsByRequests := Function.update s.guidsByRequests token none })
          tokens s =
        some ((), { s with
          manager := u
          guidsByRequests := fun x => if x ∈ tokens then none else s.guidsByRequests x }) := by
  induction tokens generalizing s with
  | nil =>
      refine ⟨s.manager, ⟨by simp, by simp⟩, ?_⟩
      simp [each]
  | cons token tokens ih =>
      obtain ⟨u, out, run⟩ := cancelByToken_run distinct token true false
      rw [if_neg (by simp)] at run
      obtain ⟨u', out', run'⟩ := ih (s := { s with
        manager := u
        guidsByRequests := Function.update s.guidsByRequests token none }) (out.distinct distinct)
      refine ⟨u', ?_, ?_⟩
      · exact (out.trans out').congr fun x => by simp
      · simp only [each, bind_apply, run, Option.bind_some, update_apply, run']
        congr 3
        funext x
        by_cases same : x = token
        · simp [same]
        · simp [same]

/-- `cancelRequestsForGuid` drops the list of the guid, the entries of its tokens and their
requests. -/
theorem cancelRequestsForGuid_run (distinct : s.manager.Distinct) (guid : Int) :
    ∃ u, s.manager.Without (· ∈ s.requests guid) u ∧
      cancelRequestsForGuid guid s = some ((), { s with
        manager := u
        requestsByGuids := Function.update s.requestsByGuids guid none
        guidsByRequests :=
          fun x => if x ∈ s.requests guid then none else s.guidsByRequests x }) := by
  cases found : s.requestsByGuids guid with
  | none =>
      refine ⟨s.manager, ⟨by simp [requests, found], by simp [requests, found]⟩, ?_⟩
      simp only [cancelRequestsForGuid, bind_apply, read_apply, Option.bind_some, found, pure_apply,
        requests, Option.getD_none, List.not_mem_nil, if_false]
      rw [← found, Function.update_eq_self]
  | some tokens =>
      obtain ⟨u, out, run⟩ := cancelLoop_run tokens distinct
      have listed : s.requests guid = tokens := by simp [requests, found]
      rw [listed]
      refine ⟨u, out, ?_⟩
      simp only [cancelRequestsForGuid, bind_apply, read_apply, Option.bind_some, found] at run ⊢
      rw [run]
      rfl

theorem cancelsExactly_of_inverse (distinct : s.manager.Distinct) (inverse : s.Inverse) :
    s.CancelsExactly := by
  intro guid
  obtain ⟨u, out, run⟩ := cancelRequestsForGuid_run distinct guid
  exact ⟨_, run, out.congr fun x => by simp [inverse.mem_iff]⟩

theorem cancelRequestsForGuid_inverse (inverse : s.Inverse) (guid : Int) (u : ConnectionsManager) :
    Inverse { s with
      manager := u
      requestsByGuids := Function.update s.requestsByGuids guid none
      guidsByRequests := fun x => if x ∈ s.requests guid then none else s.guidsByRequests x } := by
  have others : ∀ g, Tables.requests { s with
      manager := u
      requestsByGuids := Function.update s.requestsByGuids guid none
      guidsByRequests := fun x => if x ∈ s.requests guid then none else s.guidsByRequests x } g =
        if g = guid then [] else s.requests g := by
    intro g
    by_cases here : g = guid
    · simp [requests, here]
    · simp [requests, here]
  refine ⟨?_, ?_, ?_⟩
  · intro x g
    rw [others]
    by_cases here : g = guid
    · subst here
      simp [inverse.mem_iff]
    · simp only [if_neg here, inverse.mem_iff]
      by_cases gone : s.guidsByRequests x = some guid
      · simp [gone, Ne.symm here]
      · simp [gone]
  · intro g
    rw [others]
    by_cases here : g = guid
    · simp [here]
    · simpa [here] using inverse.nodup g
  · intro g
    by_cases here : g = guid
    · simp [here]
    · simpa [here] using inverse.ne_nil g

end Tables

end Tables

/-! ## Runs -/

/-- The calls that touch the tables, and whatever else the manager does between them. -/
inductive GuidCall
  | bindRequestToGuid (requestToken guid : Int)
  | complete (r : Request)
  | cancelRequest (token : Int) (notifyServer : Bool)
  | cancelRequestsForGuid (guid : Int)
  | other (manager : ConnectionsManager) (distinct : manager.Distinct)

namespace GuidCall

open Tables

def run : GuidCall → Program Tables Unit
  | .bindRequestToGuid requestToken guid => Tables.bindRequestToGuid requestToken guid
  | .complete r => Tables.complete r
  | .cancelRequest token notifyServer => Tables.cancelRequest token notifyServer
  | .cancelRequestsForGuid guid => Tables.cancelRequestsForGuid guid
  | .other manager _ => update fun s => { s with manager }

/-- A token is bound only while it is not bound, and a bound token is completed or cancelled only
where its guid is its own number. -/
def Allowed (s : Tables) : GuidCall → Prop
  | .bindRequestToGuid requestToken _ => s.guidsByRequests requestToken = none
  | .complete r => s.OwnGuid r.requestToken
  | .cancelRequest token _ => s.Pending token → s.OwnGuid token
  | .cancelRequestsForGuid _ => True
  | .other _ _ => True

/-- Every call of the run is allowed where it is made. -/
def AllowedRun : List GuidCall → Tables → Prop
  | [], _ => True
  | call :: calls, s => call.Allowed s ∧ ∀ t, call.run s = some ((), t) → AllowedRun calls t

/-- The run finishes, and all its states have the property. -/
def Throughout (P : Tables → Prop) : List GuidCall → Tables → Prop
  | [], s => P s
  | call :: calls, s => P s ∧ ∃ t, call.run s = some ((), t) ∧ Throughout P calls t

variable {s : Tables}

theorem complete_inverse_iff (distinct : s.manager.Distinct) (inverse : s.Inverse) (r : Request) :
    ∃ t, Tables.complete r s = some ((), t) ∧ t.manager.Distinct ∧
      (t.Inverse ↔ s.OwnGuid r.requestToken) := by
  obtain ⟨t, run, manager⟩ := removeRequestFromGuid_run r.requestToken s
  refine ⟨{ t with manager := { t.manager with
    runningRequests := t.manager.runningRequests.eraseP fun x => x.id == r.id } }, ?_, ?_, ?_⟩
  · simp only [Tables.complete, bind_apply, run, Option.bind_some]
    exact lift_run rfl
  · rw [← manager] at distinct
    exact distinct.of_sublist (List.Sublist.refl _) List.eraseP_sublist
  · rw [← remove_inverse_iff inverse run]
    exact ⟨fun h => h.of_manager t.manager, fun h => h.of_manager _⟩

theorem cancelRequest_inverse_iff (distinct : s.manager.Distinct) (inverse : s.Inverse)
    (token : Int)
    (notifyServer : Bool) :
    ∃ t, Tables.cancelRequest token notifyServer s = some ((), t) ∧ t.manager.Distinct ∧
      (t.Inverse ↔ (s.Pending token → s.OwnGuid token)) := by
  by_cases zero : token = 0
  · refine ⟨s, by simp [Tables.cancelRequest, Program.when, zero], distinct,
      fun _ pending => ?_, fun _ => inverse⟩
    exact absurd zero pending.1
  · obtain ⟨u, out, run⟩ := cancelByToken_run distinct token notifyServer true
    have start : Tables.cancelRequest token notifyServer s =
        cancelByToken token notifyServer true s := by
      simp [Tables.cancelRequest, Program.when, zero]
    rw [start, run]
    by_cases pending : s.Pending token
    · rw [if_pos ⟨pending, rfl⟩]
      obtain ⟨t, removed, manager⟩ := removeRequestFromGuid_run token { s with manager := u }
      refine ⟨t, removed, ?_, ?_⟩
      · rw [manager]
        exact out.distinct distinct
      · rw [remove_inverse_iff (inverse.of_manager u) removed]
        exact ⟨fun own _ => own, fun own => own pending⟩
    · rw [if_neg fun both => pending both.1]
      exact ⟨_, rfl, out.distinct distinct, fun _ found => absurd found pending, fun _ =>
        inverse.of_manager u⟩

/-- One call finishes, and keeps the tables inverse exactly where it is allowed. -/
theorem run_inverse_iff (distinct : s.manager.Distinct) (inverse : s.Inverse) (call : GuidCall) :
    ∃ t, call.run s = some ((), t) ∧ t.manager.Distinct ∧ (t.Inverse ↔ call.Allowed s) := by
  cases call with
  | bindRequestToGuid requestToken guid =>
      obtain ⟨t, run, manager, -⟩ := bindRequestToGuid_run requestToken guid s
      refine ⟨t, run, ?_, bind_inverse_iff inverse run⟩
      rwa [manager]
  | complete r => exact complete_inverse_iff distinct inverse r
  | cancelRequest token notifyServer =>
      exact cancelRequest_inverse_iff distinct inverse token notifyServer
  | cancelRequestsForGuid guid =>
      obtain ⟨u, out, run⟩ := cancelRequestsForGuid_run distinct guid
      refine ⟨_, run, out.distinct distinct, fun _ => trivial, fun _ => ?_⟩
      exact cancelRequestsForGuid_inverse inverse guid u
  | other manager distinct' =>
      exact ⟨_, rfl, distinct', fun _ => trivial, fun _ => inverse.of_manager manager⟩

theorem throughout_iff (calls : List GuidCall) (distinct : s.manager.Distinct)
    (inverse : s.Inverse) :
    Throughout (fun s => s.Inverse ∧ s.CancelsExactly) calls s ↔ AllowedRun calls s := by
  have here : s.Inverse ∧ s.CancelsExactly := ⟨inverse, cancelsExactly_of_inverse distinct inverse⟩
  induction calls generalizing s with
  | nil => exact ⟨fun _ => trivial, fun _ => here⟩
  | cons call calls ih =>
      obtain ⟨t, run, distinct', step⟩ := run_inverse_iff distinct inverse call
      have only : ∀ t', call.run s = some ((), t') → t' = t := by
        intro t' run'
        rw [run] at run'
        exact (congrArg Prod.snd (Option.some.inj run')).symm
      constructor
      · rintro ⟨-, t', run', rest⟩
        obtain rfl := only t' run'
        have inverse' : t'.Inverse := by
          cases calls with
          | nil => exact rest.1
          | cons => exact rest.1.1
        refine ⟨step.1 inverse', fun t'' run'' => ?_⟩
        obtain rfl := only t'' run''
        exact (ih distinct' inverse' ⟨inverse', cancelsExactly_of_inverse distinct' inverse'⟩).1
          rest
      · rintro ⟨allowed, rest⟩
        have inverse' := step.2 allowed
        refine ⟨here, t, run, ?_⟩
        exact (ih distinct' inverse' ⟨inverse', cancelsExactly_of_inverse distinct' inverse'⟩).2
          (rest t run)

theorem distinct_start : (({} : Tables).manager).Distinct :=
  ⟨by simp, by simp, by simp⟩

/-- The tables of a new manager stay inverse to each other, and `cancelRequestsForGuid` cancels
exactly the requests of its guid, in all states of a run exactly when all its calls are allowed. -/
theorem guid_tables_iff (calls : List GuidCall) :
    Throughout (fun s => s.Inverse ∧ s.CancelsExactly) calls {} ↔ AllowedRun calls {} :=
  throughout_iff calls distinct_start (inverse_start {})

/-- A running request. -/
def runningPing : Request where
  id := 0
  rawRequest := .ping
  onCompleteRequestCallback := .none
  requestToken := 1
  connectionType := ConnectionType.generic
  requestFlags := 0
  datacenterId := 2

/-- A running request of token 1 is bound to guid 7 and completed: the token stays in the list of
the guid. -/
theorem not_inverse_completed :
    ¬ Throughout (fun s => s.Inverse ∧ s.CancelsExactly)
      [.other { runningRequests := [runningPing] } ⟨by decide, by decide, by decide⟩,
        .bindRequestToGuid 1 7, .complete runningPing] {} := by
  rw [throughout_iff _ distinct_start (inverse_start {})]
  rintro ⟨-, start⟩
  have own := ((start _ rfl).2 _ rfl).1 7 rfl
  exact absurd own (by decide)

end GuidCall

end Mtproto.Manager
