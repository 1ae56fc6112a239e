import Mtproto.Manager.Changes

/-!
A request is completed at most once, and not after it was cancelled.  A request object stands in one
of the two lists until it is completed or cancelled; the only way for it to stay is an error 401
that comes from another datacenter, after which a second answer calls the callback again.
-/

namespace Mtproto.Manager

open Lib Program Relation

/-! ## The record of a run -/

/-- The request was completed or cancelled. -/
def Event.Ends (p : Nat) (e : Event) : Prop := e = .onComplete p ∨ e = .cancelled p

/-- No callback is called after the request was completed or cancelled. -/
def CompletesOnce (trace : List Event) : Prop :=
  trace.Pairwise fun earlier later => ∀ p, later = .onComplete p → ¬ earlier.Ends p

theorem completesOnce_append_iff {trace : List Event} {e : Event} :
    CompletesOnce (trace ++ [e]) ↔
      CompletesOnce trace ∧ ∀ earlier ∈ trace, ∀ p, e = .onComplete p → ¬ earlier.Ends p := by
  simp [CompletesOnce, List.pairwise_append]

/-- The request whose callback is called. -/
def Event.completes : Event → Option Nat
  | .onComplete p => some p
  | _ => none

theorem Event.eq_of_completes {e : Event} {p : Nat} (completes : e.completes = some p) :
    e = .onComplete p := by
  cases e with
  | onComplete q => exact congrArg Event.onComplete (Option.some.inj completes)
  | _ => cases completes

/-- So no request is completed twice. -/
theorem CompletesOnce.nodup {trace : List Event} (once : CompletesOnce trace) :
    (trace.filterMap (·.completes)).Nodup := by
  refine List.pairwise_filterMap.2 (once.imp fun {earlier later} alone p first q second same => ?_)
  exact alone q (Event.eq_of_completes second) (.inl (same ▸ Event.eq_of_completes first))

/-! ## Requests in the lists -/

/-- What a list has lost when the entry that was found is erased. -/
theorem perm_eraseP_of_find {α : Type} {l : List α} {matching : α → Bool} {a : α}
    (found : l.find? matching = some a) :
    (l.eraseP matching ++ [a]).Perm l := by
  obtain ⟨own, before_it, behind, rfl, none⟩ := List.find?_eq_some_iff_append.1 found
  have skipped : ∀ b ∈ before_it, ¬ matching b = true := fun b mem => by simpa using none b mem
  rw [List.eraseP_append_right _ skipped, List.eraseP_cons_of_pos own, List.append_assoc]
  exact List.Perm.append_left before_it (List.perm_append_singleton a behind)

/-- The numbers of requests. -/
def ids (requests : List Request) : List Nat := requests.map (·.id)

theorem ids_eraseP (requests : List Request) (p : Nat) :
    ids (requests.eraseP fun r => r.id == p) = (ids requests).erase p := by
  rw [ids, ids, List.erase_eq_eraseP', List.eraseP_map]
  rfl

theorem mem_ids {requests : List Request} {p : Nat} : p ∈ ids requests ↔ ∃ r ∈ requests, r.id = p :=
  List.mem_map

theorem ids_modifyRequest {requests : List Request} {p : Nat} {f : Request → Request}
    (same : ∀ r, (f r).id = r.id) :
    ids (requests.map fun r => if r.id = p then f r else r) = ids requests := by
  rw [ids, List.map_map]
  refine List.map_congr_left fun r _ => ?_
  rw [Function.comp_apply]
  split
  · exact same r
  · rfl

/-- A request that leaves the running ones for the queue. -/
theorem ids_toQueue (queue : List Request) {running : List Request} {p : Nat} {r : Request}
    (found : running.find? (fun r => r.id == p) = some r) :
    (ids (queue ++ [r]) ++ ids (running.eraseP fun r => r.id == p)).Perm
      (ids queue ++ ids running) := by
  have own : r.id = p := by simpa using List.find?_some found
  have mem : p ∈ ids running := mem_ids.2 ⟨r, List.mem_of_find?_eq_some found, own⟩
  have behind : ids (queue ++ [r]) = ids queue ++ [p] := by simp [ids, own]
  rw [ids_eraseP, behind, List.append_assoc]
  exact (List.perm_cons_erase mem).symm.append_left _

/-- A request that leaves the queue for the running ones. -/
theorem ids_toRunning {queue running : List Request} {p : Nat} {r : Request}
    (found : queue.find? (fun r => r.id == p) = some r) :
    (ids (queue.eraseP fun r => r.id == p) ++ ids (running ++ [r])).Perm
      (ids queue ++ ids running) := by
  have moved := ids_toQueue running found
  exact List.perm_append_comm.trans (moved.trans List.perm_append_comm)

/-- A request behind the queue. -/
theorem ids_enqueue (queue running : List Request) (r : Request) :
    (ids (queue ++ [r]) ++ ids running).Perm (r.id :: (ids queue ++ ids running)) := by
  have behind : ids (queue ++ [r]) = ids queue ++ [r.id] := by simp [ids]
  rw [behind, List.append_assoc]
  exact List.perm_middle

/-- Every object stands in the lists at most once, and one that was completed or cancelled stands in
neither; while its callback is called it may still run. -/
structure ConnectionsManager.Accounted (called : Nat → Prop) (s : ConnectionsManager) : Prop where
  once : CompletesOnce s.trace
  nodup : (ids s.requestsQueue ++ ids s.runningRequests).Nodup
  fresh : ∀ p ∈ ids s.requestsQueue ++ ids s.runningRequests, p < s.nextRequest
  past : ∀ e ∈ s.trace, ∀ p, e.Ends p → p < s.nextRequest
  gone : ∀ e ∈ s.trace, ∀ p, e.Ends p → p ∉ ids s.requestsQueue ∧
    (¬ called p → p ∉ ids s.runningRequests)

/-- No request has ended, and none has come. -/
structure Fewer (s t : ConnectionsManager) : Prop where
  requestsQueue : (ids t.requestsQueue).Sublist (ids s.requestsQueue)
  runningRequests : (ids t.runningRequests).Sublist (ids s.runningRequests)
  nextRequest : t.nextRequest = s.nextRequest
  trace : ∃ events, t.trace = s.trace ++ events ∧ ∀ e ∈ events, ∀ p, ¬ e.Ends p

theorem Fewer.of_same {s t : ConnectionsManager} (queue : t.requestsQueue = s.requestsQueue)
    (running : t.runningRequests = s.runningRequests) (next : t.nextRequest = s.nextRequest)
    (trace : t.trace = s.trace) : Fewer s t :=
  ⟨queue ▸ .refl _, running ▸ .refl _, next, [], by simp [trace], by simp⟩

/-- One event was added that ends no request. -/
theorem Fewer.of_event {s t : ConnectionsManager} {e : Event}
    (queue : t.requestsQueue = s.requestsQueue)
    (running : t.runningRequests = s.runningRequests) (next : t.nextRequest = s.nextRequest)
    (trace : t.trace = s.trace ++ [e]) (plain : ∀ p, ¬ e.Ends p) : Fewer s t :=
  ⟨queue ▸ .refl _, running ▸ .refl _, next, [e], trace,
    fun e' mem => by rwa [List.mem_singleton.1 mem]⟩

section Kept

variable {env : Env} {K : Kind → Prop} {called : Nat → Prop} {s t : ConnectionsManager}

theorem Fewer.accounted (fewer : Fewer s t) (accounted : s.Accounted called) :
    t.Accounted called := by
  obtain ⟨events, trace, plain⟩ := fewer.trace
  have lists := fewer.requestsQueue.append fewer.runningRequests
  have old : ∀ e ∈ t.trace, ∀ p, e.Ends p → e ∈ s.trace := by
    intro e mem p ends
    rw [trace] at mem
    exact (List.mem_append.1 mem).resolve_right fun new => plain e new p ends
  refine ⟨?_, accounted.nodup.sublist lists, fun p mem => ?_, fun e mem p ends => ?_,
    fun e mem p ends => ?_⟩
  · rw [trace, CompletesOnce, List.pairwise_append]
    refine ⟨accounted.once, ?_, fun earlier _ later mem p own =>
      absurd (.inl own) (plain later mem p)⟩
    refine List.pairwise_of_forall_mem_list ?_
    exact fun earlier _ later mem p own => absurd (.inl own) (plain later mem p)
  · rw [fewer.nextRequest]
    exact accounted.fresh p (lists.subset mem)
  · rw [fewer.nextRequest]
    exact accounted.past e (old e mem p ends) p ends
  · obtain ⟨queue, running⟩ := accounted.gone e (old e mem p ends) p ends
    refine ⟨fun here => queue (fewer.requestsQueue.subset here), fun open_request here => ?_⟩
    exact running open_request (fewer.runningRequests.subset here)

theorem Calm.fewer (calm : Calm env s t) : Fewer s t := by
  cases calm with
  | other same => exact .of_same same.requestsQueue same.runningRequests same.nextRequest same.trace
  | message c x msgId exist later aligned =>
      exact .of_event rfl rfl rfl rfl fun p ends => by rcases ends with h | h <;> cases h
  | send c msgIds =>
      exact .of_event rfl rfl rfl rfl fun p ends => by rcases ends with h | h <;> cases h
  | batch b d messages plain => cases b <;> exact .of_same rfl rfl rfl rfl
  | _ => exact .of_same rfl rfl rfl rfl

theorem fewer_modifyRequest (s : ConnectionsManager) (p : Nat) {f : Request → Request}
    (same : ∀ r, (f r).id = r.id) :
    Fewer s (s.modifyRequest p f) := by
  refine ⟨?_, ?_, rfl, [], (List.append_nil _).symm, by simp⟩
  · exact (ids_modifyRequest same).symm ▸ .refl _
  · exact (ids_modifyRequest same).symm ▸ .refl _

theorem fewer_modifyDatacenter (s : ConnectionsManager) (d : Nat) (f : Datacenter → Datacenter) :
    Fewer s (s.modifyDatacenter d f) := by
  unfold ConnectionsManager.modifyDatacenter
  split <;> exact .of_same rfl rfl rfl rfl

theorem Act.fewer (act : Act env s t) : Fewer s t := by
  cases act with
  | edit p edit =>
      cases edit with
      | calm calm => exact calm.fewer
      | request f settled => exact fewer_modifyRequest s p fun r => (settled r).id
  | datacenter d f same => exact fewer_modifyDatacenter s d f
  | drop queue running queued ran =>
      exact ⟨queued.map _, ran.map _, rfl, [], (List.append_nil _).symm, by simp⟩
  | _ => exact .of_same rfl rfl rfl rfl

/-! ## Cancelled, moved and new requests -/

/-- A request that is cancelled leaves its list. -/
theorem accounted_cancelled {p : Nat} (accounted : s.Accounted called)
    (here : p ∈ ids s.requestsQueue ++ ids s.runningRequests) {queue running : List Request}
    (queued : (ids queue).Sublist (ids s.requestsQueue))
    (ran : (ids running).Sublist (ids s.runningRequests))
    (left : p ∉ ids queue ++ ids running) :
    ({ s.record (.cancelled p) with requestsQueue := queue, runningRequests := running } :
      ConnectionsManager).Accounted called := by
  have lists := queued.append ran
  refine ⟨?_, accounted.nodup.sublist lists, fun q mem => accounted.fresh q (lists.subset mem), ?_,
    ?_⟩
  · exact completesOnce_append_iff.2 ⟨accounted.once, fun _ _ q own => by cases own⟩
  · intro e mem q ends
    rcases List.mem_append.1 mem with old | new
    · exact accounted.past e old q ends
    · rw [List.mem_singleton.1 new] at ends
      rcases ends with h | h
      · cases h
      · cases h
        exact accounted.fresh p here
  · intro e mem q ends
    rcases List.mem_append.1 mem with old | new
    · obtain ⟨none_queued, none_running⟩ := accounted.gone e old q ends
      exact ⟨fun mem => none_queued (queued.subset mem), fun open_request mem =>
        none_running open_request (ran.subset mem)⟩
    · rw [List.mem_singleton.1 new] at ends
      rcases ends with h | h
      · cases h
      · cases h
        exact ⟨fun mem => left (List.mem_append_left _ mem), fun _ mem =>
          left (List.mem_append_right _ mem)⟩

/-- A request that goes from one list to the other is the same request. -/
theorem accounted_moved {queue running : List Request}
    (perm : (ids queue ++ ids running).Perm (ids s.requestsQueue ++ ids s.runningRequests))
    (accounted : s.Accounted fun _ => False) :
    ({ s with requestsQueue := queue, runningRequests := running } : ConnectionsManager).Accounted
    fun _ => False := by
  refine ⟨accounted.once, perm.nodup_iff.2 accounted.nodup, fun p mem =>
    accounted.fresh p (perm.subset mem),
    accounted.past, fun e mem p ends => ?_⟩
  have nowhere : p ∉ ids queue ++ ids running := by
    intro here
    obtain ⟨none_queued, none_running⟩ := accounted.gone e mem p ends
    rcases List.mem_append.1 (perm.subset here) with queued | ran
    · exact none_queued queued
    · exact none_running id ran
  exact ⟨fun queued => nowhere (List.mem_append_left _ queued), fun _ ran =>
    nowhere (List.mem_append_right _ ran)⟩

theorem accounted_enqueue {r : Request} (new : r.id = s.nextRequest)
    (accounted : s.Accounted called) :
    ({ s with requestsQueue := s.requestsQueue ++ [r], nextRequest := s.nextRequest + 1 } :
      ConnectionsManager).Accounted called := by
  have queue : ids (s.requestsQueue ++ [r]) = ids s.requestsQueue ++
    [s.nextRequest] := by simp [ids, new]
  have unused : s.nextRequest ∉ ids s.requestsQueue ++ ids s.runningRequests := fun mem =>
    absurd (accounted.fresh _ mem) (Nat.lt_irrefl _)
  have perm := new ▸ ids_enqueue s.requestsQueue s.runningRequests r
  refine ⟨accounted.once, ?_, fun p mem => ?_, fun e mem p ends => ?_, fun e mem p ends => ?_⟩
  · exact perm.nodup_iff.2 (List.nodup_cons.2 ⟨unused, accounted.nodup⟩)
  · rcases List.mem_cons.1 (perm.subset mem) with rfl | old
    · exact Nat.lt_succ_self _
    · exact Nat.lt_succ_of_lt (accounted.fresh p old)
  · exact Nat.lt_succ_of_lt (accounted.past e mem p ends)
  · obtain ⟨none_queued, none_running⟩ := accounted.gone e mem p ends
    refine ⟨fun here => ?_, none_running⟩
    change p ∈ ids (s.requestsQueue ++ [r]) at here
    rw [queue] at here
    rcases List.mem_append.1 here with old | own
    · exact none_queued old
    · exact absurd (accounted.past e mem p ends) (by simp [List.mem_singleton.1 own])

/-! ## Runs of changes -/

theorem Acts.accounted (acts : Acts env s t) (accounted : s.Accounted called) :
    t.Accounted called := by
  induction acts with
  | refl => exact accounted
  | tail _ act ih => exact act.fewer.accounted ih

theorem Turn.accounted (plain : K .requeue → called = fun _ => False) (turn : Turn env K s t)
    (accounted : s.Accounted called) : t.Accounted called := by
  have nodup := List.nodup_append.1 accounted.nodup
  cases turn with
  | act act => exact act.fewer.accounted accounted
  | rest same =>
      exact Fewer.accounted
        (.of_same same.requestsQueue same.runningRequests same.nextRequest same.trace) accounted
  | enqueue r new unsent => exact accounted_enqueue new accounted
  | request p f same => exact (fewer_modifyRequest s p fun r => (same r).id).accounted accounted
  | toQueue p r allowed running =>
      obtain rfl := plain allowed
      exact accounted_moved (ids_toQueue _ running) accounted
  | toRunning p r allowed queued =>
      obtain rfl := plain allowed
      exact accounted_moved (ids_toRunning queued) accounted
  | cancelQueued p queued =>
      have here : p ∈ ids s.requestsQueue := mem_ids.2 queued
      refine accounted_cancelled accounted (List.mem_append_left _ here) (List.eraseP_sublist.map _)
        (.refl _) ?_
      rw [ids_eraseP]
      intro left
      rcases List.mem_append.1 left with left | left
      · exact nodup.1.not_mem_erase left
      · exact nodup.2.2 p here p left rfl
  | cancelRunning p running =>
      have here : p ∈ ids s.runningRequests := mem_ids.2 running
      refine accounted_cancelled accounted (List.mem_append_right _ here) (.refl _)
        (List.eraseP_sublist.map _) ?_
      rw [ids_eraseP]
      intro left
      rcases List.mem_append.1 left with left | left
      · exact nodup.2.2 p left p here rfl
      · exact nodup.2.1.not_mem_erase left
  | number c x increment msgId n exist later aligned read =>
      refine Fewer.accounted (s := s) (.of_event rfl rfl rfl rfl fun p ends => ?_) accounted
      rcases ends with h | h <;> cases h
  | token c x exist connecting =>
      refine Fewer.accounted (s := s) (.of_event rfl rfl rfl rfl fun p ends => ?_) accounted
      rcases ends with h | h <;> cases h
  | @migrate t id acts known =>
      have begun : Fewer s { s with movingToDatacenterId := id } := .of_same rfl rfl rfl rfl
      have moved := Acts.accounted acts (begun.accounted accounted)
      exact Fewer.accounted (s := t) (.of_same rfl rfl rfl rfl) moved
  | configure d f => exact (fewer_modifyDatacenter s d f).accounted accounted
  | _ => exact Fewer.accounted (s := s) (.of_same rfl rfl rfl rfl) accounted

theorem Turns.accounted (plain : K .requeue → called = fun _ => False) (turns : Turns env K s t)
    (accounted : s.Accounted called) : t.Accounted called := by
  induction turns with
  | refl => exact accounted
  | tail _ turn ih => exact turn.accounted plain ih

/-- A request whose callback is called has not ended before. -/
theorem accounted_record {p : Nat} (running : ∃ r ∈ s.runningRequests, r.id = p)
    (accounted : s.Accounted fun _ => False) :
    (s.record (.onComplete p)).Accounted fun q => q = p := by
  have here : p ∈ ids s.runningRequests := mem_ids.2 running
  have unused := List.nodup_append.1 accounted.nodup
  refine ⟨?_, accounted.nodup, accounted.fresh, fun e mem q ends => ?_, fun e mem q ends => ?_⟩
  · refine completesOnce_append_iff.2 ⟨accounted.once, fun earlier mem q own ends => ?_⟩
    cases own
    exact (accounted.gone earlier mem p ends).2 id here
  · rcases List.mem_append.1 mem with old | new
    · exact accounted.past e old q ends
    · rw [List.mem_singleton.1 new] at ends
      rcases ends with h | h
      · cases h
        exact accounted.fresh p (List.mem_append_right _ here)
      · cases h
  · rcases List.mem_append.1 mem with old | new
    · obtain ⟨queue, running⟩ := accounted.gone e old q ends
      exact ⟨queue, fun _ => running id⟩
    · rw [List.mem_singleton.1 new] at ends
      rcases ends with h | h
      · cases h
        exact ⟨fun queued => unused.2.2 p queued p here rfl, fun other => absurd rfl other⟩
      · cases h

/-- After that it leaves the list. -/
theorem accounted_withoutRunning {p : Nat} (accounted : s.Accounted fun q => q = p) :
    (s.withoutRunning p).Accounted fun _ => False := by
  have ran : (ids (s.withoutRunning p).runningRequests).Sublist (ids s.runningRequests) :=
    List.eraseP_sublist.map _
  have lists := (List.Sublist.refl (ids s.requestsQueue)).append ran
  refine ⟨accounted.once, accounted.nodup.sublist lists, fun q mem =>
    accounted.fresh q (lists.subset mem),
    accounted.past, fun e mem q ends => ?_⟩
  obtain ⟨queue, running⟩ := accounted.gone e mem q ends
  refine ⟨queue, fun _ here => ?_⟩
  by_cases own : q = p
  · rw [ConnectionsManager.withoutRunning, ids_eraseP, own] at here
    exact (List.nodup_append.1 accounted.nodup).2.1.not_mem_erase here
  · exact running own (ran.subset here)

theorem Changes.accounted (keep : ¬ K .keepCompleted) (changes : Changes env K s t)
    (accounted : s.Accounted fun _ => False) : t.Accounted fun _ => False := by
  induction changes with
  | refl => exact accounted
  | tail _ change ih =>
      cases change with
      | turn turn => exact turn.accounted (fun _ => rfl) ih
      | complete p running turns =>
          have after_call :=
            Turns.accounted (fun calling => absurd rfl calling.2) turns
              (accounted_record running ih)
          exact accounted_withoutRunning after_call
      | keep p allowed running turns => exact absurd allowed keep

/-! ## Requests in one place -/

/-- Every object stands in the lists at most once, and the next one stands in neither. -/
structure ConnectionsManager.Listed (s : ConnectionsManager) : Prop where
  nodup : (ids s.requestsQueue ++ ids s.runningRequests).Nodup
  fresh : ∀ p ∈ ids s.requestsQueue ++ ids s.runningRequests, p < s.nextRequest

theorem Fewer.listed (fewer : Fewer s t) (listed : s.Listed) : t.Listed := by
  have lists := fewer.requestsQueue.append fewer.runningRequests
  refine ⟨listed.nodup.sublist lists, fun p mem => ?_⟩
  rw [fewer.nextRequest]
  exact listed.fresh p (lists.subset mem)

theorem listed_of_perm (listed : s.Listed) (next : t.nextRequest = s.nextRequest)
    (perm : (ids t.requestsQueue ++ ids t.runningRequests).Perm (ids s.requestsQueue ++
      ids s.runningRequests)) :
    t.Listed :=
  ⟨perm.nodup_iff.2 listed.nodup, fun p mem => next ▸ listed.fresh p (perm.subset mem)⟩

theorem Acts.listed (acts : Acts env s t) (listed : s.Listed) : t.Listed := by
  induction acts with
  | refl => exact listed
  | tail _ act ih => exact act.fewer.listed ih

theorem Turn.listed (turn : Turn env K s t) (listed : s.Listed) : t.Listed := by
  have lists : ∀ {queue running : List Request}, queue.Sublist s.requestsQueue →
    running.Sublist s.runningRequests →
      (ids queue ++ ids running).Sublist (ids s.requestsQueue ++ ids s.runningRequests) :=
    fun queued ran => (queued.map _).append (ran.map _)
  have dropped : ∀ {queue running : List Request}, queue.Sublist s.requestsQueue →
      running.Sublist s.runningRequests →
      ∀ trace, ({ s with requestsQueue := queue, runningRequests := running, trace := trace } :
        ConnectionsManager).Listed := fun queued ran trace =>
    ⟨listed.nodup.sublist (lists queued ran), fun p mem =>
      listed.fresh p ((lists queued ran).subset mem)⟩
  cases turn with
  | act act => exact act.fewer.listed listed
  | rest same =>
      refine listed_of_perm listed same.nextRequest ?_
      rw [same.requestsQueue, same.runningRequests]
  | enqueue r new unsent =>
      have perm := new ▸ ids_enqueue s.requestsQueue s.runningRequests r
      refine ⟨perm.nodup_iff.2 (List.nodup_cons.2 ⟨fun mem => ?_, listed.nodup⟩), fun p mem => ?_⟩
      · exact absurd (listed.fresh _ mem) (Nat.lt_irrefl _)
      · rcases List.mem_cons.1 (perm.subset mem) with rfl | old
        · exact Nat.lt_succ_self _
        · exact Nat.lt_succ_of_lt (listed.fresh p old)
  | request p f same => exact (fewer_modifyRequest s p fun r => (same r).id).listed listed
  | toQueue p r allowed running => exact listed_of_perm listed rfl (ids_toQueue _ running)
  | toRunning p r allowed queued => exact listed_of_perm listed rfl (ids_toRunning queued)
  | cancelQueued p queued => exact dropped List.eraseP_sublist (.refl _) _
  | cancelRunning p running => exact dropped (.refl _) List.eraseP_sublist _
  | @migrate t id acts known =>
      have begun : ({ s with movingToDatacenterId := id } : ConnectionsManager).Listed :=
        ⟨listed.nodup, listed.fresh⟩
      have moved := Acts.listed acts begun
      exact ⟨moved.nodup, moved.fresh⟩
  | configure d f => exact (fewer_modifyDatacenter s d f).listed listed
  | _ => exact ⟨listed.nodup, listed.fresh⟩

theorem Turns.listed (turns : Turns env K s t) (listed : s.Listed) : t.Listed := by
  induction turns with
  | refl => exact listed
  | tail _ turn ih => exact turn.listed ih

/-- This holds of every run, also where a request stays after its callback was called. -/
theorem Changes.listed (changes : Changes env K s t) (listed : s.Listed) : t.Listed := by
  induction changes with
  | refl => exact listed
  | tail _ change ih =>
      cases change with
      | turn turn => exact turn.listed ih
      | @complete t p running turns =>
          have called := Turns.listed turns ⟨ih.nodup, ih.fresh⟩
          have ran : (t.runningRequests.eraseP fun r => r.id == p).Sublist t.runningRequests :=
            List.eraseP_sublist
          exact Fewer.listed (s := t) ⟨.refl _, ran.map _, rfl, [],
            (List.append_nil _).symm, by simp⟩ called
      | keep p allowed running turns => exact Turns.listed turns ⟨ih.nodup, ih.fresh⟩

end Kept

/-! ## Runs -/

variable {env : Env}

theorem accounted_of_started {config : Option SavedConfig} {s : ConnectionsManager}
    (started : Started env config s) :
    s.Accounted fun _ => False := by
  have same : ∀ f : ConnectionsManager → ConnectionsManager, (∀ s, Fewer s (f s)) →
      Keeps (Preserving (ConnectionsManager.Accounted fun _ => False)) (update f) :=
    fun f fewer => keeps_update fun s => (fewer s).accounted
  have calm : ∀ {α : Type} {m : M α}, Keeps (Calms env) m →
      Keeps (Preserving (ConnectionsManager.Accounted fun _ => False)) m :=
    fun kept s a t run =>
      Turns.accounted (K := fun _ => False) (fun _ => rfl) (turns_lift (kept s a t run).acts)
  have kept : Keeps (Preserving (ConnectionsManager.Accounted fun _ => False))
      (loadConfig env config) := by
    refine keeps_bind ?_ fun _ => keeps_bind ?_ fun _ => keeps_bind ?_ fun _ => ?_
    · cases config with
      | none => exact keeps_pure ()
      | some saved => exact same _ fun _ => .of_same rfl rfl rfl rfl
    · refine keeps_bind keeps_read fun s => keeps_when fun _ => ?_
      refine keeps_bind (calm (keeps_getDatacenterWithId _)) fun found =>
        keeps_bind keeps_read fun s => ?_
      exact keeps_when fun _ => same _ fun _ => .of_same rfl rfl rfl rfl
    · exact same _ fun s => by split <;> exact .of_same rfl rfl rfl rfl
    · refine keeps_bind (calm keeps_reading) fun n => keeps_bind keeps_read fun s =>
        keeps_when fun _ => ?_
      exact keeps_bind (same _ fun _ => .of_same rfl rfl rfl rfl) fun _ => calm keeps_saveConfig
  obtain ⟨userId, version, hasNetwork, enablePushConnection, run⟩ := started
  exact kept _ _ _ run ⟨.nil, .nil, by simp [ids], by simp, by simp⟩

/-- In a run in which no error 401 keeps a request, every callback is called at most once, and not
after the request was cancelled. -/
theorem completesOnce_of_reaches {config : Option SavedConfig} {s : ConnectionsManager}
    (reached : Reaches (step env) (Started env config) (fun s input =>
      ¬ Triggers env input s .keepCompleted) s) :
    CompletesOnce s.trace := by
  have accounted :=
    reached.invariant (fun _ started => accounted_of_started started)
      fun _ _ _ accounted allowed run =>
        Changes.accounted allowed (step_changes run) accounted
  exact accounted.once

/-- A request is sent to the datacenter that is not the current one, and answered twice with an
error 401: once under its first message id, and once under the id it got when it was sent again. -/
def unauthorizedTwice : List Input :=
  [.sendRequest
      { object := .api
        onComplete := .delegate
        flags := RequestFlag.enableUnauthorized ||| RequestFlag.withoutLogin
        datacenterId := 4
        connectionType := ConnectionType.generic
        immediate := true
        requestToken := 1 },
    .runTask, .runQueueCall, .connected ⟨4, .generic⟩, .runQueueCall,
    .received (.rpcResult 280000 (.plain (.rpcError 401 "AUTH_KEY_UNREGISTERED"))) 1 ⟨4,
      .generic⟩ 0 0,
    .runQueueCall,
    .received (.rpcResult 520000 (.plain (.rpcError 401 "AUTH_KEY_UNREGISTERED"))) 5 ⟨4,
      .generic⟩ 0 0]

/-- Its callback is called twice. -/
theorem not_completesOnce_unauthorized :
    ¬ ∀ s, Reaches (step everyTenSeconds) (Started everyTenSeconds (some twoDatacenters))
      (fun _ _ => True) s →
      CompletesOnce s.trace := by
  intro always
  have calls :
    (afterInputs everyTenSeconds (some twoDatacenters) unauthorizedTwice).map (fun after =>
      after.2.trace.filterMap (·.completes)) = some [0, 0] := by
    decide +kernel
  obtain ⟨⟨⟨⟩, s⟩, run, calls⟩ := Option.map_eq_some_iff.1 calls
  have once := always s (reaches_afterInputs (fun _ _ _ => trivial) run)
  have nodup := once.nodup
  rw [calls] at nodup
  exact absurd nodup (by decide)

/-- The same request, whose answer the server sends twice. -/
def answeredTwice : List Input :=
  unauthorizedTwice.take 5 ++
    [.received (.rpcResult 280000 (.plain (.answer .other))) 1 ⟨4, .generic⟩ 0 0, .runQueueCall,
      .received (.rpcResult 280000 (.plain (.answer .other))) 5 ⟨4, .generic⟩ 0 0]

/-- Its callback is called once. -/
theorem completesOnce_answeredTwice :
    ∃ s, afterInputs everyTenSeconds (some twoDatacenters) answeredTwice = some ((), s) ∧
      s.trace.filterMap (·.completes) = [0] ∧ CompletesOnce s.trace := by
  have calls : (afterInputs everyTenSeconds (some twoDatacenters) answeredTwice).map (fun after =>
      after.2.trace.filterMap (·.completes)) = some [0] := by
    decide +kernel
  obtain ⟨⟨⟨⟩, s⟩, run, calls⟩ := Option.map_eq_some_iff.1 calls
  refine ⟨s, run, calls, ?_⟩
  have reached : Reaches (step everyTenSeconds) (Started everyTenSeconds (some twoDatacenters))
      (fun s input => ¬ Triggers everyTenSeconds input s .keepCompleted) s := by
    refine reaches_afterInputs (fun i mem s => ?_) run
    rintro ⟨m, messageId, c, innerMsgId, containerMessageId, rfl, reqMsgId, result, r, object,
      rfl, -, -,
      unpacked, text, rfl, -⟩
    -- neither of the two answers is an error
    simp only [answeredTwice, unauthorizedTwice, List.take_succ_cons, List.take_zero,
      List.cons_append, List.nil_append, List.mem_cons, List.not_mem_nil, or_false, reduceCtorEq,
      false_or, Input.received.injEq, ServerMessage.rpcResult.injEq] at mem
    rcases mem with ⟨⟨-, rfl⟩, -⟩ | ⟨⟨-, rfl⟩, -⟩ <;> cases unpacked
  exact completesOnce_of_reaches reached

end Mtproto.Manager
