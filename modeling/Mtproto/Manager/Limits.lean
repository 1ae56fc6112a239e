import Mathlib.Data.List.Nodup
import Mathlib.Data.Nat.Bitwise
import Mtproto.Manager.Completion
import Mtproto.Manager.Passive

/-!
The limits on running requests: ten uploads, six downloads for each datacenter, sixty generic
requests that may not use an unbound key.  The loop over the running requests counts them, the loop
over the queue admits others while the count is below the limit.  The first loop does not count a
request that waits for a migration, nor one on the generic media connection; and where a request
changes the datacenter of others, they are counted for the old one.
-/

namespace Mtproto.Manager

open Lib Program

/-! ## Limits -/

/-- The kinds of requests with a limit. -/
inductive Limited
  | uploads
  | downloads (datacenterId : Nat)
  | generics
deriving DecidableEq

namespace Limited

/-- How many requests of the kind may run. -/
def limit : Limited → Nat
  | .uploads => 10
  | .downloads _ => 6
  | .generics => 60

/-- The requests of the kind. -/
def covers (currentDatacenterId : Nat) (r : Request) : Limited → Bool
  | .uploads => decide (r.lowType = 4)
  | .downloads d => decide (r.lowType = 2) && decide (r.targetDatacenterId currentDatacenterId = d)
  | .generics => (decide (r.lowType = 1) || decide (r.lowType = 64)) && !r.canUseUnboundKey

/-- How many of them run. -/
def running (kind : Limited) (s : ConnectionsManager) : Nat :=
  s.runningRequests.countP fun r => kind.covers s.currentDatacenterId r

/-- How many of them wait in the queue. -/
def queued (kind : Limited) (s : ConnectionsManager) : Nat :=
  s.requestsQueue.countP fun r => kind.covers s.currentDatacenterId r

/-- What `processRequestQueue` has counted of them. -/
def counter (s : ConnectionsManager) : Limited → Nat
  | .uploads => s.uploadRunningRequestCount
  | .downloads d => (s.downloadRunningRequestCount.find d).getD 0
  | .generics => s.genericRunningRequestCount

end Limited

/-- No kind of requests is over its limit. -/
def ConnectionsManager.WithinLimits (s : ConnectionsManager) : Prop :=
  ∀ kind : Limited, kind.running s ≤ kind.limit

/-- Whether the loop over the running requests counts the request, if it is of a kind that has a
limit. -/
def Request.isCounted (r : Request) (movingToDatacenterId : Nat) : Bool :=
  !r.waitsForMove movingToDatacenterId && decide (r.lowType ≠ 64)

/-- Whether the request changes the current datacenter, or its own although it is a download. -/
def Request.redirects (r : Request) (movingToDatacenterId : Nat) (currentTime : Int) : Bool :=
  !r.waitsForMove movingToDatacenterId &&
    (r.switches currentTime ||
      (r.hasFlag RequestFlag.tryDifferentDc && decide (r.rawRequest = .getConfig) &&
        decide (r.lowType = 2)))

/-- No request is about to be redirected. -/
def ConnectionsManager.NoRedirects (currentTime : Int) (s : ConnectionsManager) : Prop :=
  ∀ r ∈ s.requestsQueue ++ s.runningRequests, r.redirects s.movingToDatacenterId currentTime = false

/-- Every running request of the kind is counted. -/
def Limited.AllCounted (kind : Limited) (s : ConnectionsManager) : Prop :=
  ∀ r ∈ s.runningRequests, kind.covers s.currentDatacenterId r = true →
    r.isCounted s.movingToDatacenterId = true

/-- A call counts the requests of the kind: every running one is counted, or all that there are stay
within the limit; and downloads are not redirected. -/
structure Limited.Counts (kind : Limited) (currentTime : Int) (s : ConnectionsManager) : Prop where
  counted : kind.AllCounted s ∨ kind.running s + kind.queued s ≤ kind.limit
  settled : ∀ d, kind = .downloads d → s.NoRedirects currentTime

section Covers

variable {current : Nat} {r : Request}

@[simp] theorem covers_uploads :
    Limited.uploads.covers current r = true ↔ r.lowType = 4 := by simp [Limited.covers]

@[simp] theorem covers_downloads {d : Nat} : (Limited.downloads d).covers current r = true ↔
    r.lowType = 2 ∧ r.targetDatacenterId current = d := by
  simp [Limited.covers]

@[simp] theorem covers_generics : Limited.generics.covers current r = true ↔
    (r.lowType = 1 ∨ r.lowType = 64) ∧ r.canUseUnboundKey = false := by
  simp [Limited.covers]

end Covers

/-! ## Badges -/

/-- What the limits ask of a request. -/
def Request.badge (r : Request) : Nat × Nat × Nat × Bool :=
  (r.id, r.connectionType, r.datacenterId, r.canUseUnboundKey)

section Badges

variable {r r' : Request}

theorem badge_fields (same : r'.badge = r.badge) :
    r'.id = r.id ∧ r'.connectionType = r.connectionType ∧ r'.datacenterId = r.datacenterId ∧
      r'.canUseUnboundKey = r.canUseUnboundKey := by
  injection same with id rest
  injection rest with connectionType rest
  injection rest with datacenterId unbound
  exact ⟨id, connectionType, datacenterId, unbound⟩

theorem lowType_badge (same : r'.badge = r.badge) : r'.lowType = r.lowType :=
  congrArg (· % 65536) (badge_fields same).2.1

theorem waitsForMove_badge (same : r'.badge = r.badge) (moving : Nat) :
    r'.waitsForMove moving = r.waitsForMove moving := by
  rw [Request.waitsForMove, Request.waitsForMove, (badge_fields same).2.2.1]

theorem isCounted_badge (same : r'.badge = r.badge) (moving : Nat) :
    r'.isCounted moving = r.isCounted moving := by
  rw [Request.isCounted, Request.isCounted, waitsForMove_badge same, lowType_badge same]

theorem covers_badge (kind : Limited) (current : Nat) (same : r'.badge = r.badge) :
    kind.covers current r' = kind.covers current r := by
  have lowType := lowType_badge same
  obtain ⟨-, -, datacenterId, unbound⟩ := badge_fields same
  cases kind with
  | uploads => rw [Limited.covers, Limited.covers, lowType]
  | downloads d =>
    rw [Limited.covers, Limited.covers, lowType, Request.targetDatacenterId,
      Request.targetDatacenterId, datacenterId]
  | generics => simp only [Limited.covers, lowType, unbound]

/-- Lists with the same badges have the same number of requests with a property that badges tell. -/
theorem countP_badges {l l' : List Request} (same : l'.map Request.badge = l.map Request.badge)
    {Q : Request → Bool}
    (own : ∀ r r', Request.badge r' = r.badge → Q r' = Q r) : l'.countP Q = l.countP Q := by
  induction l generalizing l' with
  | nil =>
    obtain rfl := List.map_eq_nil_iff.1 same
    rfl
  | cons r l ih =>
    obtain ⟨r', rest, rfl, first, rest_same⟩ := List.map_eq_cons_iff.1 same
    rw [List.countP_cons, List.countP_cons, ih rest_same, own r r' first]

theorem exists_badge {l l' : List Request} (same : l'.map Request.badge = l.map Request.badge)
    (mem : r' ∈ l') :
    ∃ r ∈ l, r'.badge = r.badge := by
  have here : r'.badge ∈ l.map Request.badge := same ▸ List.mem_map_of_mem mem
  obtain ⟨r, own, badge⟩ := List.mem_map.1 here
  exact ⟨r, own, badge.symm⟩

theorem ids_badges {l l' : List Request} (same : l'.map Request.badge = l.map Request.badge) :
    ids l' = ids l := by
  have first := congrArg (List.map Prod.fst) same
  rw [List.map_map, List.map_map] at first
  exact first

/-- A request is found where it was. -/
theorem find_badges {l l' : List Request} (same : l'.map Request.badge = l.map Request.badge)
    {p : Nat}
    (found : l'.find? (fun r => r.id == p) = some r') :
    ∃ r, l.find? (fun r => r.id == p) = some r ∧ r'.badge = r.badge := by
  have lookup : ∀ l : List Request,
      (l.map Request.badge).find? (fun badge => badge.1 == p) =
        (l.find? fun r => r.id == p).map Request.badge :=
    fun l => List.find?_map
  have both := lookup l'
  rw [same, lookup l, found] at both
  obtain ⟨r, own, badge⟩ := Option.map_eq_some_iff.1 both
  exact ⟨r, own, badge.symm⟩

end Badges

/-! ## Flags -/

theorem hasBits_two_pow (word k : Nat) : hasBits word (2 ^ k) = word.testBit k := by
  rw [hasBits, Nat.and_two_pow]
  cases word.testBit k <;> simp

/-- A bit is not changed by another one that is set. -/
theorem hasBits_enableUnauthorized (word : Nat) {k : Nat} (other : k ≠ 0) :
    hasBits (word ||| RequestFlag.enableUnauthorized) (2 ^ k) = hasBits word (2 ^ k) := by
  rw [hasBits_two_pow, hasBits_two_pow, Nat.testBit_or]
  have unset : Nat.testBit RequestFlag.enableUnauthorized k = false := by
    exact Bool.eq_false_iff.2 fun set => other (Nat.testBit_one_eq_true_iff_self_eq_zero.1 set)
  rw [unset, Bool.or_false]

/-- Nor by one that is taken away. -/
theorem hasBits_canCompress {word : Nat} (set : hasBits word RequestFlag.canCompress = true)
    {k : Nat} (other : 2 < k) :
    hasBits (word - RequestFlag.canCompress) (2 ^ k) = hasBits word (2 ^ k) := by
  have third : word / 4 % 2 = 1 := by
    have bit := hasBits_two_pow word 2
    rw [Nat.testBit_eq_decide_div_mod_eq] at bit
    exact of_decide_eq_true (bit.symm.trans set)
  have above : (word - 4) / 8 = word / 8 := by omega
  have power : 2 ^ k = 8 * 2 ^ (k - 3) := by
    rw [show (8 : Nat) = 2 ^ 3 from rfl, ← Nat.pow_add, Nat.add_sub_cancel' other]
  rw [hasBits_two_pow, hasBits_two_pow, Nat.testBit_eq_decide_div_mod_eq,
    Nat.testBit_eq_decide_div_mod_eq, power, ← Nat.div_div_eq_div_mul, ← Nat.div_div_eq_div_mul,
    RequestFlag.canCompress, above]

/-! ## Commands that the limits do not notice -/

/-- The requests stand where they stood, with the same badges, and nothing else that the limits are
about has changed. -/
structure Still (currentTime : Int) (s t : ConnectionsManager) : Prop where
  currentDatacenterId : t.currentDatacenterId = s.currentDatacenterId
  movingToDatacenterId : t.movingToDatacenterId = s.movingToDatacenterId
  requestsQueue : t.requestsQueue.map Request.badge = s.requestsQueue.map Request.badge
  runningRequests : t.runningRequests.map Request.badge = s.runningRequests.map Request.badge
  counter : ∀ kind : Limited, kind.counter t = kind.counter s
  settled : s.NoRedirects currentTime → t.NoRedirects currentTime
  plain : s.PlainDownloads → t.PlainDownloads

section Still

variable {env : Env} {currentTime : Int} {s t u : ConnectionsManager}

instance : IsPreorder ConnectionsManager (Still currentTime) where
  refl _ := ⟨rfl, rfl, rfl, rfl, fun _ => rfl, id, id⟩
  trans _ _ _ first second :=
    { currentDatacenterId := second.currentDatacenterId.trans first.currentDatacenterId
      movingToDatacenterId := second.movingToDatacenterId.trans first.movingToDatacenterId
      requestsQueue := second.requestsQueue.trans first.requestsQueue
      runningRequests := second.runningRequests.trans first.runningRequests
      counter := fun kind => (second.counter kind).trans (first.counter kind)
      settled := second.settled ∘ first.settled
      plain := second.plain ∘ first.plain }

theorem Still.trans (first : Still currentTime s t) (second : Still currentTime t u) :
    Still currentTime s u :=
  IsTrans.trans _ _ _ first second

theorem Aside.counter (aside : Aside s t) (kind : Limited) : kind.counter t = kind.counter s := by
  cases kind with
  | uploads => exact aside.uploads
  | downloads d => exact congrArg (fun m : OrderedMap Nat Nat => (m.find d).getD 0) aside.downloads
  | generics => exact aside.generics

theorem Still.of_same (aside : Aside s t) (current : t.currentDatacenterId = s.currentDatacenterId)
    (moving : t.movingToDatacenterId = s.movingToDatacenterId)
    (queue : t.requestsQueue = s.requestsQueue)
    (running : t.runningRequests = s.runningRequests) : Still currentTime s t where
  currentDatacenterId := current
  movingToDatacenterId := moving
  requestsQueue := queue ▸ rfl
  runningRequests := running ▸ rfl
  counter := aside.counter
  settled settled := by
    intro r mem
    rw [queue, running] at mem
    rw [moving]
    exact settled r mem
  plain := aside.plain

/-- What is calm and passive is not noticed. -/
theorem still (env : Env) {α : Type} {m : M α} (calm : Keeps (Calms env) m) [passive : Passive m] :
    Keeps (Still currentTime) m := by
  intro s a t run
  have undisturbed := (calm _ _ _ run).undisturbed
  exact .of_same (passive.keeps _ _ _ run) undisturbed.currentDatacenterId
    undisturbed.movingToDatacenterId
    undisturbed.requestsQueue undisturbed.runningRequests

/-- A change of other fields. -/
theorem still_update {f : ConnectionsManager → ConnectionsManager} (passive : Passive (update f))
    (current : ∀ s, (f s).currentDatacenterId = s.currentDatacenterId)
    (moving : ∀ s, (f s).movingToDatacenterId = s.movingToDatacenterId)
    (queue : ∀ s, (f s).requestsQueue = s.requestsQueue)
    (running : ∀ s, (f s).runningRequests = s.runningRequests) :
    Keeps (Still currentTime) (update f) :=
  keeps_update fun s =>
    .of_same (passive.keeps s () (f s) rfl) (current s) (moving s) (queue s) (running s)

theorem badges_edited {requests : List Request} {p : Nat} {f : Request → Request}
    (badge : ∀ r, (f r).badge = r.badge) :
    (requests.map fun r => if r.id = p then f r else r).map Request.badge =
      requests.map Request.badge := by
  rw [List.map_map]
  refine List.map_congr_left fun r _ => ?_
  rw [Function.comp_apply]
  split
  · exact badge r
  · rfl

/-- An edit that keeps the badge, and after which the request is redirected only if it was
before. -/
theorem still_modifyRequest {p : Nat} {f : Request → Request} (badge : ∀ r, (f r).badge = r.badge)
    (redirects : ∀ r moving, (f r).redirects moving currentTime = true →
      r.redirects moving currentTime = true)
    [passive : Passive (modifyRequest p f)] : Keeps (Still currentTime) (modifyRequest p f) := by
  refine keeps_update fun s => ?_
  have aside : Aside s (s.modifyRequest p f) := passive.keeps s () _ rfl
  refine ⟨rfl, rfl, badges_edited badge, badges_edited badge, aside.counter, fun settled r mem =>
    ?_, aside.plain⟩
  have edited : ∀ r : Request, r.redirects s.movingToDatacenterId currentTime = false →
      (if r.id = p then f r else r).redirects s.movingToDatacenterId currentTime = false := by
    intro r own
    split
    · exact Bool.eq_false_iff.2 fun new => Bool.eq_false_iff.1 own (redirects r _ new)
    · exact own
  rcases List.mem_append.1 mem with queued | running
  · obtain ⟨r', old, rfl⟩ := List.mem_map.1 queued
    exact edited r' (settled r' (List.mem_append_left _ old))
  · obtain ⟨r', old, rfl⟩ := List.mem_map.1 running
    exact edited r' (settled r' (List.mem_append_right _ old))

/-- A request with the same flags and the same query is redirected where it waited as long. -/
theorem redirects_of_same {r r' : Request} {moving : Nat}
    (redirects : r'.redirects moving currentTime = true)
    (badge : r'.badge = r.badge) (query : r'.rawRequest = r.rawRequest)
    (flag : r'.hasFlag RequestFlag.tryDifferentDc = r.hasFlag RequestFlag.tryDifferentDc)
    (start : r'.startTime = r.startTime ∨ r'.startTime = 0 ∨ r'.startTime = currentTime) :
    r.redirects moving currentTime = true := by
  have switches : r'.switches currentTime = true → r.switches currentTime = true := by
    intro switches
    rcases start with same | reset | now
    · rwa [Request.switches, query, flag, same] at switches
    · simp [Request.switches, reset] at switches
    · simp [Request.switches, now] at switches
  rw [Request.redirects, waitsForMove_badge badge, lowType_badge badge, query, flag,
    Bool.and_eq_true, Bool.or_eq_true]
    at redirects
  rw [Request.redirects, Bool.and_eq_true, Bool.or_eq_true]
  exact ⟨redirects.1, redirects.2.imp_left switches⟩

theorem still_generateMessageId : Keeps (Still currentTime) (generateMessageId env) :=
  still env keeps_generateMessageId

theorem still_generateMessageSeqNo (c : ConnectionId) (increment : Bool) :
    Keeps (Still currentTime) (generateMessageSeqNo c increment) := by
  refine keeps_bind (keeps_connection c) fun x => keeps_bind (keeps_when fun _ => ?_) fun _ =>
    keeps_pure _
  exact still_update (passive_modifyConnection c _) (fun _ => rfl) (fun _ => rfl) (fun _ => rfl)
    fun _ => rfl

theorem still_assigned (c : ConnectionId) (msgId : Int) (seqNo : Nat) :
    Keeps (Still currentTime) (assigned c msgId seqNo) :=
  keeps_bind (keeps_connection c) fun _ =>
    still_update (passive_record _) (fun _ => rfl) (fun _ => rfl) (fun _ => rfl) fun _ => rfl

end Still

/-! ## Counting -/

section Counting

variable {s t : ConnectionsManager} {currentTime : Int}

/-- Only the counters have changed. -/
structure OnlyCounters (s t : ConnectionsManager) : Prop where
  currentDatacenterId : t.currentDatacenterId = s.currentDatacenterId
  movingToDatacenterId : t.movingToDatacenterId = s.movingToDatacenterId
  requestsQueue : t.requestsQueue = s.requestsQueue
  runningRequests : t.runningRequests = s.runningRequests
  pendingTasks : t.pendingTasks = s.pendingTasks
  counter : ∀ kind : Limited, kind.counter s ≤ kind.counter t

/-- One more download of a datacenter. -/
theorem counter_download (kind : Limited) (s : ConnectionsManager) (d : Nat) :
    kind.counter { s with
        downloadRunningRequestCount :=
          s.downloadRunningRequestCount.insert d ((s.downloadRunningRequestCount.find d).getD 0 +
            1) } =
      kind.counter s + if kind = .downloads d then 1 else 0 := by
  cases kind with
  | uploads => rfl
  | generics => rfl
  | downloads d' =>
    show ((s.downloadRunningRequestCount.insert d _).find d').getD 0 = _
    rw [OrderedMap.find_insert, Limited.counter]
    by_cases own : d' = d
    · rw [if_pos own, if_pos (congrArg Limited.downloads own), own]
      rfl
    · rw [if_neg own, if_neg fun same => own (Limited.downloads.inj same)]
      rfl

/-- A request that is not on the generic media connection is counted for its kind and its
datacenter. -/
theorem countRunning_run {r : Request} {datacenterId : Nat} {x : Unit}
    (run : countRunning r datacenterId s = some (x, t)) :
    OnlyCounters s t ∧ ∀ kind : Limited, r.lowType ≠ 64 →
      kind.covers s.currentDatacenterId r = true → (∀ d, kind = .downloads d → d = datacenterId) →
        kind.counter s + 1 ≤ kind.counter t := by
  rw [update_run run]
  dsimp only
  split
  · next generic =>
    refine ⟨⟨rfl, rfl, rfl, rfl, rfl, fun kind => ?_⟩, fun kind _ covers _ => ?_⟩
    · cases kind <;> simp [Limited.counter]
    · cases kind <;> simp_all [Limited.counter]
  · next download =>
    have counter := fun kind => counter_download kind s datacenterId
    refine ⟨⟨rfl, rfl, rfl, rfl, rfl, fun kind => (counter kind).symm ▸ Nat.le_add_right _ _⟩,
      fun kind _ covers own => ?_⟩
    rw [counter]
    cases kind with
    | uploads => simp_all
    | generics => simp_all
    | downloads d => rw [if_pos (congrArg Limited.downloads (own d rfl))]
  · next upload =>
    refine ⟨⟨rfl, rfl, rfl, rfl, rfl, fun kind => ?_⟩, fun kind _ covers _ => ?_⟩
    · cases kind <;> simp [Limited.counter]
    · cases kind <;> simp_all [Limited.counter]
  · refine ⟨⟨rfl, rfl, rfl, rfl, rfl, fun _ => Nat.le_refl _⟩, fun kind media covers _ => ?_⟩
    cases kind <;> simp_all

end Counting

/-! ## The loop over the running requests -/

section Running

variable {env : Env} {currentTime : Int} {s t u : ConnectionsManager} {p : Nat} {x : Unit}

/-- What becomes of a running request in the loop: it stays, it goes to the queue, or it has
failed. -/
inductive Outcome (currentTime : Int) (p : Nat) (s : ConnectionsManager) : ConnectionsManager → Prop
  | stays {t : ConnectionsManager} (still : Still currentTime s t) : Outcome currentTime p s t
  | queued {t : ConnectionsManager} {r : Request} (still : Still currentTime s t)
      (found : t.runningRequests.find? (fun r => r.id == p) = some r) :
      Outcome currentTime p s
        { t with
          requestsQueue := t.requestsQueue ++ [r]
          runningRequests := t.runningRequests.eraseP fun r => r.id == p }
  | failed {t : ConnectionsManager} (still : Still currentTime s t) :
      Outcome currentTime p s (t.withoutRunning p)

theorem Still.outcome (first : Still currentTime s t) (outcome : Outcome currentTime p t u) :
    Outcome currentTime p s u := by
  cases outcome with
  | stays still => exact .stays (first.trans still)
  | queued still found => exact .queued (first.trans still) found
  | failed still => exact .failed (first.trans still)

theorem moveToQueue_outcome (run : moveToQueue p s = some (x, t)) : Outcome currentTime p s t := by
  obtain ⟨r, found, run⟩ := runningRequest_bind run
  rw [update_run run]
  exact .queued (refl s) found

/-- The callback of a failed download is one of the application. -/
theorem failRequest_outcome (plain : s.PlainDownloads)
    (download : ∀ r, s.runningRequests.find? (fun r => r.id == p) = some r →
      hasBits r.connectionType ConnectionType.download = true)
    (run : failRequest env p s = some (x, t)) : Outcome currentTime p s t := by
  obtain ⟨r, found, run⟩ := runningRequest_bind run
  have own : r.onCompleteRequestCallback.isPlain = true :=
    plain.runningRequests r (List.mem_of_find?_eq_some found) (download r found)
  obtain ⟨_, u, called, run⟩ := bind_run run
  rw [onComplete, record, update_bind] at called
  have noted : u = s.record (.onComplete r.id) := by
    cases callback : r.onCompleteRequestCallback with
    | none | delegate =>
      rw [callback] at called
      exact (pure_run called).2
    | _ =>
      rw [callback] at own
      cases own
  have recorded : Still currentTime s u := by
    have kept : Keeps (Still currentTime) (record (.onComplete r.id)) :=
      still_update (passive_record _) (fun _ => rfl) (fun _ => rfl) (fun _ => rfl) fun _ => rfl
    exact noted ▸ kept s () _ rfl
  rw [update_run run]
  exact .failed recorded

theorem still_renewMessageId (p : Nat) (c : ConnectionId) :
    Keeps (Still currentTime) (renewMessageId env p c) := by
  refine keeps_bind (keeps_runningRequest p) fun r => keeps_when fun _ => ?_
  refine keeps_bind (still_generateMessageSeqNo c _) fun seqNo =>
    keeps_bind still_generateMessageId fun msgId => ?_
  refine keeps_bind (still_assigned c msgId seqNo) fun _ => ?_
  have passive :
      Passive (modifyRequest p fun r => { r with messageId := msgId, messageSeqNo := seqNo }) :=
    passive_modifyRequest fun _ plain => plain
  exact still_modifyRequest (fun _ => rfl) fun _ _ redirects => redirects

theorem still_retryRequest (call : QueueCall) (p : Nat) (c : ConnectionId) :
    Keeps (Still currentTime) (retryRequest env call currentTime p c) := by
  refine keeps_bind (still_renewMessageId p c) fun _ => keeps_bind keeps_read fun s => ?_
  refine keeps_bind ?_ fun _ => keeps_bind (keeps_runningRequest p) fun r =>
    keeps_when fun _ => still env (keeps_dispatch r c)
  have passive : Passive (modifyRequest p fun r =>
      { r with failedBySalt := false, startTime := currentTime, connectionToken := s.token c }) :=
    passive_modifyRequest fun _ plain => plain
  exact still_modifyRequest (fun _ => rfl) fun _ _ redirects =>
    redirects_of_same redirects rfl rfl rfl (.inr (.inr rfl))

theorem retryIfDue_outcome {call : QueueCall} {c : ConnectionId} (plain : s.PlainDownloads)
    (run : retryIfDue env call currentTime p c s = some (x, t)) : Outcome currentTime p s t := by
  obtain ⟨r, -, run⟩ := runningRequest_bind run
  obtain ⟨_, u, cleared, run⟩ := bind_run run
  have first : Still currentTime s u := by
    refine keeps_when (R := Still currentTime) (fun _ => ?_) _ _ _ cleared
    have passive : Passive (modifyRequest p fun r =>
        (if r.messageId ≠ 0 then r.addRespondMessageId else r).clear false) := by
      refine passive_modifyRequest fun r plain => ?_
      split <;> exact plain
    refine still_modifyRequest (fun r => ?_) fun r moving redirects => ?_
    · split <;> rfl
    · split at redirects <;> exact redirects
  obtain ⟨r, -, run⟩ := runningRequest_bind run
  rw [read_bind] at run
  rcases when_run run with ⟨-, run⟩ | ⟨-, rfl⟩
  · obtain ⟨_, v, counted, run⟩ := bind_run run
    have second : Still currentTime u v := by
      have passive : Passive (modifyRequest p fun r =>
          { r with
            lastResendTime :=
              if r.connectionToken ≠ 0 ∧ r.connectionToken ≠ u.token c then 0 else r.lastResendTime
            retryCount := r.retryCount + 1 }) :=
        passive_modifyRequest fun _ plain => plain
      refine still_modifyRequest ?_ ?_ _ _ _ counted
      · exact fun _ => rfl
      · exact fun _ _ redirects => redirects
    have moved := first.trans second
    obtain ⟨r', found, run⟩ := runningRequest_bind run
    refine moved.outcome ?_
    split at run
    · next limit =>
      refine failRequest_outcome (moved.plain plain) (fun r'' same => ?_) run
      rw [found] at same
      rw [← Option.some.inj same]
      rw [Request.isAtRetryLimit, Bool.and_eq_true, Bool.and_eq_true] at limit
      exact limit.1.2
    · exact .stays (still_retryRequest call p c _ _ _ run)
  · exact .stays first

theorem runningInDatacenter_outcome {call : QueueCall} {d : Nat} (plain : s.PlainDownloads)
    (run : runningInDatacenter env call currentTime p d s = some (x, t)) :
    Outcome currentTime p s t := by
  obtain ⟨dc, -, run⟩ := datacenter_bind run
  obtain ⟨_, u, marked, run⟩ := bind_run run
  have first : Still currentTime s u := by
    refine keeps_when (R := Still currentTime) (fun _ => ?_) _ _ _ marked
    have passive : Passive (modifyRequest p fun r =>
        { r with requestFlags := r.requestFlags ||| RequestFlag.enableUnauthorized }) :=
      passive_modifyRequest fun _ plain => plain
    have badge : ∀ r : Request,
        ({ r with requestFlags := r.requestFlags ||| RequestFlag.enableUnauthorized } :
          Request).badge = r.badge :=
      fun r => congrArg (fun flag => (r.id, r.connectionType, r.datacenterId, flag))
        (hasBits_enableUnauthorized r.requestFlags (k := 8) (by decide))
    refine still_modifyRequest badge fun r moving redirects =>
      redirects_of_same redirects (badge r) rfl ?_ (.inl rfl)
    exact hasBits_enableUnauthorized r.requestFlags (k := 4) (by decide)
  refine first.outcome ?_
  obtain ⟨r, -, run⟩ := runningRequest_bind run
  rw [read_bind] at run
  split_ifs at run
  · exact moveToQueue_outcome run
  · exact .stays (still env (keeps_addNeededDatacenter _ _) _ _ _ run)
  · exact .stays (still env (keeps_addUnauthorizedDatacenter _) _ _ _ run)
  · obtain ⟨connection, v, looked, run⟩ := bind_run run
    have second : Still currentTime u v := still env (keeps_getConnectionByType _ _ _) _ _ _ looked
    rw [read_bind] at run
    rcases when_run run with ⟨-, run⟩ | ⟨-, rfl⟩
    · obtain ⟨c, w, required, run⟩ := bind_run run
      obtain ⟨-, rfl⟩ := require_run required
      rcases when_run run with ⟨-, run⟩ | ⟨-, rfl⟩
      · exact second.outcome (retryIfDue_outcome (second.plain (first.plain plain)) run)
      · exact .stays second
    · exact .stays second

end Running

/-! ## What is counted -/

section Counted

variable {env : Env} {currentTime : Int} {s t u : ConnectionsManager} {p : Nat} {x : Unit}
  {kind : Limited}

/-- The property of a request that its badge tells. -/
def Told (Q : Request → Bool) : Prop := ∀ r r', Request.badge r' = r.badge → Q r' = Q r

theorem told_covers (kind : Limited) (current : Nat) : Told fun r => kind.covers current r :=
  fun _ _ same => covers_badge kind current same

theorem told_open (kind : Limited) (current : Nat) (ps : List Nat) :
    Told fun r => kind.covers current r && !ps.contains r.id := by
  intro r r' same
  dsimp only
  rw [covers_badge kind current same, (badge_fields same).1]

/-- No request joins the running ones. -/
theorem Outcome.countP_running {Q : Request → Bool} (told : Told Q)
    (outcome : Outcome currentTime p s t) :
    t.runningRequests.countP Q ≤ s.runningRequests.countP Q := by
  cases outcome with
  | stays still => exact Nat.le_of_eq (countP_badges still.runningRequests told)
  | @queued t r still found =>
    exact (List.eraseP_sublist.countP_le).trans
      (Nat.le_of_eq (countP_badges still.runningRequests told))
  | @failed t still =>
    exact (List.eraseP_sublist.countP_le).trans
      (Nat.le_of_eq (countP_badges still.runningRequests told))

/-- And none comes to the lists. -/
theorem Outcome.countP_total {Q : Request → Bool} (told : Told Q)
    (outcome : Outcome currentTime p s t) :
    t.runningRequests.countP Q + t.requestsQueue.countP Q ≤ s.runningRequests.countP Q +
      s.requestsQueue.countP Q := by
  have same : ∀ {t : ConnectionsManager}, Still currentTime s t →
      t.runningRequests.countP Q + t.requestsQueue.countP Q =
        s.runningRequests.countP Q + s.requestsQueue.countP Q := fun still => by
    rw [countP_badges still.runningRequests told, countP_badges still.requestsQueue told]
  cases outcome with
  | stays still => exact Nat.le_of_eq (same still)
  | @queued t r still found =>
    rw [← same still]
    have moved := (perm_eraseP_of_find found).countP_eq Q
    rw [List.countP_append] at moved
    show (t.runningRequests.eraseP _).countP Q + (t.requestsQueue ++ [r]).countP Q ≤ _
    rw [List.countP_append]
    omega
  | @failed t still =>
    rw [← same still]
    exact Nat.add_le_add_right List.eraseP_sublist.countP_le _

theorem Outcome.nodup (outcome : Outcome currentTime p s t)
    (nodup : (ids s.requestsQueue ++ ids s.runningRequests).Nodup) :
    (ids t.requestsQueue ++ ids t.runningRequests).Nodup := by
  have same : ∀ {t : ConnectionsManager}, Still currentTime s t →
      (ids t.requestsQueue ++ ids t.runningRequests).Nodup := fun still => by
    rwa [ids_badges still.requestsQueue, ids_badges still.runningRequests]
  cases outcome with
  | stays still => exact same still
  | queued still found => exact (ids_toQueue _ found).nodup_iff.2 (same still)
  | failed still =>
      exact (same still).sublist ((List.Sublist.refl _).append (List.eraseP_sublist.map _))

/-- What the loop keeps. -/
structure Thins (kind : Limited) (currentTime : Int) (s t : ConnectionsManager) : Prop where
  currentDatacenterId : t.currentDatacenterId = s.currentDatacenterId
  movingToDatacenterId : t.movingToDatacenterId = s.movingToDatacenterId
  nodup : (ids s.requestsQueue ++ ids s.runningRequests).Nodup →
    (ids t.requestsQueue ++ ids t.runningRequests).Nodup
  counted : kind.AllCounted s → kind.AllCounted t
  running : kind.running t ≤ kind.running s
  total : kind.running t + kind.queued t ≤ kind.running s + kind.queued s
  settled : s.NoRedirects currentTime → t.NoRedirects currentTime
  plain : s.PlainDownloads → t.PlainDownloads

instance : IsPreorder ConnectionsManager (Thins kind currentTime) where
  refl _ := ⟨rfl, rfl, id, id, Nat.le_refl _, Nat.le_refl _, id, id⟩
  trans _ _ _ first second :=
    { currentDatacenterId := second.currentDatacenterId.trans first.currentDatacenterId
      movingToDatacenterId := second.movingToDatacenterId.trans first.movingToDatacenterId
      nodup := second.nodup ∘ first.nodup
      counted := second.counted ∘ first.counted
      running := second.running.trans first.running
      total := second.total.trans first.total
      settled := second.settled ∘ first.settled
      plain := second.plain ∘ first.plain }

theorem OnlyCounters.thins (only : OnlyCounters s t) : Thins kind currentTime s t := by
  obtain ⟨current, moving, queue, running, tasks, -⟩ := only
  refine ⟨current, moving, ?_, fun counted r mem => ?_, ?_, ?_, fun settled r mem => ?_,
    fun plain => ?_⟩
  · rw [queue, running]
    exact id
  · rw [running] at mem
    rw [current, moving]
    exact counted r mem
  · rw [Limited.running, running, current]
    exact Nat.le_refl _
  · rw [Limited.running, Limited.queued, running, queue, current]
    exact Nat.le_refl _
  · rw [queue, running] at mem
    rw [moving]
    exact settled r mem
  · exact ⟨queue ▸ plain.requestsQueue, running ▸ plain.runningRequests, tasks ▸ plain.pendingTasks⟩

theorem Outcome.places (outcome : Outcome currentTime p s t) :
    t.currentDatacenterId = s.currentDatacenterId ∧
      t.movingToDatacenterId = s.movingToDatacenterId := by
  cases outcome with
  | stays still => exact ⟨still.currentDatacenterId, still.movingToDatacenterId⟩
  | queued still found => exact ⟨still.currentDatacenterId, still.movingToDatacenterId⟩
  | failed still => exact ⟨still.currentDatacenterId, still.movingToDatacenterId⟩

/-- Every request stood in a list before the last move. -/
theorem Outcome.requests (outcome : Outcome currentTime p s t) :
    ∃ v, Still currentTime s v ∧ t.movingToDatacenterId = v.movingToDatacenterId ∧
      (∀ r ∈ t.requestsQueue ++ t.runningRequests, r ∈ v.requestsQueue ++ v.runningRequests) ∧
        t.pendingTasks = v.pendingTasks := by
  cases outcome with
  | stays still => exact ⟨t, still, rfl, fun _ mem => mem, rfl⟩
  | @queued t r still found =>
    refine ⟨t, still, rfl, fun r' mem => ?_, rfl⟩
    have running : ∀ r' ∈ [r] ++ t.runningRequests.eraseP fun r => r.id == p,
        r' ∈ t.runningRequests := by
      intro r' mem
      rcases List.mem_append.1 mem with own | old
      · exact List.mem_singleton.1 own ▸ List.mem_of_find?_eq_some found
      · exact List.mem_of_mem_eraseP old
    rcases List.mem_append.1 (List.append_assoc t.requestsQueue [r] _ ▸ mem) with queued | moved
    · exact List.mem_append_left _ queued
    · exact List.mem_append_right _ (running r' moved)
  | @failed t still =>
    refine ⟨t, still, rfl, fun r' mem => ?_, rfl⟩
    rcases List.mem_append.1 mem with queued | running
    · exact List.mem_append_left _ queued
    · exact List.mem_append_right _ (List.mem_of_mem_eraseP running)

theorem Outcome.thins (outcome : Outcome currentTime p s t) : Thins kind currentTime s t := by
  obtain ⟨current, moving⟩ := outcome.places
  have told := told_covers kind s.currentDatacenterId
  refine ⟨current, moving, outcome.nodup, fun counted r mem => ?_, ?_, ?_, fun settled => ?_,
    fun plain => ?_⟩
  · have badge : ∃ r' ∈ s.runningRequests, r.badge = r'.badge := by
      cases outcome with
      | stays still => exact exists_badge still.runningRequests mem
      | queued still found => exact exists_badge still.runningRequests (List.mem_of_mem_eraseP mem)
      | failed still => exact exists_badge still.runningRequests (List.mem_of_mem_eraseP mem)
    obtain ⟨r', old, badge⟩ := badge
    rw [current, moving, covers_badge kind _ badge, isCounted_badge badge]
    exact counted r' old
  · rw [Limited.running, current]
    exact outcome.countP_running told
  · rw [Limited.running, Limited.queued, current]
    exact outcome.countP_total told
  · obtain ⟨v, still, same, old, -⟩ := outcome.requests
    intro r mem
    rw [same]
    exact still.settled settled r (old r mem)
  · obtain ⟨v, still, -, old, tasks⟩ := outcome.requests
    obtain ⟨queue, running, planned⟩ := still.plain plain
    have all : ∀ r ∈ v.requestsQueue ++ v.runningRequests, r.Plain := fun r mem =>
      (List.mem_append.1 mem).elim (queue r) (running r)
    exact ⟨fun r mem => all r (old r (List.mem_append_left _ mem)),
      fun r mem => all r (old r (List.mem_append_right _ mem)), tasks ▸ planned⟩

/-- What the loop has counted covers the running requests that it has come to. -/
def CountedUpTo (kind : Limited) (rest : List Nat) (s : ConnectionsManager) : Prop :=
  (s.runningRequests.countP fun r => kind.covers s.currentDatacenterId r && !rest.contains r.id) ≤
    kind.counter s

theorem countedUpTo_all (s : ConnectionsManager) : CountedUpTo kind (ids s.runningRequests) s := by
  have none : (s.runningRequests.countP fun r =>
      kind.covers s.currentDatacenterId r && !(ids s.runningRequests).contains r.id) = 0 := by
    refine List.countP_eq_zero.2 fun r mem => ?_
    have here : (ids s.runningRequests).contains r.id = true :=
      List.contains_iff_mem.2 (mem_ids.2 ⟨r, mem, rfl⟩)
    simp only [here, Bool.not_true, Bool.and_false, Bool.false_eq_true, not_false_eq_true]
  rw [CountedUpTo, none]
  exact Nat.zero_le _

/-- The request that the loop comes to is the only one of its number. -/
theorem countP_next {requests : List Request} {r : Request} (Q : Request → Bool) (rest : List Nat)
    (nodup : (ids requests).Nodup) (found : requests.find? (fun r => r.id == p) = some r) :
    (requests.countP fun r => Q r && !rest.contains r.id) ≤
      (requests.countP fun r => Q r && !(p :: rest).contains r.id) +
        if Q r = true then 1 else 0 := by
  have own : r.id = p := by simpa using List.find?_some found
  have split := perm_eraseP_of_find found
  have others : ∀ r' ∈ requests.eraseP (fun r => r.id == p), r'.id ≠ p := by
    intro r' mem same
    have gone : p ∈ (ids requests).erase p := by
      rw [← ids_eraseP]
      exact mem_ids.2 ⟨r', mem, same⟩
    exact nodup.not_mem_erase gone
  have same : ((requests.eraseP fun r => r.id == p).countP fun r => Q r && !rest.contains r.id) =
      (requests.eraseP fun r => r.id == p).countP fun r => Q r && !(p :: rest).contains r.id := by
    refine List.countP_congr fun r' mem => ?_
    simp [others r' mem]
  rw [← split.countP_eq, ← split.countP_eq, List.countP_append, List.countP_append, same]
  have last : ([r].countP fun r => Q r && !rest.contains r.id) ≤ if Q r = true then 1 else 0 := by
    rw [List.countP_singleton]
    split_ifs <;> simp_all
  omega


theorem Outcome.counter (outcome : Outcome currentTime p s t) :
    kind.counter t = kind.counter s := by
  cases outcome with
  | stays still => exact still.counter kind
  | @queued t r still found =>
    rw [← still.counter kind]
    cases kind <;> rfl
  | @failed t still =>
    rw [← still.counter kind]
    cases kind <;> rfl

/-- A request that stays is counted before anything becomes of it. -/
theorem runningStep_run {call : QueueCall} (plain : s.PlainDownloads)
    (run : runningStep env call currentTime p s = some (x, t)) :
    ∃ r, s.runningRequests.find? (fun r => r.id == p) = some r ∧
      ((r.waitsForMove s.movingToDatacenterId = true ∧ t = s) ∨
        ∃ u y, countRunning r (r.targetDatacenterId s.currentDatacenterId) s = some (y, u) ∧
          Outcome currentTime p u t) := by
  obtain ⟨r, found, run⟩ := runningRequest_bind run
  rw [read_bind] at run
  refine ⟨r, found, ?_⟩
  rcases when_run run with ⟨-, run⟩ | ⟨waits, rfl⟩
  · obtain ⟨y, u, counted, run⟩ := bind_run run
    refine .inr ⟨u, y, counted, ?_⟩
    obtain ⟨leaves, v, decided, run⟩ := bind_run run
    have first : Still currentTime u v := still env (keeps_leavesForDifferentDc _ _) _ _ _ decided
    have kept : v.PlainDownloads := first.plain ((apart_countRunning r _ _ _ _ counted).plain plain)
    refine first.outcome ?_
    split at run
    · exact moveToQueue_outcome run
    · obtain ⟨found, w, looked, run⟩ := bind_run run
      have second : Still currentTime v w := still env (keeps_getDatacenterWithId _) _ _ _ looked
      refine second.outcome ?_
      cases found with
      | none => exact .stays (still env (keeps_addUnknownDatacenter _) _ _ _ run)
      | some d => exact runningInDatacenter_outcome (second.plain kept) run
  · exact .inl ⟨by simpa using waits, rfl⟩

theorem runningStep_thins {call : QueueCall} (plain : s.PlainDownloads)
    (run : runningStep env call currentTime p s = some (x, t)) : Thins kind currentTime s t := by
  obtain ⟨r, -, ⟨-, rfl⟩ | ⟨u, y, counted, outcome⟩⟩ := runningStep_run plain run
  · exact refl t
  · exact IsTrans.trans _ _ _ (countRunning_run counted).1.thins outcome.thins

theorem runningStep_counts {call : QueueCall} {rest : List Nat} (plain : s.PlainDownloads)
    (nodup : (ids s.runningRequests).Nodup) (all : kind.AllCounted s)
    (counted : CountedUpTo kind (p :: rest) s)
    (run : runningStep env call currentTime p s = some (x, t)) : CountedUpTo kind rest t := by
  obtain ⟨r, found, outcome⟩ := runningStep_run plain run
  have next := countP_next (fun r => kind.covers s.currentDatacenterId r) rest nodup found
  have mem := List.mem_of_find?_eq_some found
  rcases outcome with ⟨waits, rfl⟩ | ⟨u, y, raised, outcome⟩
  · have other : ¬ kind.covers t.currentDatacenterId r = true := by
      intro covers
      have own := all r mem covers
      rw [Request.isCounted, waits] at own
      cases own
    rw [if_neg other] at next
    exact next.trans counted
  · obtain ⟨only, raises⟩ := countRunning_run raised
    have current := outcome.places.1.trans only.currentDatacenterId
    have fewer := outcome.countP_running (told_open kind s.currentDatacenterId rest)
    rw [only.runningRequests] at fewer
    rw [CountedUpTo, current, outcome.counter]
    refine fewer.trans (next.trans ?_)
    split_ifs with covers
    · have own := all r mem covers
      rw [Request.isCounted, Bool.and_eq_true] at own
      have more := raises kind (of_decide_eq_true own.2) covers fun d same => by
        subst same
        exact (covers_downloads.1 covers).2.symm
      exact (Nat.succ_le_succ counted).trans more
    · exact counted.trans (only.counter kind)

/-- After the loop every running request of the kind is counted, if each one can be. -/
theorem runningLoop_thins {call : QueueCall} {ps : List Nat} (plain : s.PlainDownloads)
    (run : each (runningStep env call currentTime) ps s = some (x, t)) :
    Thins kind currentTime s t ∧
      ((ids s.requestsQueue ++ ids s.runningRequests).Nodup → kind.AllCounted s →
        CountedUpTo kind ps s →
        CountedUpTo kind [] t) := by
  induction ps generalizing s with
  | nil =>
    rw [(pure_run run).2]
    exact ⟨refl s, fun _ _ counted => counted⟩
  | cons p ps ih =>
    obtain ⟨_, u, first, run⟩ := bind_run run
    have thins : Thins kind currentTime s u := runningStep_thins plain first
    obtain ⟨later, counts⟩ := ih (thins.plain plain) run
    refine ⟨IsTrans.trans _ _ _ thins later, fun nodup all counted => ?_⟩
    have next := runningStep_counts plain (List.nodup_append.1 nodup).2.1 all counted first
    exact counts (thins.nodup nodup) (thins.counted all) next

end Counted

/-! ## The choice of a datacenter -/

/-- Each request stands once, and downloads are not redirected. -/
structure Steady (kind : Limited) (currentTime : Int) (s : ConnectionsManager) : Prop where
  nodup : (ids s.requestsQueue ++ ids s.runningRequests).Nodup
  settled : ∀ d, kind = .downloads d → s.NoRedirects currentTime

/-- The counter is not behind, and the limit is kept. -/
structure Fair (kind : Limited) (s : ConnectionsManager) : Prop where
  counter : kind.running s ≤ kind.counter s
  limit : kind.running s ≤ kind.limit

/-- What the loop over the queue keeps. -/
def Fills (kind : Limited) (currentTime : Int) (s t : ConnectionsManager) : Prop :=
  Steady kind currentTime s → Steady kind currentTime t ∧ (Fair kind s → Fair kind t) ∧
    kind.running t + kind.queued t ≤ kind.running s + kind.queued s

section Choice

variable {env : Env} {currentTime : Int} {s t : ConnectionsManager} {p : Nat} {kind : Limited}

instance : IsPreorder ConnectionsManager (Fills kind currentTime) where
  refl _ steady := ⟨steady, id, Nat.le_refl _⟩
  trans _ _ _ first second steady := by
    obtain ⟨steady, fair, total⟩ := first steady
    obtain ⟨later, fair', total'⟩ := second steady
    exact ⟨later, fair' ∘ fair, total'.trans total⟩

theorem Still.running (still : Still currentTime s t) : kind.running t = kind.running s := by
  rw [Limited.running, Limited.running, still.currentDatacenterId]
  exact countP_badges still.runningRequests (told_covers kind _)

theorem Still.queued (still : Still currentTime s t) : kind.queued t = kind.queued s := by
  rw [Limited.queued, Limited.queued, still.currentDatacenterId]
  exact countP_badges still.requestsQueue (told_covers kind _)

theorem Still.fills (still : Still currentTime s t) : Fills kind currentTime s t := by
  refine fun steady => ⟨⟨?_, fun d own => still.settled (steady.settled d own)⟩, fun fair =>
    ⟨?_, ?_⟩, ?_⟩
  · rw [ids_badges still.requestsQueue, ids_badges still.runningRequests]
    exact steady.nodup
  · rw [still.running, still.counter]
    exact fair.counter
  · rw [still.running]
    exact fair.limit
  · rw [still.running, still.queued]

theorem fills {α : Type} {m : M α} (kept : Keeps (Still currentTime) m) :
    Keeps (Fills kind currentTime) m :=
  kept.mono fun _ _ still => still.fills

/-- The datacenter that was chosen is the one the download belongs to. -/
def Leads (kind : Limited) (p chosen : Nat) (s : ConnectionsManager) : Prop :=
  ∀ d, kind = .downloads d → ∀ r, s.requestsQueue.find? (fun r => r.id == p) = some r →
    kind.covers s.currentDatacenterId r = true → d = chosen

theorem Still.leads {chosen : Nat} (still : Still currentTime s t) (leads : Leads kind p chosen s) :
    Leads kind p chosen t := by
  intro d own r found covers
  obtain ⟨r', before_it, badge⟩ := find_badges still.requestsQueue found
  rw [still.currentDatacenterId, covers_badge kind _ badge] at covers
  exact leads d own r' before_it covers

/-- A switch sends `TL_help_getConfig` alone elsewhere; for any other request it changes the current
datacenter. -/
theorem switchDatacenter_run {datacenterId chosen : Nat}
    (run : switchDatacenter env currentTime p datacenterId s = some (chosen, t)) :
    ∃ v r, Still currentTime s v ∧ v.requestsQueue = s.requestsQueue ∧
      v.requestsQueue.find? (fun r => r.id == p) = some r ∧
        ((r.rawRequest = .getConfig ∧ t = v.modifyRequest p fun r =>
          { r with datacenterId := chosen }) ∨
          (r.rawRequest ≠ .getConfig ∧ t = { v with currentDatacenterId := chosen })) := by
  rw [switchDatacenter, read_bind] at run
  obtain ⟨allDc, u, required, chose⟩ := bind_run run
  obtain ⟨-, rfl⟩ := require_run required
  rw [reading_bind] at chose
  obtain ⟨r, found, chose⟩ := queuedRequest_bind chose
  obtain ⟨_, v, switched, chose⟩ := bind_run chose
  obtain ⟨rfl, rfl⟩ := pure_run chose
  have aside : ∀ readings start,
      Aside u { u with readings := readings, updatingDcStartTime := start } :=
    fun _ _ => .of_same rfl rfl rfl rfl rfl rfl rfl rfl rfl
  have still : ∀ readings start,
      Still currentTime u { u with readings := readings, updatingDcStartTime := start } :=
    fun readings start => .of_same (aside readings start) rfl rfl rfl rfl
  by_cases config : r.rawRequest = .getConfig
  · rw [if_pos config, update_bind] at switched
    exact ⟨_, r, still (u.readings + 1) currentTime, rfl, found, .inl ⟨config, update_run switched⟩⟩
  · rw [if_neg config] at switched
    exact ⟨_, r, still (u.readings + 1) u.updatingDcStartTime, rfl, found,
      .inr ⟨config, update_run switched⟩⟩

/-- What the choice does with a request that may try another datacenter. -/
theorem chooseDatacenter_run {datacenterId chosen : Nat} {r : Request}
    (found : s.requestsQueue.find? (fun r => r.id == p) = some r)
    (run : chooseDatacenter env currentTime p datacenterId s = some (chosen, t)) :
    (Still currentTime s t ∧ chosen = datacenterId) ∨
      ∃ u, Still currentTime s u ∧ r.hasFlag RequestFlag.tryDifferentDc = true ∧
        ((r.rawRequest = .getConfig ∧ t = u.modifyRequest p fun r =>
          { r with datacenterId := chosen }) ∨
          (r.switches currentTime = true ∧ t = { u with currentDatacenterId := chosen })) := by
  obtain ⟨r', queued, run⟩ := queuedRequest_bind run
  rw [found] at queued
  obtain rfl := Option.some.inj queued
  rw [read_bind] at run
  split at run
  · next different =>
    obtain ⟨_, v, reset, run⟩ := bind_run run
    have first : Still currentTime s v ∧
        ∀ r', v.requestsQueue.find? (fun r => r.id == p) = some r' →
          r'.rawRequest = r.rawRequest := by
      rcases when_run reset with ⟨-, reset⟩ | ⟨-, rfl⟩
      · have passive : Passive (modifyRequest p fun r => { r with startTime := 0 }) :=
          passive_modifyRequest fun _ plain => plain
        refine ⟨still_modifyRequest ?_ ?_ _ _ _ reset, fun r' queued => ?_⟩
        · exact fun _ => rfl
        · exact fun _ _ redirects => redirects_of_same redirects rfl rfl rfl (.inr (.inl rfl))
        · rw [update_run reset, find_queued_modifyRequest, found] at queued
          · rw [← Option.some.inj queued]
          · exact fun _ => rfl
      · refine ⟨refl v, fun r' queued => ?_⟩
        rw [found] at queued
        rw [Option.some.inj queued]
    obtain ⟨first, query⟩ := first
    -- whichever time counted, it was long enough or it was not
    have chose : switchDatacenter env currentTime p datacenterId v = some (chosen, t) ∧
        (r.rawRequest ≠ .getConfig → r.switches currentTime = true) ∨ chosen = datacenterId ∧
          t = v := by
      by_cases config : r.rawRequest = .getConfig
      · split_ifs at run
        · exact .inl ⟨run, fun other => absurd config other⟩
        · exact .inr (pure_run run)
        · exact .inl ⟨run, fun other => absurd config other⟩
        · exact .inr (pure_run run)
      · simp only [config, decide_false, Bool.and_false, Bool.false_eq_true, if_false] at run
        split at run
        · next waited =>
          refine .inl ⟨run, fun _ => ?_⟩
          simp only [Request.switches, different, config, waited.1, waited.2, decide_true,
            Bool.and_true, ne_eq, not_false_eq_true]
        · exact .inr (pure_run run)
    rcases chose with ⟨switched, long⟩ | ⟨same, rfl⟩
    · obtain ⟨w, r', second, same, here, switched⟩ := switchDatacenter_run switched
      have own := query r' (same ▸ here)
      refine .inr ⟨w, first.trans second, different, ?_⟩
      rcases switched with ⟨config, moved⟩ | ⟨other, moved⟩
      · exact .inl ⟨own ▸ config, moved⟩
      · exact .inr ⟨long (own ▸ other), moved⟩
    · exact .inl ⟨first, same⟩
  · obtain ⟨same, rfl⟩ := pure_run run
    exact .inl ⟨refl t, same⟩

/-- The request that was found is the only one of its number. -/
theorem eq_of_found {r r' : Request} (nodup : (ids s.requestsQueue ++ ids s.runningRequests).Nodup)
    (found : s.requestsQueue.find? (fun r => r.id == p) = some r)
    (mem : r' ∈ s.requestsQueue ++ s.runningRequests) (own : r'.id = p) : r' = r := by
  have here : r.id = p := by simpa using List.find?_some found
  rw [ids, ids, ← List.map_append] at nodup
  refine List.inj_on_of_nodup_map nodup mem ?_ (own.trans here.symm)
  exact List.mem_append_left _ (List.mem_of_find?_eq_some found)

theorem Still.badge_found {r r' : Request} (still : Still currentTime s t)
    (nodup : (ids s.requestsQueue ++ ids s.runningRequests).Nodup)
    (found : s.requestsQueue.find? (fun r => r.id == p) = some r)
    (mem : r' ∈ t.requestsQueue ++ t.runningRequests) (own : r'.id = p) : r'.badge = r.badge := by
  have old : ∃ x ∈ s.requestsQueue ++ s.runningRequests, r'.badge = x.badge := by
    rcases List.mem_append.1 mem with queued | running
    · obtain ⟨x, mem, badge⟩ := exists_badge still.requestsQueue queued
      exact ⟨x, List.mem_append_left _ mem, badge⟩
    · obtain ⟨x, mem, badge⟩ := exists_badge still.runningRequests running
      exact ⟨x, List.mem_append_right _ mem, badge⟩
  obtain ⟨x, mem, badge⟩ := old
  rw [badge, eq_of_found nodup found mem ((badge_fields badge).1.symm.trans own)]

theorem countP_edited {requests : List Request} {f : Request → Request} {Q : Request → Bool}
    (same : ∀ r ∈ requests, r.id = p → Q (f r) = Q r) :
    (requests.map fun r => if r.id = p then f r else r).countP Q = requests.countP Q := by
  rw [List.countP_map]
  refine List.countP_congr fun r mem => ?_
  rw [Function.comp_apply]
  split
  · next own => rw [same r mem own]
  · rfl

/-- An edit after which the request is of the same kinds. -/
theorem fills_modifyRequest {f : Request → Request} (id : ∀ r, (f r).id = r.id)
    (covers : ∀ r ∈ s.requestsQueue ++ s.runningRequests, r.id = p →
      kind.covers s.currentDatacenterId (f r) = kind.covers s.currentDatacenterId r)
    (settled : ∀ d, kind = .downloads d → s.NoRedirects currentTime →
      ∀ r ∈ s.requestsQueue ++ s.runningRequests, r.id = p →
        (f r).redirects s.movingToDatacenterId currentTime = false) :
    Fills kind currentTime s (s.modifyRequest p f) := by
  have running : kind.running (s.modifyRequest p f) = kind.running s :=
    countP_edited fun r mem own => covers r (List.mem_append_right _ mem) own
  have queued : kind.queued (s.modifyRequest p f) = kind.queued s :=
    countP_edited fun r mem own => covers r (List.mem_append_left _ mem) own
  have counter : kind.counter (s.modifyRequest p f) = kind.counter s := by cases kind <;> rfl
  refine fun steady => ⟨⟨?_, fun d own r mem => ?_⟩, fun fair => ⟨?_, ?_⟩, ?_⟩
  · have queue : ids (s.modifyRequest p f).requestsQueue = ids s.requestsQueue :=
      ids_modifyRequest id
    have ran : ids (s.modifyRequest p f).runningRequests = ids s.runningRequests :=
      ids_modifyRequest id
    rw [queue, ran]
    exact steady.nodup
  · have old : ∃ x ∈ s.requestsQueue ++ s.runningRequests, (if x.id = p then f x else x) = r := by
      rw [← List.mem_map, List.map_append]
      exact mem
    obtain ⟨x, before_it, rfl⟩ := old
    split
    · next here => exact settled d own (steady.settled d own) x before_it here
    · exact steady.settled d own x before_it
  · rw [running, counter]
    exact fair.counter
  · rw [running]
    exact fair.limit
  · rw [running, queued]

/-- Only for downloads it matters which datacenter is the current one. -/
theorem covers_switched {r : Request} (other : ∀ d, kind ≠ .downloads d) (current current' : Nat) :
    kind.covers current r = kind.covers current' r := by
  cases kind with
  | uploads => rfl
  | generics => rfl
  | downloads d => exact absurd rfl (other d)

theorem fills_switch (other : ∀ d, kind ≠ .downloads d) (chosen : Nat) :
    Fills kind currentTime s { s with currentDatacenterId := chosen } := by
  have same : (fun r => kind.covers chosen r) = fun r => kind.covers s.currentDatacenterId r :=
    funext fun _ => covers_switched other _ _
  have running : kind.running { s with currentDatacenterId := chosen } = kind.running s :=
    congrArg (fun Q => s.runningRequests.countP Q) same
  have queued : kind.queued { s with currentDatacenterId := chosen } = kind.queued s :=
    congrArg (fun Q => s.requestsQueue.countP Q) same
  have counter : kind.counter { s with currentDatacenterId := chosen } =
    kind.counter s := by cases kind <;> rfl
  refine fun steady => ⟨⟨steady.nodup, fun d own => absurd own (other d)⟩, fun fair => ⟨?_, ?_⟩, ?_⟩
  · rw [running, counter]
    exact fair.counter
  · rw [running]
    exact fair.limit
  · rw [running, queued]

/-- The choice leads a download to the datacenter it belongs to. -/
theorem chooseDatacenter_fills {chosen : Nat} {r : Request} (steady : Steady kind currentTime s)
    (found : s.requestsQueue.find? (fun r => r.id == p) = some r)
    (stays : r.waitsForMove s.movingToDatacenterId = false)
    (run : chooseDatacenter env currentTime p (r.targetDatacenterId s.currentDatacenterId) s =
      some (chosen, t)) :
    Fills kind currentTime s t ∧ Leads kind p chosen t := by
  have redirects : ∀ d, kind = .downloads d →
      r.redirects s.movingToDatacenterId currentTime = false := fun d own =>
    steady.settled d own r (List.mem_append_left _ (List.mem_of_find?_eq_some found))
  rcases chooseDatacenter_run found run with ⟨still, rfl⟩ | ⟨u, still, different,
    ⟨config, rfl⟩ | ⟨switches, rfl⟩⟩
  · refine ⟨still.fills, still.leads fun d own r' found' covers => ?_⟩
    rw [found] at found'
    subst own
    rw [Option.some.inj found']
    exact (covers_downloads.1 covers).2.symm
  · -- the request goes elsewhere alone, and is no download
    have lowType : ∀ d, kind = .downloads d → r.lowType ≠ 2 := by
      intro d own download
      have new := redirects d own
      simp [Request.redirects, stays, different, config, download] at new
    have edited : ∀ r' ∈ u.requestsQueue ++ u.runningRequests, r'.id = p → r'.badge = r.badge :=
      fun r' mem own => still.badge_found steady.nodup found mem own
    refine ⟨IsTrans.trans s u _ still.fills (fills_modifyRequest (fun _ => rfl) (fun r' mem own =>
      ?_)
      fun d own settled r' mem here => ?_), fun d own r' found' covers => ?_⟩
    · have low := lowType_badge (edited r' mem own)
      cases kind with
      | uploads => rfl
      | generics => rfl
      | downloads d =>
        have other : r'.lowType ≠ 2 := low ▸ lowType d rfl
        have other' : ({ r' with datacenterId := chosen } : Request).lowType ≠ 2 := other
        simp [Limited.covers, other, other']
    · have badge := edited r' mem here
      have low := lowType_badge badge
      have before_it := settled r' mem
      rw [Request.redirects, waitsForMove_badge badge, still.movingToDatacenterId, stays,
        Bool.not_false, Bool.true_and, Bool.or_eq_false_iff] at before_it
      have switches : ({ r' with datacenterId := chosen } : Request).switches currentTime = false :=
        before_it.1
      have other : ({ r' with datacenterId := chosen } : Request).lowType ≠ 2 := low ▸ lowType d own
      simp [Request.redirects, switches, other]
    · rw [find_queued_modifyRequest] at found'
      · obtain ⟨x, here, rfl⟩ := Option.map_eq_some_iff.1 found'
        have mem := List.mem_of_find?_eq_some here
        have id : x.id = p := by simpa using List.find?_some here
        have low := lowType_badge (edited x (List.mem_append_left _ mem) id)
        subst own
        exact absurd (covers_downloads.1 covers).1 (low ▸ lowType d rfl)
      · exact fun _ => rfl
  · have other : ∀ d, kind ≠ .downloads d := by
      intro d own
      have new := redirects d own
      simp [Request.redirects, stays, switches] at new
    exact ⟨IsTrans.trans s u _ still.fills (fills_switch other chosen), fun d own =>
      absurd own (other d)⟩

end Choice

/-! ## The loop over the queue -/

section Queue

variable {env : Env} {currentTime : Int} {s t : ConnectionsManager} {p : Nat} {x : Unit}
  {kind : Limited}

/-- A request is refused, or it is counted. -/
theorem admit_run {full : Prop} [Decidable full] {count : ConnectionsManager → ConnectionsManager}
    {admitted : Bool}
    (run : (if full then pure false else (update count >>= fun _ => pure true) : M Bool) s =
      some (admitted, t)) :
    (admitted = false ∧ t = s) ∨ (¬ full ∧ t = count s) := by
  split at run
  · exact .inl (pure_run run)
  · next free =>
    rw [update_bind] at run
    exact .inr ⟨free, (pure_run run).2⟩

/-- An admitted request is below its limit and is counted. -/
structure Admission (r : Request) (datacenterId : Nat) (admitted : Bool)
    (s t : ConnectionsManager) : Prop where
  only : OnlyCounters s t
  counts : admitted = true → ∀ kind : Limited, kind.covers s.currentDatacenterId r = true →
    (∀ d, kind = .downloads d → d = datacenterId) → kind.counter s < kind.limit ∧
      kind.counter s + 1 ≤ kind.counter t

/-- Nothing changes where the request is refused or has no limit. -/
theorem admission_unchanged {r : Request} {datacenterId : Nat} {admitted : Bool} (same : t = s)
    (none : admitted = true → ∀ kind : Limited, kind.covers s.currentDatacenterId r = false) :
    Admission r datacenterId admitted s t := by
  subst same
  refine ⟨⟨rfl, rfl, rfl, rfl, rfl, fun _ => Nat.le_refl _⟩, fun own kind covers => ?_⟩
  rw [none own kind] at covers
  cases covers

theorem admitRequest_run {r : Request} {datacenterId : Nat} {admitted : Bool}
    (run : admitRequest r datacenterId s = some (admitted, t)) :
    Admission r datacenterId admitted s t := by
  have refused : admitted = false → admitted = true →
      ∀ kind : Limited, kind.covers s.currentDatacenterId r = false := by
    rintro rfl own
    cases own
  -- the two types that are counted as generic
  have generic : r.lowType = 1 ∨ r.lowType = 64 →
      (if r.canUseUnboundKey = false ∧ 60 ≤ s.genericRunningRequestCount
        then pure false
        else (update (fun s =>
          { s with genericRunningRequestCount := s.genericRunningRequestCount + 1 }) >>= fun _ =>
            pure true) : M Bool) s = some (admitted, t) →
        Admission r datacenterId admitted s t := by
    intro low run
    rcases admit_run run with ⟨own, same⟩ | ⟨free, rfl⟩
    · exact admission_unchanged same (refused own)
    · refine ⟨⟨rfl, rfl, rfl, rfl, rfl, fun kind => ?_⟩, fun _ kind covers _ => ?_⟩
      · cases kind <;> simp [Limited.counter]
      · cases kind with
        | uploads => simp_all
        | downloads d => simp_all
        | generics =>
          have bound := (covers_generics.1 covers).2
          exact ⟨Nat.not_le.1 fun full => free ⟨bound, full⟩, Nat.le_refl _⟩
  rw [admitRequest, read_bind] at run
  revert run
  generalize own : r.lowType = low
  dsimp only
  split
  · exact generic (.inl own)
  · exact generic (.inr own)
  · intro run
    rcases admit_run run with ⟨own, same⟩ | ⟨free, rfl⟩
    · exact admission_unchanged same (refused own)
    · have counter := fun kind => counter_download kind s datacenterId
      refine ⟨⟨rfl, rfl, rfl, rfl, rfl, fun kind => (counter kind).symm ▸ Nat.le_add_right _ _⟩,
        fun _ kind covers same => ?_⟩
      cases kind with
      | uploads => simp_all
      | generics => simp_all
      | downloads d =>
        rw [counter, if_pos (congrArg Limited.downloads (same d rfl)), same d rfl]
        exact ⟨Nat.not_le.1 fun full => free (.inr full), Nat.le_refl _⟩
  · exact fun run =>
      admission_unchanged (pure_run run).2 fun _ kind => by
        cases kind <;> simp [Limited.covers, own]
  · exact fun run =>
      admission_unchanged (pure_run run).2 fun _ kind => by
        cases kind <;> simp [Limited.covers, own]
  · intro run
    rcases admit_run run with ⟨own, same⟩ | ⟨free, rfl⟩
    · exact admission_unchanged same (refused own)
    · refine ⟨⟨rfl, rfl, rfl, rfl, rfl, fun kind => ?_⟩, fun _ kind covers _ => ?_⟩
      · cases kind <;> simp [Limited.counter]
      · cases kind with
        | generics => simp_all
        | downloads d => simp_all
        | uploads => exact ⟨Nat.not_le.1 fun full => free (.inr full), Nat.le_refl _⟩
  · refine fun run => admission_unchanged (pure_run run).2 fun _ kind => ?_
    cases kind <;> simp_all [Limited.covers]

/-- A request that is started runs with the badge it had. -/
theorem startRequest_run {c : ConnectionId}
    (run : startRequest env currentTime p c s = some (x, t)) :
    ∃ v r, Still currentTime s v ∧ v.requestsQueue.find? (fun r => r.id == p) = some r ∧
      Still currentTime
        { v with
          runningRequests := v.runningRequests ++ [r]
          requestsQueue := v.requestsQueue.eraseP fun r => r.id == p } t := by
  obtain ⟨r, -, run⟩ := queuedRequest_bind run
  obtain ⟨msgId, u₁, generated, run⟩ := bind_run run
  obtain ⟨n, u₂, size, run⟩ := bind_run run
  obtain ⟨seqNo, u₃, numbered, run⟩ := bind_run run
  obtain ⟨_, u₄, noted, run⟩ := bind_run run
  rw [read_bind] at run
  obtain ⟨_, v, stamped, run⟩ := bind_run run
  have first : Still currentTime s u₁ := still_generateMessageId _ _ _ generated
  have second : Still currentTime u₁ u₂ := still env keeps_reading _ _ _ size
  have third : Still currentTime u₂ u₃ := still_generateMessageSeqNo c _ _ _ _ numbered
  have fourth : Still currentTime u₃ u₄ := still_assigned c msgId seqNo _ _ _ noted
  have fifth : Still currentTime u₄ v := by
    have passive : Passive (modifyRequest p fun r =>
        { r with
          messageId := msgId
          messageSeqNo := seqNo
          requestFlags :=
            if r.hasFlag RequestFlag.canCompress then r.requestFlags - RequestFlag.canCompress else
              r.requestFlags
          serializedLength := env.objectSize n
          startTime := currentTime
          connectionToken := u₄.token c }) :=
      passive_modifyRequest fun _ plain => plain
    have flags : ∀ (r : Request) (k : Nat), 2 < k →
        hasBits
          (if r.hasFlag RequestFlag.canCompress then r.requestFlags - RequestFlag.canCompress
            else r.requestFlags)
          (2 ^ k) = hasBits r.requestFlags (2 ^ k) := by
      intro r k above
      split
      · next set => exact hasBits_canCompress set above
      · rfl
    refine still_modifyRequest (fun r => ?_) (fun r moving redirects => ?_) _ _ _ stamped
    · exact congrArg (fun flag => (r.id, r.connectionType, r.datacenterId, flag))
        (flags r 8 (by decide))
    · refine redirects_of_same redirects ?_ rfl (flags r 4 (by decide)) (.inr (.inr rfl))
      exact congrArg (fun flag => (r.id, r.connectionType, r.datacenterId, flag))
        (flags r 8 (by decide))
  obtain ⟨r', w, moved, run⟩ := bind_run run
  obtain ⟨r', found, moved⟩ := queuedRequest_bind moved
  rw [update_bind] at moved
  obtain ⟨rfl, rfl⟩ := pure_run moved
  have last : Still currentTime _ t := still env (keeps_dispatch r' c) _ _ _ run
  exact ⟨v, r', first.trans (second.trans (third.trans (fourth.trans fifth))), found, last⟩

/-- A started request is one more that runs, and one fewer that waits. -/
theorem startRequest_numbers (kind : Limited) {c : ConnectionId} {r : Request}
    (found : s.requestsQueue.find? (fun r => r.id == p) = some r)
    (run : startRequest env currentTime p c s = some (x, t)) :
    kind.running t =
      kind.running s + (if kind.covers s.currentDatacenterId r = true then 1 else 0) ∧
      kind.running t + kind.queued t = kind.running s + kind.queued s ∧
        kind.counter t = kind.counter s ∧
        (Steady kind currentTime s → Steady kind currentTime t) := by
  obtain ⟨v, r', first, queued, last⟩ := startRequest_run run
  obtain ⟨r'', before_it, badge⟩ := find_badges first.requestsQueue queued
  rw [found] at before_it
  obtain rfl := Option.some.inj before_it
  have split := (perm_eraseP_of_find queued).countP_eq fun r => kind.covers v.currentDatacenterId r
  have own : kind.covers v.currentDatacenterId r' = kind.covers s.currentDatacenterId r := by
    rw [first.currentDatacenterId, covers_badge kind _ badge]
  have running : kind.running t =
      kind.running s + if kind.covers s.currentDatacenterId r = true then 1 else 0 := by
    rw [last.running, ← first.running, ← own]
    show (v.runningRequests ++ [r']).countP _ = v.runningRequests.countP _ + _
    rw [List.countP_append, List.countP_singleton]
  refine ⟨running, ?_, ?_, fun steady => ?_⟩
  · rw [last.running, last.queued, ← first.running, ← first.queued]
    have moved : (v.runningRequests ++ [r']).countP (fun r => kind.covers v.currentDatacenterId r) +
        (v.requestsQueue.eraseP fun r => r.id == p).countP (fun r =>
          kind.covers v.currentDatacenterId r) =
          kind.running v + kind.queued v := by
      rw [Limited.running, Limited.queued, ← split, List.countP_append, List.countP_append]
      omega
    exact moved
  · rw [last.counter, ← first.counter]
    cases kind <;> rfl
  · have here := (first.fills steady).1
    refine (last.fills ⟨(ids_toRunning queued).nodup_iff.2 here.nodup, fun d own r mem => ?_⟩).1
    refine here.settled d own r ?_
    rcases List.mem_append.1 mem with waiting | running
    · exact List.mem_append_left _ (List.mem_of_mem_eraseP waiting)
    · rcases List.mem_append.1 running with old | new
      · exact List.mem_append_right _ old
      · exact List.mem_append_left _ (List.mem_singleton.1 new ▸ List.mem_of_find?_eq_some queued)

theorem OnlyCounters.fills (only : OnlyCounters s t) : Fills kind currentTime s t := by
  have thins : Thins kind currentTime s t := only.thins
  have running : kind.running t = kind.running s := by
    rw [Limited.running, Limited.running, only.runningRequests, only.currentDatacenterId]
  refine fun steady =>
    ⟨⟨thins.nodup steady.nodup, fun d own => thins.settled (steady.settled d own)⟩,
    fun fair => ⟨?_, ?_⟩, thins.total⟩
  · rw [running]
    exact fair.counter.trans (only.counter kind)
  · rw [running]
    exact fair.limit

/-- A request that was admitted is started. -/
theorem fills_admitted {c : ConnectionId} {r : Request} {datacenterId : Nat}
    (found : s.requestsQueue.find? (fun r => r.id == p) = some r)
    (leads : Leads kind p datacenterId s)
    (run : (admitRequest r datacenterId >>= fun admitted =>
      when admitted (startRequest env currentTime p c)) s =
      some (x, t)) : Fills kind currentTime s t := by
  obtain ⟨admitted, u, asked, run⟩ := bind_run run
  obtain ⟨only, counts⟩ := admitRequest_run asked
  have refused : Fills kind currentTime s u := only.fills
  rcases when_run run with ⟨own, run⟩ | ⟨-, rfl⟩
  · have here : u.requestsQueue.find? (fun r => r.id == p) = some r := by rwa [only.requestsQueue]
    obtain ⟨running, total, counter, steady⟩ := startRequest_numbers kind here run
    intro first
    obtain ⟨first', fair', total'⟩ := refused first
    have same : kind.running u = kind.running s := by
      rw [Limited.running, Limited.running, only.runningRequests, only.currentDatacenterId]
    refine ⟨steady first', fun fair => ?_, total ▸ total'⟩
    rw [same, only.currentDatacenterId] at running
    by_cases covers : kind.covers s.currentDatacenterId r = true
    · rw [if_pos covers] at running
      have below := counts own kind covers fun d same => leads d same r found covers
      have behind := fair.counter
      exact ⟨by omega, by omega⟩
    · rw [if_neg covers, Nat.add_zero, ← same] at running
      have later := fair' fair
      exact ⟨by rw [running, counter]; exact later.counter, by rw [running]; exact later.limit⟩
  · exact refused

theorem queuedInDatacenter_fills {datacenterId d : Nat} (leads : Leads kind p datacenterId s)
    (run : queuedInDatacenter env currentTime p datacenterId d s = some (x, t)) :
    Fills kind currentTime s t := by
  obtain ⟨dc, -, run⟩ := datacenter_bind run
  rw [read_bind] at run
  obtain ⟨_, u, wrapped, run⟩ := bind_run run
  have first : Still currentTime s u := by
    have passive := passive_wrapQueued p dc s.currentVersion
    have same : ∀ r : Request, (wrapInLayer r (some dc) s.currentVersion).badge = r.badge ∧
        (wrapInLayer r (some dc) s.currentVersion).startTime = r.startTime := by
      intro r
      unfold wrapInLayer
      dsimp only
      split_ifs <;> exact ⟨rfl, rfl⟩
    refine still_modifyRequest (fun r => ?_) (fun r moving redirects => ?_) _ _ _ wrapped
    · split
      · exact (same r).1
      · rfl
    · split at redirects
      · have settled := settled_wrapInLayer r (some dc) s.currentVersion
        exact redirects_of_same redirects (same r).1 settled.rawRequest settled.tryDifferentDc
          (.inl (same r).2)
      · exact redirects
  refine IsTrans.trans s u t first.fills ?_
  obtain ⟨r, found, run⟩ := queuedRequest_bind run
  split_ifs at run
  · exact (still env (keeps_addNeededDatacenter _ _) _ _ _ run).fills
  · exact (still env (keeps_addUnauthorizedDatacenter _) _ _ _ run).fills
  · obtain ⟨connection, v, looked, run⟩ := bind_run run
    have second : Still currentTime u v := still env (keeps_getConnectionByType _ _ _) _ _ _ looked
    refine IsTrans.trans u v t second.fills ?_
    obtain ⟨c, w, required, opened⟩ := bind_run run
    obtain ⟨-, rfl⟩ := require_run required
    rw [read_bind] at opened
    rcases when_run opened with ⟨-, asked⟩ | ⟨-, rfl⟩
    · have undisturbed := (keeps_getConnectionByType _ _ _ _ _ _ looked).undisturbed
      refine fills_admitted ?_ (second.leads (first.leads leads)) asked
      rwa [undisturbed.requestsQueue]
    · exact refl _

theorem fills_eraseQueued (p : Nat) : Keeps (Fills kind currentTime) (eraseQueued p) := by
  refine keeps_update fun s steady => ⟨⟨?_, fun d own r mem => ?_⟩, fun fair => ⟨?_, fair.limit⟩,
    ?_⟩
  · exact steady.nodup.sublist ((List.eraseP_sublist.map _).append (.refl _))
  · refine steady.settled d own r ?_
    exact (List.mem_append.1 mem).elim (fun queued =>
      List.mem_append_left _ (List.mem_of_mem_eraseP queued))
      fun running => List.mem_append_right _ running
  · have same : kind.counter { s with requestsQueue := s.requestsQueue.eraseP fun r => r.id == p } =
        kind.counter s := by
      cases kind <;> rfl
    rw [same]
    exact fair.counter
  · exact Nat.add_le_add_left List.eraseP_sublist.countP_le _

theorem fills_queueStep (p : Nat) :
    Keeps (Fills kind currentTime) (queueStep env currentTime p) := by
  intro s x t run steady
  obtain ⟨r, found, run⟩ := queuedRequest_bind run
  rw [read_bind] at run
  split at run
  · exact fills_eraseQueued p _ _ _ run steady
  · rcases when_run run with ⟨stays, run⟩ | ⟨-, rfl⟩
    · obtain ⟨chosen, u, chose, run⟩ := bind_run run
      obtain ⟨first, leads⟩ := chooseDatacenter_fills steady found stays chose
      obtain ⟨found, v, looked, run⟩ := bind_run run
      have second : Still currentTime u v := still env (keeps_getDatacenterWithId _) _ _ _ looked
      have last : Fills kind currentTime v t := by
        cases found with
        | none => exact (still env (keeps_addUnknownDatacenter _) _ _ _ run).fills
        | some d => exact queuedInDatacenter_fills (second.leads leads) run
      exact IsTrans.trans s u t first (IsTrans.trans u v t second.fills last) steady
    · exact refl (r := Fills kind currentTime) t steady

theorem fills_queueLoop : Keeps (Fills kind currentTime) (queueLoop env currentTime) :=
  keeps_bind keeps_read fun _ => keeps_each fun p _ => fills_queueStep p

end Queue

/-! ## The rest of a call -/

section Rest

variable {env : Env} {currentTime : Int}

theorem still_destroySession : Keeps (Still currentTime) (destroySession env currentTime) := by
  refine keeps_bind keeps_read fun s =>
    keeps_bind (still env (keeps_getDatacenterWithId _)) fun found => ?_
  split
  · exact keeps_pure _
  refine keeps_bind (still env (keeps_getConnection _ _)) fun connection => ?_
  split
  · exact keeps_pure _
  refine keeps_bind keeps_read fun s => keeps_when fun _ =>
    keeps_bind (still_update ?_ ?_ ?_ ?_ ?_) fun _ => ?_
  · infer_instance
  · exact fun _ => rfl
  · exact fun _ => rfl
  · exact fun _ => rfl
  · exact fun _ => rfl
  refine keeps_when fun _ => keeps_bind (still_update ?_ ?_ ?_ ?_ ?_) fun _ =>
    keeps_bind keeps_read fun s => ?_
  · infer_instance
  · exact fun _ => rfl
  · exact fun _ => rfl
  · exact fun _ => rfl
  · exact fun _ => rfl
  refine keeps_bind (keeps_require _) fun session =>
    keeps_bind (still env (keeps_newMessage _)) fun m => ?_
  refine keeps_bind (still env keeps_reading) fun n => ?_
  have passive : ∀ (d : Nat) (message : NetworkMessage),
      Passive (addMessageToDatacenter d message .generic) :=
    fun d message => inferInstance
  exact still_update (passive _ _) (fun _ => rfl) (fun _ => rfl) (fun _ => rfl) fun _ => rfl

/-- The same requests run in the same datacenters. -/
structure SameRunning (s t : ConnectionsManager) : Prop where
  runningRequests : t.runningRequests = s.runningRequests
  currentDatacenterId : t.currentDatacenterId = s.currentDatacenterId

instance : IsPreorder ConnectionsManager SameRunning where
  refl _ := ⟨rfl, rfl⟩
  trans _ _ _ first second :=
    ⟨second.runningRequests.trans first.runningRequests,
      second.currentDatacenterId.trans first.currentDatacenterId⟩

theorem sameRunning_of_calm (env : Env) {α : Type} {m : M α} (calm : Keeps (Calms env) m) :
    Keeps SameRunning m :=
  calm.mono fun _ _ calms =>
    ⟨calms.undisturbed.runningRequests, calms.undisturbed.currentDatacenterId⟩

theorem sameRunning_modifyConnection (c : ConnectionId) (f : Connection → Connection) :
    Keeps SameRunning (modifyConnection c f) :=
  keeps_update fun _ => ⟨rfl, rfl⟩

theorem sameRunning_modifyDatacenter (d : Nat) (f : Datacenter → Datacenter) :
    Keeps SameRunning (modifyDatacenter d f) := by
  refine keeps_update fun s => ?_
  unfold ConnectionsManager.modifyDatacenter
  split <;> exact ⟨rfl, rfl⟩

theorem sameRunning_suspendConnection (env : Env) (c : ConnectionId) (idle : Bool) :
    Keeps SameRunning (suspendConnection c idle) := by
  refine keeps_bind (keeps_connection c) fun x =>
    keeps_bind (sameRunning_modifyConnection c _) fun _ => ?_
  refine keeps_when fun _ => keeps_bind (sameRunning_modifyConnection c _) fun _ => ?_
  have closed : Keeps SameRunning (onConnectionClosed c) :=
    sameRunning_of_calm env (keeps_onConnectionClosed c)
  exact keeps_bind (keeps_bind (sameRunning_modifyConnection c _) fun _ => closed) fun _ => closed

theorem sameRunning_startHandshake (d : Nat) (type : HandshakeType) (reopen : Bool) :
    Keeps SameRunning (startHandshake env d type reopen) := by
  refine keeps_bind (sameRunning_of_calm env (keeps_createConnection _)) fun _ => ?_
  refine keeps_bind (keeps_when fun _ => ?_) fun _ =>
    sameRunning_of_calm env (keeps_sendHandshakeData d type)
  exact keeps_bind (sameRunning_suspendConnection env _ _) fun _ =>
    sameRunning_of_calm env (keeps_connect _)

theorem sameRunning_addHandshake (d : Nat) (type : HandshakeType) (reopen : Bool) :
    Keeps SameRunning (addHandshake env d type reopen) := by
  refine keeps_bind (keeps_datacenter d) fun dc => keeps_when fun _ => ?_
  exact keeps_bind (sameRunning_modifyDatacenter d _) fun _ =>
    sameRunning_startHandshake d type reopen

theorem sameRunning_beginHandshake (d : Nat) (type : HandshakeType) (reopen : Bool) :
    Keeps SameRunning (beginHandshake env d type reopen) := by
  refine keeps_bind (keeps_datacenter d) fun dc => ?_
  refine keeps_ite (fun _ => keeps_each fun _ _ => sameRunning_startHandshake d _ reopen) fun _ =>
    ?_
  refine keeps_ite (fun _ => sameRunning_addHandshake d _ reopen) fun _ =>
    keeps_ite (fun _ => ?_) fun _ => keeps_pure _
  exact keeps_ite (fun _ => sameRunning_addHandshake d _ reopen) fun _ =>
    keeps_when fun _ => sameRunning_addHandshake d _ reopen

theorem sameRunning_exportAuthorization (env : Env) (d : Nat) :
    Keeps SameRunning (exportAuthorization d) := by
  refine keeps_bind (keeps_datacenter d) fun dc => keeps_when fun _ => ?_
  exact keeps_bind (sameRunning_modifyDatacenter d _) fun _ =>
    sameRunning_of_calm env (keeps_sendNewRequest (proper_generic _))

/-- What a call does after the packets starts no request. -/
theorem sameRunning_finishQueue (call : QueueCall) : Keeps SameRunning (finishQueue env call) := by
  refine keeps_bind (sameRunning_of_calm env (keeps_pingCurrent call)) fun _ =>
    keeps_bind keeps_read fun s => ?_
  refine keeps_bind (keeps_when fun _ => sameRunning_of_calm env (keeps_updateDcSettings _ _))
    fun _ => ?_
  refine keeps_bind (keeps_each fun needed _ => ?_) fun _ => keeps_when fun _ =>
    keeps_each fun d _ => ?_
  · refine keeps_bind (keeps_datacenter _) fun dc => keeps_bind keeps_read fun s => ?_
    exact keeps_when fun _ => sameRunning_beginHandshake _ _ _
  · refine keeps_bind (keeps_datacenter d) fun dc => keeps_bind keeps_read fun s => ?_
    exact keeps_when fun _ => sameRunning_exportAuthorization env d

end Rest

/-! ## Calls -/

section Calls

variable {env : Env} {s t : ConnectionsManager} {kind : Limited} {x : Unit}

/-- A call that counts the requests of a kind leaves them within the limit. -/
theorem processRequestQueue_limit {call : QueueCall} (listed : s.Listed) (plain : s.PlainDownloads)
    (counts : kind.Counts (env.currentTime s.readings) s) (within : kind.running s ≤ kind.limit)
    (run : processRequestQueue env call s = some (x, t)) : kind.running t ≤ kind.limit := by
  rw [processRequestQueue, update_bind, reading_bind] at run
  obtain ⟨_, u, ran, run⟩ := bind_run run
  obtain ⟨_, v, destroyed, run⟩ := bind_run run
  obtain ⟨_, w, filled, run⟩ := bind_run run
  obtain ⟨_, y, confirmed, run⟩ := bind_run run
  obtain ⟨_, z, sent, run⟩ := bind_run run
  rw [runningLoop, read_bind] at ran
  obtain ⟨thins, counted⟩ : Thins kind _ { s.clearWork with readings := s.readings + 1 } u ∧ _ :=
    runningLoop_thins ⟨plain.requestsQueue, plain.runningRequests, plain.pendingTasks⟩ ran
  have between : Still (env.currentTime s.readings) u v := still_destroySession _ _ _ destroyed
  have steady : Steady kind (env.currentTime s.readings) v :=
    (between.fills ⟨thins.nodup listed.nodup, fun d own => thins.settled (counts.settled d own)⟩).1
  obtain ⟨-, fair, total⟩ := fills_queueLoop _ _ _ filled steady
  have queue : kind.running w ≤ kind.limit := by
    rcases counts.counted with all | few
    · have exact_count := counted listed.nodup all (countedUpTo_all _)
      have covered : kind.running u ≤ kind.counter u := by
        refine Nat.le_trans (Nat.le_of_eq ?_) exact_count
        rw [Limited.running]
        refine List.countP_congr fun r _ => ?_
        simp
      refine (fair ⟨?_, ?_⟩).limit
      · rwa [between.running, between.counter]
      · rw [between.running]
        exact thins.running.trans within
    · rw [between.running, between.queued] at total
      have all := thins.total
      change _ ≤ kind.running s + kind.queued s at all
      omega
  have fourth : Still (env.currentTime s.readings) w y :=
    still env keeps_confirmationLoop _ _ _ confirmed
  have fifth : Still (env.currentTime s.readings) y z :=
    still env (keeps_sendAllBatches call) _ _ _ sent
  have last := sameRunning_finishQueue call _ _ _ run
  rw [Limited.running, last.runningRequests, last.currentDatacenterId]
  change kind.running z ≤ _
  rwa [fifth.running, fourth.running]

end Calls

/-- The manager, with the states before and after each call of `processRequestQueue`. -/
structure Calls where
  manager : ConnectionsManager
  calls : List (ConnectionsManager × ConnectionsManager) := []

namespace Calls

variable {env : Env}

/-- A step of the manager; a call is noted. -/
def step (env : Env) (input : Input) : Program Calls Unit := fun c =>
  (Manager.step env input c.manager).map fun last =>
    ((), { manager := last.2, calls := match input with
      | .runQueueCall => c.calls ++ [(c.manager, last.2)]
      | _ => c.calls })

/-- No call has been made when the manager starts. -/
def Started (env : Env) (config : Option SavedConfig) (c : Calls) : Prop :=
  Manager.Started env config c.manager ∧ c.calls = []

/-- Every call that began within the limits has ended within them. -/
def KeepLimits (c : Calls) : Prop := ∀ call ∈ c.calls, call.1.WithinLimits → call.2.WithinLimits

/-- A call that begins within the limits counts the requests of every kind. -/
def Counts (env : Env) (c : Calls) (input : Input) : Prop :=
  input = .runQueueCall → c.manager.WithinLimits →
    ∀ kind : Limited, kind.Counts (env.currentTime c.manager.readings) c.manager

/-- The invariant of a run. -/
structure Kept (c : Calls) : Prop where
  listed : c.manager.Listed
  plain : c.manager.PlainDownloads
  limits : c.KeepLimits

theorem kept_of_started {config : Option SavedConfig} {c : Calls} (started : Started env config c) :
    Kept c := by
  obtain ⟨⟨userId, version, hasNetwork, enablePushConnection, run⟩, none⟩ := started
  have accounted := accounted_of_started ⟨userId, version, hasNetwork, enablePushConnection, run⟩
  have plain : c.manager.PlainDownloads :=
    (passive_loadConfig env config).plains _ _ _ run ⟨by simp, by simp, by simp⟩
  refine ⟨⟨accounted.nodup, accounted.fresh⟩, plain, fun call mem => ?_⟩
  rw [none] at mem
  cases mem

theorem kept_step {c d : Calls} {input : Input} (kept : Kept c) (counts : Counts env c input)
    (run : step env input c = some ((), d)) : Kept d := by
  obtain ⟨⟨x, t⟩, taken, same⟩ := Option.map_eq_some_iff.1 run
  obtain ⟨-, rfl⟩ := Prod.mk.inj same
  refine ⟨(step_changes taken).listed kept.listed, step_plains input _ _ _ taken kept.plain, ?_⟩
  cases input with
  | runQueueCall =>
    intro call mem
    rcases List.mem_append.1 mem with old | new
    · exact kept.limits call old
    · rw [List.mem_singleton.1 new]
      intro within kind
      obtain ⟨counted, settled⟩ := counts rfl within kind
      rw [Manager.step, read_bind] at taken
      split at taken
      · cases taken
      · rw [Input.run, read_bind] at taken
        obtain ⟨call, u, required, processed⟩ := bind_run taken
        obtain ⟨-, rfl⟩ := require_run required
        rw [update_bind] at processed
        exact processRequestQueue_limit (s := { c.manager with queueCall := none })
          ⟨kept.listed.nodup, kept.listed.fresh⟩
          ⟨kept.plain.requestsQueue, kept.plain.runningRequests, kept.plain.pendingTasks⟩ ⟨counted,
            settled⟩
          (within kind) processed
  | _ => exact kept.limits

/-- In a run whose calls count the requests of every kind, each call keeps the limits. -/
theorem keepLimits_of_reaches {config : Option SavedConfig} {c : Calls}
    (reached : Reaches (step env) (Started env config) (Counts env) c) : c.KeepLimits :=
  (reached.invariant (fun _ started => kept_of_started started) fun _ _ _ kept counts run =>
    kept_step kept counts run).limits

/-- The calls that the inputs lead to. -/
def afterInputs (env : Env) (config : Option SavedConfig) (inputs : List Input) :
    Option (Unit × Calls) :=
  (loadConfig env config { currentVersion := 1 }).bind fun start =>
    each (step env) inputs { manager := start.2 }

theorem reaches_afterInputs {config : Option SavedConfig} {allowed : Calls → Input → Prop}
    {inputs : List Input}
    (always : ∀ i ∈ inputs, ∀ c, allowed c i) {x : Unit} {c : Calls}
    (run : afterInputs env config inputs = some (x, c)) :
    Reaches (step env) (Started env config) allowed c := by
  obtain ⟨⟨⟨⟩, start⟩, loaded, run⟩ := Option.bind_eq_some_iff.1 run
  exact Reaches.each always (.start ⟨⟨0, 1, true, true, loaded⟩, rfl⟩) run

/-- A download from a datacenter, for the application. -/
def download (datacenterId : Nat) : Input :=
  .sendRequest
    { object := .api
      onComplete := .delegate
      flags := RequestFlag.enableUnauthorized ||| RequestFlag.withoutLogin
      datacenterId
      connectionType := ConnectionType.download
      immediate := true
      requestToken := 1 }

/-- Six downloads run on the current datacenter when the server sends the user to another; then one
more is asked for from the same datacenter, by its number. -/
def downloadsWhileMoving : List Input :=
  [.schedule (.setUserId 7), .runTask] ++
    (List.replicate 6 [download defaultDatacenterId, .runTask, .runQueueCall]).flatten ++
    [.received (.rpcResult 0 (.plain (.rpcError 303 "USER_MIGRATE_4"))) 1 ⟨2, .generic⟩ 0 0,
      .runQueueCall, .runTask, .runQueueCall, download 2, .runTask, .runQueueCall]

/-- A state with few requests is within the limits. -/
theorem withinLimits_of_length {s : ConnectionsManager} (few : s.runningRequests.length ≤ 6) :
    s.WithinLimits := by
  intro kind
  have bound : 6 ≤ kind.limit := by cases kind <;> simp [Limited.limit]
  exact List.countP_le_length.trans (few.trans bound)

/-- The downloads that wait for the migration are not counted, and the seventh is started. -/
theorem not_keepLimits_moving :
    ¬ ∀ c, Reaches (step everyTenSeconds) (Started everyTenSeconds (some twoDatacenters))
      (fun _ _ => True) c →
      c.KeepLimits := by
  intro always
  have exceeded :
    (afterInputs everyTenSeconds (some twoDatacenters) downloadsWhileMoving).map (fun after =>
      after.2.calls.getLast?.map fun call =>
        (call.1.runningRequests.length, (Limited.downloads 2).running call.2)) =
          some (some (6, 7)) := by
    decide +kernel
  obtain ⟨⟨⟨⟩, c⟩, run, exceeded⟩ := Option.map_eq_some_iff.1 exceeded
  obtain ⟨call, last, exceeded⟩ := Option.map_eq_some_iff.1 exceeded
  injection exceeded with six seven
  have kept :=
    always c (reaches_afterInputs (fun _ _ _ => trivial) run) call (List.mem_of_getLast? last)
  have within := kept (withinLimits_of_length (Nat.le_of_eq six)) (.downloads 2)
  rw [seven] at within
  exact absurd within (by decide)

/-- Every running request is counted, and no request is about to be redirected. -/
def countsAll (env : Env) (c : Calls) : Input → Bool
  | .runQueueCall =>
      c.manager.runningRequests.all (fun r => r.isCounted c.manager.movingToDatacenterId) &&
        (c.manager.requestsQueue ++ c.manager.runningRequests).all fun r =>
          !r.redirects c.manager.movingToDatacenterId (env.currentTime c.manager.readings)
  | _ => true

theorem counts_of_countsAll {c : Calls} {input : Input} (all : countsAll env c input = true) :
    Counts env c input := by
  rintro rfl - kind
  obtain ⟨counted, stay⟩ := Bool.and_eq_true_iff.1 all
  rw [List.all_eq_true] at counted stay
  exact ⟨.inl fun r mem _ => counted r mem, fun _ _ r mem => by simpa using stay r mem⟩

/-- A request of the application. -/
def asked (connectionType : Nat) : List Input :=
  [.sendRequest
      { object := .api
        onComplete := .delegate
        flags := RequestFlag.enableUnauthorized ||| RequestFlag.withoutLogin
        datacenterId := 2
        connectionType
        immediate := true
        requestToken := 1 },
    .runTask, .runQueueCall]

/-- More downloads and uploads than may run. -/
def tooMany : List Input :=
  (List.replicate 7 (asked ConnectionType.download)).flatten ++
    (List.replicate 11 (asked ConnectionType.upload)).flatten

/-- The seventh download and the eleventh upload wait. -/
theorem keepLimits_of_reaches_tooMany :
    ∃ c, afterInputs everyTenSeconds (some twoDatacenters) tooMany = some ((), c) ∧
      (Limited.downloads 2).running c.manager = 6 ∧ Limited.uploads.running c.manager = 10 ∧
        c.KeepLimits := by
  have running :
    ((loadConfig everyTenSeconds (some twoDatacenters) { currentVersion := 1 }).bind fun start =>
      (each (guarded (step everyTenSeconds) fun c input => countsAll everyTenSeconds c input =
        true) tooMany
        { manager := start.2 }).map fun after =>
          ((Limited.downloads 2).running after.2.manager,
            Limited.uploads.running after.2.manager)) =
        some (6, 10) := by
    decide +kernel
  obtain ⟨⟨⟨⟩, start⟩, loaded, running⟩ := Option.bind_eq_some_iff.1 running
  obtain ⟨⟨⟨⟩, c⟩, run, running⟩ := Option.map_eq_some_iff.1 running
  injection running with downloads uploads
  have reached : Reaches (step everyTenSeconds) (Started everyTenSeconds (some twoDatacenters))
      (Counts everyTenSeconds) c :=
    (Reaches.guarded (.start ⟨⟨0, 1, true, true, loaded⟩, rfl⟩) run).mono fun _ _ =>
      counts_of_countsAll
  refine ⟨c, ?_, downloads, uploads, keepLimits_of_reaches reached⟩
  rw [afterInputs, loaded]
  exact each_of_guarded run

end Calls

end Mtproto.Manager
