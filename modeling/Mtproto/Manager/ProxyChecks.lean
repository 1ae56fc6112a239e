import Mtproto.Manager.Completion
import Mtproto.Manager.Passive
import Mtproto.Manager.Sessions

/-!
Checks of proxies.  A check stands in a task, in `proxyCheckQueue` or in `proxyActiveChecks` until
it is reported.  Two steps lose one: the task of a check that finds no key for the current
datacenter, since without temporary keys nothing puts the check back, and the pong for a check whose
request is no longer running.
-/

namespace Mtproto.Manager

open Lib Program

/-! ## Submitted and reported checks -/

/-- `checkProxy`; a signed overflow has no defined result. -/
def checkProxy : M Int := do
  let s ← read
  let pingId := s.lastPingProxyId + 1
  if pingId < 2 ^ 31 then do
    update fun s => { s with lastPingProxyId := pingId }
    scheduleTask (.checkProxy { pingId })
    pure pingId
  else fault

namespace ConnectionsManager

/-- The checks that have not ended, wherever they stand. -/
def checks (s : ConnectionsManager) : List ProxyCheckInfo :=
  s.pendingChecks ++ s.proxyCheckQueue ++ s.proxyActiveChecks

/-- Each check is known by the id of its ping. -/
def checkIds (s : ConnectionsManager) : List Int := s.checks.map (·.pingId)

/-- The active checks use different connections, of the four that there are. -/
structure DistinctConnections (s : ConnectionsManager) : Prop where
  lt : ∀ info ∈ s.proxyActiveChecks, info.connectionNum < 4
  nodup : (s.proxyActiveChecks.map (·.connectionNum)).Nodup

/-- The calls of `onRequestTime` when the pong of a check comes. -/
def pongReports (s : ConnectionsManager) (pingId : Int) : List Int :=
  match s.proxyActiveChecks.find? fun info => info.pingId == pingId with
  | none => []
  | some info =>
      if s.runningRequests.any fun r => r.requestToken == info.requestToken then [info.pingId] else
        []

/-- The calls of `onRequestTime` in the task of a closed proxy connection. -/
def closedReports (s : ConnectionsManager) (c : ConnectionId) : List Int :=
  let num := match c.slot with
    | .proxy num => num.val
    | _ => 0
  match s.proxyActiveChecks.find? fun info => info.connectionNum == num with
  | none => []
  | some info =>
      if s.runningRequests.any fun r => r.connectionToken == s.token c && r.requestToken ==
          info.requestToken &&
          r.lowType == ConnectionType.proxy then [info.pingId] else []

/-- The calls of `onRequestTime` in a step. -/
def reports (s : ConnectionsManager) : Input → List Int
  | .received (.pong pingId) _ c _ _ =>
      if c.slot = .push ∨ pingId < 2000000 then [] else s.pongReports pingId
  | .runTask => match s.pendingTasks with
      | .proxyConnectionClosed c :: _ => s.closedReports c
      | _ => []
  | _ => []

end ConnectionsManager

/-- Whether the task of a check is scheduled from outside. -/
def Input.schedulesCheck : Input → Bool
  | .schedule (.checkProxy _) => true
  | _ => false

/-- The manager with the checks that were submitted, and those that were reported. -/
structure Checks where
  manager : ConnectionsManager
  submitted : List Int := []
  reported : List Int := []

namespace Checks

inductive Input
  | checkProxy
  | manager (input : Manager.Input)

/-- A command of the manager. -/
def inside {α : Type} (m : M α) : Program Checks α := fun c =>
  (m c.manager).map fun last => (last.1, { c with manager := last.2 })

def step (env : Env) : Input → Program Checks Unit
  | .checkProxy => do
      let pingId ← inside Manager.checkProxy
      update fun c => { c with submitted := c.submitted ++ [pingId] }
  | .manager input =>
      -- the task of a check is scheduled by `checkProxy` alone
      if input.schedulesCheck then fault
      else do
        update fun c => { c with reported := c.reported ++ c.manager.reports input }
        inside (Manager.step env input)

/-- Every check that was submitted is in one place or was reported, once. -/
structure Conserved (c : Checks) : Prop where
  placed : (c.manager.checkIds ++ c.reported).Perm c.submitted
  once : c.submitted.Nodup
  connections : c.manager.DistinctConnections

end Checks

/-- A step that drops a check: the task of a check that has a connection to use but no key for the
current datacenter, or the pong of a check whose request is not running. -/
def Drops (s : ConnectionsManager) : Input → Prop
  | .received (.pong pingId) _ c _ _ =>
      c.slot ≠ .push ∧ 2000000 ≤ pingId ∧
        ∃ info, s.proxyActiveChecks.find? (fun info => info.pingId == pingId) = some info ∧
          ∀ r ∈ s.runningRequests, r.requestToken ≠ info.requestToken
  | .runTask =>
      (∃ info rest, s.pendingTasks = .checkProxy info :: rest) ∧
        freeConnectionNum s.proxyActiveChecks ≠ none ∧
        ∃ dc, s.datacenter s.currentDatacenterId = some dc ∧ dc.authKeyPerm = false
  | _ => False

/-! ## What happens to the checks -/

/-- Of the checks of before, the reported ones have ended. -/
structure Accounts (reported : List Int) (s t : ConnectionsManager) : Prop where
  checkIds : (t.checkIds ++ reported).Perm s.checkIds
  connections : s.DistinctConnections → t.DistinctConnections
  lastPingProxyId : t.lastPingProxyId = s.lastPingProxyId

section Accounts

variable {env : Env} {s t u : ConnectionsManager} {reported : List Int}

theorem Apart.checkIds (apart : Apart s t) : t.checkIds = s.checkIds := by
  unfold ConnectionsManager.checkIds ConnectionsManager.checks
  rw [apart.pendingChecks, apart.proxyCheckQueue, apart.proxyActiveChecks]

theorem Apart.accounts (apart : Apart s t) : Accounts [] s t where
  checkIds := by
    rw [List.append_nil, apart.checkIds]
  connections distinct := by
    have same := apart.proxyActiveChecks
    exact ⟨same ▸ distinct.lt, same ▸ distinct.nodup⟩
  lastPingProxyId := apart.lastPingProxyId

theorem Accounts.trans (first : Accounts reported s t) (second : Accounts [] t u) :
    Accounts reported s u where
  checkIds := by
    have same : u.checkIds.Perm t.checkIds := by
      rw [← List.append_nil u.checkIds]
      exact second.checkIds
    exact (same.append_right reported).trans first.checkIds
  connections := second.connections ∘ first.connections
  lastPingProxyId := second.lastPingProxyId.trans first.lastPingProxyId

instance : IsPreorder ConnectionsManager (Accounts []) where
  refl s := (refl s : Apart s s).accounts
  trans _ _ _ := Accounts.trans

theorem Passive.accounts {α : Type} {m : M α} [Passive m] : Keeps (Accounts []) m :=
  Passive.apart.mono fun _ _ apart => apart.accounts

/-- The first check of the queue becomes a task. -/
theorem accounts_checkNextProxy : Keeps (Accounts []) checkNextProxy := by
  intro s x t run
  rw [checkNextProxy, read_bind] at run
  cases waiting : s.proxyCheckQueue with
  | nil =>
    rw [waiting] at run
    rw [(pure_run run).2]
    exact refl s
  | cons info rest =>
    rw [waiting] at run
    change (update _ >>= fun _ => scheduleTask (.checkProxy info)) s = some (x, t) at run
    rw [update_bind] at run
    rw [update_run run]
    refine ⟨?_, fun distinct => ⟨distinct.lt, distinct.nodup⟩, rfl⟩
    rw [List.append_nil]
    refine List.Perm.of_eq (congrArg (List.map ProxyCheckInfo.pingId) ?_)
    show (s.pendingTasks ++ [Task.checkProxy info]).filterMap Task.check ++ rest ++
      s.proxyActiveChecks = s.checks
    have new : [Task.checkProxy info].filterMap Task.check = [info] := rfl
    rw [List.filterMap_append, new, ConnectionsManager.checks, waiting,
      List.append_assoc _ [info] rest]
    rfl

/-- An active check that was found has ended, and its request with it. -/
theorem accounts_endCheck {matching : ProxyCheckInfo → Bool} {info : ProxyCheckInfo}
    (found : s.proxyActiveChecks.find? matching = some info) (request : Request → Bool) :
    Accounts [info.pingId] s
      { s with
        runningRequests := s.runningRequests.eraseP request
        proxyActiveChecks := s.proxyActiveChecks.eraseP matching } where
  checkIds := by
    have ended := (perm_eraseP_of_find found).append_left (s.pendingChecks ++ s.proxyCheckQueue)
    rw [← List.append_assoc] at ended
    have ids := ended.map (·.pingId)
    rwa [List.map_append] at ids
  connections distinct :=
    ⟨fun other mem => distinct.lt other (List.mem_of_mem_eraseP mem),
      distinct.nodup.sublist (List.eraseP_sublist.map _)⟩
  lastPingProxyId := rfl

theorem onProxyPong_accounts {pingId : Int} {x : Unit}
    (kept : ∀ info, s.proxyActiveChecks.find? (fun info => info.pingId == pingId) = some info →
      ∃ r ∈ s.runningRequests, r.requestToken = info.requestToken)
    (run : onProxyPong pingId s = some (x, t)) : Accounts (s.pongReports pingId) s t := by
  rw [onProxyPong, read_bind] at run
  unfold ConnectionsManager.pongReports
  cases found : s.proxyActiveChecks.find? fun info => info.pingId == pingId with
  | none =>
    rw [found] at run
    rw [(pure_run run).2]
    exact refl s
  | some info =>
    rw [found] at run
    change (update _ >>= fun _ => checkNextProxy) s = some (x, t) at run
    rw [update_bind] at run
    have running : (s.runningRequests.any fun r => r.requestToken == info.requestToken) = true := by
      obtain ⟨r, mem, own⟩ := kept info found
      exact List.any_eq_true.2 ⟨r, mem, beq_iff_eq.2 own⟩
    dsimp only
    rw [if_pos running]
    exact (accounts_endCheck found _).trans (accounts_checkNextProxy _ _ _ run)

/-- The check of a closed connection ends with its request, if that was sent. -/
theorem accounts_closeCheck {num : Nat} {request : ProxyCheckInfo → Request → Bool} {x : Unit}
    (run : (match s.proxyActiveChecks.find? fun info => info.connectionNum == num with
      | none => pure ()
      | some info => when (s.runningRequests.any (request info) = true) do
          update fun s =>
            { s with
              runningRequests := s.runningRequests.eraseP (request info)
              proxyActiveChecks := s.proxyActiveChecks.eraseP fun other =>
                other.connectionNum == num }
          checkNextProxy : M Unit) s = some (x, t)) :
    Accounts
      (match s.proxyActiveChecks.find? fun info => info.connectionNum == num with
        | none => []
        | some info => if s.runningRequests.any (request info) = true then [info.pingId] else []) s
            t := by
  cases found : s.proxyActiveChecks.find? fun info => info.connectionNum == num with
  | none =>
    rw [found] at run
    rw [(pure_run run).2]
    exact refl s
  | some info =>
    rw [found] at run
    dsimp only at run ⊢
    rcases when_run run with ⟨matching, run⟩ | ⟨other, rfl⟩
    · rw [if_pos matching]
      rw [update_bind] at run
      exact (accounts_endCheck found _).trans (accounts_checkNextProxy _ _ _ run)
    · rw [if_neg other]
      exact refl t

theorem onProxyConnectionClosed_accounts {c : ConnectionId} {x : Unit}
    (run : onProxyConnectionClosed c s = some (x, t)) : Accounts (s.closedReports c) s t := by
  obtain ⟨d, slot⟩ := c
  rw [onProxyConnectionClosed, read_bind] at run
  cases slot with
  | proxy num => exact accounts_closeCheck run
  | _ => exact accounts_closeCheck run

/-! ## The task of a check -/

theorem isSome_update {connections : ConnectionId → Option Connection} {c : ConnectionId}
    (e : ConnectionId)
    {x : Option Connection} (new : e = c → x.isSome = true)
    (exist : e ≠ c → (connections c).isSome = true) :
    (Function.update connections e x c).isSome = true := by
  by_cases own : e = c
  · subst own
    rw [Function.update_self]
    exact new rfl
  · rw [Function.update_of_ne (Ne.symm own)]
    exact exist own

/-- A connection that exists does not go away by calm changes. -/
theorem Calms.created (calms : Calms env s t) {c : ConnectionId}
    (exist : (s.connections c).isSome = true) :
    (t.connections c).isSome = true := by
  induction calms with
  | refl => exact exist
  | tail _ calm ih =>
    have modified : ∀ (u : ConnectionsManager) (e : ConnectionId) (f : Connection → Connection),
        (u.connections c).isSome = true → ((u.modifyConnection e f).connections c).isSome =
          true := by
      intro u e f here
      refine isSome_update e (fun own => ?_) fun _ => here
      rwa [own, Option.isSome_map]
    cases calm with
    | other same => rwa [same.connections]
    | create e new => exact isSome_update e (fun _ => rfl) fun _ => ih
    | opening e f _ _ _ => exact modified _ e f ih
    | session e f _ => exact modified _ e f ih
    | batch b d messages plain => cases b <;> exact ih
    | _ => exact ih

/-- With a key there is a connection. -/
theorem getConnection_key {c : ConnectionId} {found : Option ConnectionId}
    (run : getConnection env c true s = some (found, t)) {dc : Datacenter}
    (known : s.datacenter c.datacenter = some dc)
    (key : dc.authKeyPerm = true) : found = some c := by
  obtain ⟨held, u, checked, rest⟩ := bind_run run
  obtain ⟨dc', known', ended⟩ := datacenter_bind checked
  obtain ⟨rfl, rfl⟩ := pure_run ended
  obtain rfl := Option.some.inj (known.symm.trans known')
  rw [if_pos key] at rest
  obtain ⟨x, v, created, rest⟩ := bind_run rest
  rw [read_bind] at rest
  rw [(pure_run rest).1]
  obtain ⟨y, w, first, connected⟩ :=
    bind_run (created : (createConnection env c >>= fun _ => connect env c) u = _)
  have exist : (w.connections c).isSome = true := by
    rw [createConnection, read_bind] at first
    rcases when_run first with ⟨-, first⟩ | ⟨here, rfl⟩
    · rw [reading_bind] at first
      rw [update_run first]
      exact isSome_update c (fun _ => rfl) fun other => absurd rfl other
    · exact Option.isSome_iff_ne_none.2 here
  have stays : (v.connections c).isSome = true := (keeps_connect c _ _ _ connected).created exist
  rw [if_pos stays]

/-- The number of a free connection is one of the four, and no active check uses it. -/
theorem freeConnectionNum_spec {active : List ProxyCheckInfo} {num : Fin 4}
    (free : freeConnectionNum active = some num) :
    ∀ info ∈ active, info.connectionNum ≠ num.val := by
  have unused : (active.all fun info => info.connectionNum != num.val) = true := by
    simpa using List.find?_some free
  intro info mem
  simpa using List.all_eq_true.1 unused info mem

theorem getDatacenterWithId_default {d : Nat}
    (run : getDatacenterWithId defaultDatacenterId s = some (some d, t)) :
    t = s ∧ d = s.currentDatacenterId ∧ ∃ dc, s.datacenter s.currentDatacenterId = some dc := by
  rw [getDatacenterWithId, read_bind, if_pos rfl] at run
  unfold ConnectionsManager.datacenter
  cases entry : s.datacenters.find s.currentDatacenterId with
  | none =>
    rw [entry] at run
    change (update _ >>= fun _ => pure none) s = some (some d, t) at run
    rw [update_bind] at run
    cases (pure_run run).1
  | some known =>
    rw [entry] at run
    cases known with
    | none => cases (pure_run run).1
    | some dc =>
      obtain ⟨found, same⟩ := pure_run run
      exact ⟨same, Option.some.inj found, dc, rfl⟩

theorem checkProxyInternal_accounts {info : ProxyCheckInfo} {x : Unit}
    (key : freeConnectionNum s.proxyActiveChecks ≠ none → ∀ dc, s.datacenter s.currentDatacenterId =
      some dc →
      dc.authKeyPerm = true) (run : checkProxyInternal env info s = some (x, t)) :
    t.checkIds.Perm (info.pingId :: s.checkIds) ∧ (s.DistinctConnections → t.DistinctConnections) ∧
      t.lastPingProxyId = s.lastPingProxyId := by
  rw [checkProxyInternal, read_bind] at run
  cases free : freeConnectionNum s.proxyActiveChecks with
  | none =>
    rw [free] at run
    rw [update_run run]
    refine ⟨?_, fun distinct => ⟨distinct.lt, distinct.nodup⟩, rfl⟩
    have queued : (s.pendingChecks ++ (s.proxyCheckQueue ++ [info]) ++ s.proxyActiveChecks).Perm
        (info :: s.checks) := by
      rw [ConnectionsManager.checks, ← List.append_assoc, List.append_assoc, List.singleton_append]
      exact List.perm_middle
    exact queued.map ProxyCheckInfo.pingId
  | some num =>
    rw [free] at run
    dsimp only at run
    obtain ⟨found, u, looked, required⟩ := bind_run run
    obtain ⟨d, v, required, rest⟩ := bind_run required
    obtain ⟨rfl, rfl⟩ := require_run required
    obtain ⟨rfl, rfl, dc, known⟩ := getDatacenterWithId_default looked
    obtain ⟨connection, w, created, opened⟩ := bind_run rest
    obtain rfl := getConnection_key created known (key (by simp [free]) dc known)
    dsimp only at opened
    have first : Apart v w := Passive.apart _ _ _ created
    obtain ⟨_, w₁, suspended, opened⟩ := bind_run opened
    obtain ⟨token, w₂, numbered, opened⟩ := bind_run opened
    obtain ⟨_, w₃, sent, opened⟩ := bind_run opened
    have second : Apart w w₁ := Passive.apart _ _ _ suspended
    have third : Apart w₁ w₂ := Passive.apart _ _ _ numbered
    have fourth : Apart w₂ w₃ := (passive_sendRequest fun _ => rfl).apart _ _ _ sent
    have apart : Apart v w₃ :=
      IsTrans.trans _ _ _ first (IsTrans.trans _ _ _ second (IsTrans.trans _ _ _ third fourth))
    rw [update_run opened]
    refine ⟨?_, fun distinct => ⟨fun other mem => ?_, ?_⟩, apart.lastPingProxyId⟩
    · show ((w₃.pendingChecks ++ w₃.proxyCheckQueue ++ (w₃.proxyActiveChecks ++ [_])).map _).Perm _
      rw [apart.pendingChecks, apart.proxyCheckQueue, apart.proxyActiveChecks, ← List.append_assoc,
        List.map_append]
      exact List.perm_append_singleton info.pingId v.checkIds
    · rcases List.mem_append.1 mem with old | new
      · exact distinct.lt other (apart.proxyActiveChecks ▸ old)
      · rw [List.mem_singleton.1 new]
        exact num.isLt
    · show ((w₃.proxyActiveChecks ++ [_]).map _).Nodup
      rw [apart.proxyActiveChecks, List.map_append, List.nodup_append]
      refine ⟨distinct.nodup, by simp, fun n used m own => ?_⟩
      obtain ⟨other, mem, rfl⟩ := List.mem_map.1 used
      rw [List.mem_singleton.1 own]
      exact freeConnectionNum_spec free other mem

/-! ## Steps of the manager -/

theorem accounts_onHandshakeComplete (d : Nat) (type : HandshakeType) (timeDifference : Int) :
    Keeps (Accounts []) (onHandshakeComplete env d type timeDifference) := by
  refine keeps_bind Passive.accounts fun dc => keeps_when fun _ =>
    keeps_bind Passive.accounts fun _ => ?_
  refine keeps_bind Passive.accounts fun _ => keeps_bind Passive.accounts fun _ =>
    keeps_bind keeps_read fun s => ?_
  refine keeps_bind Passive.accounts fun _ =>
    keeps_bind (keeps_when fun _ => accounts_checkNextProxy) fun _ => ?_
  exact Passive.accounts

/-- A task that makes no check leaves the list. -/
theorem accounts_forget {task : Task} {rest : List Task} (planned : s.pendingTasks = task :: rest)
    (other : task.check = none) : Accounts [] s { s with pendingTasks := rest } := by
  refine Apart.accounts ⟨rfl, rfl, ?_, rfl, fun plain =>
    ⟨plain.requestsQueue, plain.runningRequests, ?_⟩⟩
  · rw [ConnectionsManager.pendingChecks, ConnectionsManager.pendingChecks, planned,
      List.filterMap_cons, other]
  · exact fun task' mem => plain.pendingTasks task' (planned ▸ List.mem_cons_of_mem task mem)

theorem runTask_accounts {x : Unit} (plain : s.PlainDownloads) (kept : ¬ Drops s .runTask)
    (run : Input.runTask.run env s = some (x, t)) : Accounts (s.reports .runTask) s t := by
  rw [Input.run, read_bind] at run
  unfold ConnectionsManager.reports
  cases planned : s.pendingTasks with
  | nil =>
    rw [planned] at run
    cases run
  | cons task rest =>
    rw [planned] at run
    change (update _ >>= fun _ => task.run env) s = some (x, t) at run
    rw [update_bind] at run
    cases task with
    | checkProxy info =>
      have key : freeConnectionNum s.proxyActiveChecks ≠ none →
          ∀ dc, s.datacenter s.currentDatacenterId = some dc →
          dc.authKeyPerm = true := by
        intro free dc known
        by_contra missing
        exact kept ⟨⟨info, rest, planned⟩, free, dc, known, Bool.eq_false_iff.2 missing⟩
      obtain ⟨checkIds, connections, last⟩ :=
        checkProxyInternal_accounts (s := { s with pendingTasks := rest }) key run
      refine ⟨?_, fun distinct => connections ⟨distinct.lt, distinct.nodup⟩, last⟩
      have here : s.checkIds = info.pingId ::
          ({ s with pendingTasks := rest } : ConnectionsManager).checkIds := by
        unfold ConnectionsManager.checkIds ConnectionsManager.checks
          ConnectionsManager.pendingChecks
        rw [planned]
        rfl
      rw [List.append_nil, here]
      exact checkIds
    | proxyConnectionClosed c =>
      have ended := onProxyConnectionClosed_accounts run
      have popped := accounts_forget planned rfl
      refine ⟨ended.checkIds.trans ?_, ended.connections ∘ popped.connections,
        ended.lastPingProxyId⟩
      rw [← List.append_nil (ConnectionsManager.checkIds _)]
      exact popped.checkIds
    | sendRequest args =>
      have own : Manager.plain args.connectionType args.onComplete :=
        plain.pendingTasks (.sendRequest args) (planned ▸ List.mem_cons_self)
      have passive : Passive (Task.run env (.sendRequest args)) := passive_enqueueRequest own
      exact (accounts_forget planned rfl).trans (Passive.accounts _ _ _ run)
    | cancelRequest token notifyServer =>
      exact (accounts_forget planned rfl).trans
        (Passive.accounts (m := cancelRequestInternal _ _ _) _ _ _ run)
    | cleanUp resetKeys =>
      exact (accounts_forget planned rfl).trans (Passive.accounts (m := cleanUp env _) _ _ _ run)
    | processRequestQueue connectionTypes dc =>
      exact (accounts_forget planned rfl).trans (Passive.accounts (m := callQueue _) _ _ _ run)
    | handshakeComplete d type timeDifference =>
      exact (accounts_forget planned rfl).trans
        (accounts_onHandshakeComplete d type timeDifference _ _ _ run)
    | setUserId userId =>
      exact (accounts_forget planned rfl).trans (Passive.accounts (m := setUserId env _) _ _ _ run)

theorem onPong_accounts {c : ConnectionId} {messageId pingId : Int}
    {innerMsgId containerMessageId : Int} {x : Unit}
    (kept : ¬ Drops s (.received (.pong pingId) messageId c innerMsgId containerMessageId))
    (run : onPong env c messageId pingId s = some (x, t)) :
    Accounts (s.reports (.received (.pong pingId) messageId c innerMsgId containerMessageId)) s
      t := by
  rw [onPong, read_bind] at run
  unfold ConnectionsManager.reports
  dsimp only
  by_cases push : c.slot = .push
  · rw [if_pos push] at run
    rw [if_pos (.inl push)]
    exact Passive.accounts _ _ _ run
  rw [if_neg push] at run
  by_cases check : 2000000 ≤ pingId
  · rw [if_pos check] at run
    rw [if_neg fun none => none.elim push (Int.not_lt.2 check)]
    refine onProxyPong_accounts (fun info found => ?_) run
    by_contra gone
    exact kept ⟨push, check, info, found, fun r mem own => gone ⟨r, mem, own⟩⟩
  · rw [if_neg check] at run
    rw [if_pos (.inr (Int.not_le.1 check))]
    exact Passive.accounts _ _ _ run

/-- A step accounts for all the checks, unless it drops one. -/
theorem Input.run_accounts {input : Input} {x : Unit} (plain : s.PlainDownloads)
    (kept : ¬ Drops s input)
    (own : ∀ info, input ≠ .schedule (.checkProxy info)) (run : input.run env s = some (x, t)) :
    Accounts (s.reports input) s t := by
  by_cases task : input = .runTask
  · subst task
    exact runTask_accounts plain kept run
  by_cases call : input = .runQueueCall
  · subst call
    have apart : Keeps Apart (Input.runQueueCall.run env) := by
      refine keeps_bind keeps_read fun s => keeps_bind (keeps_require _) fun call => ?_
      exact keeps_bind Passive.apart fun _ => apart_processRequestQueue env call
    exact (apart _ _ _ run).accounts
  by_cases pong : ∃ pingId messageId c innerMsgId containerMessageId,
      input = .received (.pong pingId) messageId c innerMsgId containerMessageId
  · obtain ⟨pingId, messageId, c, innerMsgId, containerMessageId, rfl⟩ := pong
    exact onPong_accounts kept run
  · push Not at pong
    have passive := passive_input env task call pong own
    have none : s.reports input = [] := by
      unfold ConnectionsManager.reports
      split
      · exact absurd rfl (pong _ _ _ _ _)
      · exact absurd rfl task
      · rfl
    rw [none]
    exact Passive.accounts _ _ _ run

theorem step_accounts {input : Input} {x : Unit} (plain : s.PlainDownloads) (kept : ¬ Drops s input)
    (own : ∀ info, input ≠ .schedule (.checkProxy info)) (run : step env input s = some (x, t)) :
    Accounts (s.reports input) s t := by
  rw [step, read_bind] at run
  split at run
  · cases run
  · exact Input.run_accounts plain kept own run

end Accounts

/-! ## Runs -/

namespace Checks

variable {env : Env}

/-- No check is submitted when the manager starts. -/
def Started (env : Env) (config : Option SavedConfig) (c : Checks) : Prop :=
  Manager.Started env config c.manager ∧ c.submitted = [] ∧ c.reported = []

/-- The ids of pings are given in order. -/
structure Accounted (c : Checks) : Prop extends Conserved c where
  past : ∀ pingId ∈ c.submitted, pingId ≤ c.manager.lastPingProxyId
  plain : c.manager.PlainDownloads

theorem accounted_of_started {config : Option SavedConfig} {c : Checks}
    (started : Started env config c) :
    Accounted c := by
  obtain ⟨⟨userId, version, hasNetwork, enablePushConnection, run⟩, none_submitted,
    none_reported⟩ := started
  have apart : Apart _ c.manager := Passive.apart _ _ _ run
  have none_active : c.manager.proxyActiveChecks = [] := apart.proxyActiveChecks
  refine ⟨⟨?_, ?_, ⟨?_, ?_⟩⟩, ?_, apart.plain ⟨?_, ?_, ?_⟩⟩
  · rw [apart.checkIds, none_submitted, none_reported]
    rfl
  · rw [none_submitted]
    exact .nil
  · simp [none_active]
  · simp [none_active]
  · simp [none_submitted]
  all_goals simp

/-- A new check waits in its task. -/
theorem checkIds_schedule (s : ConnectionsManager) (info : ProxyCheckInfo) (last : Int) :
    ({ s with lastPingProxyId := last, pendingTasks := s.pendingTasks ++ [.checkProxy info] } :
      ConnectionsManager).checkIds.Perm (info.pingId :: s.checkIds) := by
  have new : [Task.checkProxy info].filterMap Task.check = [info] := rfl
  have scheduled :
      ((s.pendingTasks ++ [Task.checkProxy info]).filterMap Task.check ++ s.proxyCheckQueue ++
        s.proxyActiveChecks).Perm (info :: s.checks) := by
    rw [List.filterMap_append, new, ConnectionsManager.checks, List.append_assoc, List.append_assoc,
      List.append_assoc, List.singleton_append]
    exact List.perm_middle
  exact scheduled.map ProxyCheckInfo.pingId

theorem accounted_checkProxy {c d : Checks} {x : Unit} (accounted : Accounted c)
    (run : step env .checkProxy c = some (x, d)) : Accounted d := by
  obtain ⟨pingId, e, scheduled, submitted⟩ := bind_run run
  rw [update_run submitted]
  obtain ⟨⟨own, s⟩, checked, same⟩ := Option.map_eq_some_iff.1 scheduled
  obtain ⟨rfl, rfl⟩ := Prod.mk.inj same
  rw [checkProxy, read_bind] at checked
  split at checked
  · change (update _ >>= fun _ => scheduleTask _ >>= fun _ => pure _) c.manager =
      some (own, s) at checked
    rw [update_bind] at checked
    obtain ⟨y, t, planned, checked⟩ := bind_run checked
    obtain ⟨rfl, rfl⟩ := pure_run checked
    have unused : c.manager.lastPingProxyId + 1 ∉ c.submitted := fun mem => by
      have := accounted.past _ mem
      omega
    have ids := (checkIds_schedule c.manager { pingId := c.manager.lastPingProxyId + 1 }
      (c.manager.lastPingProxyId + 1)).append_right c.reported
    rw [update_run planned]
    refine ⟨⟨?_, ?_, accounted.connections.lt, accounted.connections.nodup⟩, fun pingId mem => ?_,
      ?_⟩
    · refine ids.trans ((accounted.placed.cons _).trans ?_)
      exact (List.perm_append_singleton _ _).symm
    · exact (List.perm_append_singleton _ _).nodup_iff.2
        (List.nodup_cons.2 ⟨unused, accounted.once⟩)
    · rcases List.mem_append.1 mem with old | new
      · exact Int.le_trans (accounted.past pingId old) (Int.le_of_lt (Int.lt_succ _))
      · exact Int.le_of_eq (List.mem_singleton.1 new)
    · refine ⟨accounted.plain.requestsQueue, accounted.plain.runningRequests, fun task mem => ?_⟩
      rcases List.mem_append.1 mem with old | new
      · exact accounted.plain.pendingTasks task old
      · rw [List.mem_singleton.1 new]
        trivial
  · cases checked

theorem accounted_manager {c d : Checks} {input : Manager.Input} {x : Unit}
    (kept : ¬ Drops c.manager input)
    (accounted : Accounted c) (run : step env (.manager input) c = some (x, d)) : Accounted d := by
  rw [step] at run
  split at run
  · cases run
  rename_i other
  have own : ∀ info, input ≠ .schedule (.checkProxy info) := by
    rintro info rfl
    exact other rfl
  rw [update_bind] at run
  obtain ⟨⟨y, t⟩, taken, same⟩ := Option.map_eq_some_iff.1 run
  obtain ⟨rfl, rfl⟩ := Prod.mk.inj same
  have accounts := step_accounts accounted.plain kept own taken
  have plain := step_plains input _ _ _ taken accounted.plain
  refine ⟨⟨?_, accounted.once, accounts.connections accounted.connections⟩, ?_, plain⟩
  · show (t.checkIds ++ (c.reported ++ c.manager.reports input)).Perm c.submitted
    have moved : (t.checkIds ++ (c.reported ++ c.manager.reports input)).Perm
        (t.checkIds ++ c.manager.reports input ++ c.reported) := by
      rw [List.append_assoc]
      exact List.perm_append_comm.append_left _
    exact moved.trans ((accounts.checkIds.append_right _).trans accounted.placed)
  · intro pingId mem
    exact Int.le_trans (accounted.past pingId mem) (Int.le_of_eq accounts.lastPingProxyId.symm)

/-- No check is dropped. -/
def Keeps (c : Checks) : Input → Prop
  | .checkProxy => True
  | .manager input => ¬ Drops c.manager input

/-- In a run in which no step drops a check, every submitted check is in one place or was reported
once. -/
theorem conserved_of_reaches {config : Option SavedConfig} {c : Checks}
    (reached : Reaches (step env) (Started env config) Keeps c) : Conserved c := by
  have accounted : Accounted c := by
    refine reached.invariant (fun _ started => accounted_of_started started)
      fun c input d accounted kept run => ?_
    cases input with
    | checkProxy => exact accounted_checkProxy accounted run
    | manager input => exact accounted_manager kept accounted run
  exact accounted.toConserved

/-- The checks after the inputs. -/
def afterInputs (env : Env) (config : Option SavedConfig) (inputs : List Input) :
    Option (Unit × Checks) :=
  (loadConfig env config { currentVersion := 1 }).bind fun start =>
    each (step env) inputs { manager := start.2 }

theorem reaches_afterInputs {config : Option SavedConfig} {allowed : Checks → Input → Prop}
    {inputs : List Input}
    (always : ∀ i ∈ inputs, ∀ c, allowed c i) {x : Unit} {c : Checks}
    (run : afterInputs env config inputs = some (x, c)) :
    Reaches (step env) (Started env config) allowed c := by
  obtain ⟨⟨⟨⟩, start⟩, loaded, run⟩ := Option.bind_eq_some_iff.1 run
  exact Reaches.each always (.start ⟨⟨0, 1, true, true, loaded⟩, rfl, rfl⟩) run

/-- A check that is submitted before the client has a key is nowhere once its task has run. -/
theorem not_conserved_without_key :
    ¬ ∀ c, Reaches (step everyTenSeconds) (Started everyTenSeconds none) (fun _ _ => True) c →
      c.Conserved := by
  intro always
  have lost : (afterInputs everyTenSeconds none [.checkProxy, .manager .runTask]).map (fun after =>
      (after.2.manager.checkIds, after.2.reported, after.2.submitted)) =
        some ([], [], [2000001]) := by
    decide +kernel
  obtain ⟨⟨⟨⟩, c⟩, run, lost⟩ := Option.map_eq_some_iff.1 lost
  injection lost with nowhere lost
  injection lost with unreported submitted
  change c.manager.checkIds = [] at nowhere
  have placed := (always c (reaches_afterInputs (fun _ _ _ => trivial) run)).placed
  rw [nowhere, unreported, submitted] at placed
  exact absurd placed.length_eq (by decide)

/-- With a key the check is given a connection. -/
theorem conserved_of_reaches_keyed :
    ∃ c d, afterInputs everyTenSeconds (some twoDatacenters) [.checkProxy] = some ((), c) ∧
      step everyTenSeconds (.manager .runTask) c = some ((), d) ∧ d.submitted = [2000001] ∧
        d.Conserved := by
  have facts : (afterInputs everyTenSeconds (some twoDatacenters) [.checkProxy]).map (fun after =>
      ((after.2.manager.datacenter after.2.manager.currentDatacenterId).map (·.authKeyPerm),
        (step everyTenSeconds (.manager .runTask) after.2).map (·.2.submitted))) =
      some (some true, some [2000001]) := by
    decide +kernel
  obtain ⟨⟨⟨⟩, c⟩, run, facts⟩ := Option.map_eq_some_iff.1 facts
  injection facts with keyed taken
  obtain ⟨⟨⟨⟩, d⟩, taken, submitted⟩ := Option.map_eq_some_iff.1 taken
  refine ⟨c, d, run, taken, submitted, ?_⟩
  have started :
      Reaches (step everyTenSeconds) (Started everyTenSeconds (some twoDatacenters)) Keeps c := by
    refine reaches_afterInputs (fun i mem c => ?_) run
    rw [List.mem_singleton.1 mem]
    trivial
  refine conserved_of_reaches (.step started ?_ taken)
  rintro ⟨-, -, dc, known, missing⟩
  change (c.manager.datacenter c.manager.currentDatacenterId).map (·.authKeyPerm) =
    some true at keyed
  rw [known] at keyed
  cases keyed.symm.trans (congrArg some missing)

end Checks

end Mtproto.Manager
