import Mtproto.Manager.Changes

/-!
Message ids and sequence numbers of a session only grow.  One counter gives the ids for all
sessions; it may be set back only when no session goes on that has used a greater id.  Three things
break the law: a bad server salt, a notification about one datacenter while another one has a
session, and the stored session of the push connection, which is taken with whatever sequence number
the connection has.
-/

namespace Mtproto.Manager

open Lib Program Relation

/-! ## The law -/

/-- Of two messages of one session the later one has the greater id, and no smaller sequence number;
odd numbers are used once. -/
def Follows : Event → Event → Prop
  | .assigned session msgId seqNo, .assigned session' msgId' seqNo' =>
      session = session' → msgId < msgId' ∧ seqNo ≤ seqNo' ∧ (seqNo % 2 = 1 → seqNo' ≠ seqNo)
  | _, _ => True

/-- The law of a run, with the state it has come to: no session in use has used an id that is still
to come. -/
structure ConnectionsManager.Monotone (s : ConnectionsManager) : Prop where
  follows : s.trace.Pairwise Follows
  aligned : ∀ session msgId seqNo, .assigned session msgId seqNo ∈ s.trace → msgId % 4 = 0
  below : ∀ c x msgId seqNo, s.connections c = some x →
    .assigned x.sessionId msgId seqNo ∈ s.trace →
    msgId ≤ s.lastOutgoingMessageId

/-- The session, the id and the number that a message got. -/
def Event.assignment : Event → Option (Int × Int × Nat)
  | .assigned session msgId seqNo => some (session, msgId, seqNo)
  | _ => none

/-- So the ids of a session increase in the order in which they are given. -/
theorem ConnectionsManager.Monotone.increasing {s : ConnectionsManager} (monotone : s.Monotone) :
    (s.trace.filterMap (·.assignment)).Pairwise fun first second => first.1 = second.1 →
      first.2.1 < second.2.1 := by
  refine List.pairwise_filterMap.2
    (monotone.follows.imp fun {earlier later} follows first own second own' same => ?_)
  cases earlier with
  | assigned session msgId seqNo =>
      cases later with
      | assigned session' msgId' seqNo' =>
          obtain rfl := Option.some.inj own
          obtain rfl := Option.some.inj own'
          exact (follows same).1
      | _ => cases own'
  | _ => cases own

variable {env : Env}

variable (env) in
/-- The session has an id that was drawn, or the stored one. -/
def ConnectionsManager.Drawn (s : ConnectionsManager) (session : Int) : Prop :=
  session = s.pushSessionId ∨ ∃ n < s.readings, session = env.newSessionId n

variable (env) in
/-- The sessions in use differ, and each has the sequence numbers before its next one behind it. -/
structure ConnectionsManager.Numbered (s : ConnectionsManager) : Prop extends s.Monotone where
  numbers : ∀ c x msgId seqNo, s.connections c = some x →
    .assigned x.sessionId msgId seqNo ∈ s.trace →
    seqNo ≤ 2 * x.nextSeqNo
  short : ∀ c x, s.connections c = some x → x.nextSeqNo ≤ s.trace.length
  distinct : ∀ c c' x x', s.connections c = some x → s.connections c' = some x' →
    x.sessionId = x'.sessionId → c = c'
  drawn : ∀ c x, s.connections c = some x → s.Drawn env x.sessionId
  past : ∀ session msgId seqNo, .assigned session msgId seqNo ∈ s.trace → s.Drawn env session
  stored : ∀ n, s.readings ≤ n → env.newSessionId n ≠ s.pushSessionId

/-! ## Frames -/

/-- No message was numbered: sessions, numbers and ids are as they were, or the ids have grown. -/
structure Unnumbered (s t : ConnectionsManager) : Prop where
  connections : ∀ c y, t.connections c = some y →
    ∃ x, s.connections c = some x ∧ y.sessionId = x.sessionId ∧ y.nextSeqNo = x.nextSeqNo
  trace : ∃ events, t.trace = s.trace ++ events ∧ ∀ session msgId seqNo,
    .assigned session msgId seqNo ∉ events
  last : s.lastOutgoingMessageId ≤ t.lastOutgoingMessageId
  readings : s.readings ≤ t.readings
  pushSessionId : t.pushSessionId = s.pushSessionId

section Kept

variable {s t : ConnectionsManager}

theorem Unnumbered.of_same (connections : t.connections = s.connections) (trace : t.trace = s.trace)
    (last : s.lastOutgoingMessageId ≤ t.lastOutgoingMessageId) (readings : s.readings ≤ t.readings)
    (push : t.pushSessionId = s.pushSessionId) : Unnumbered s t :=
  ⟨fun _ y here => ⟨y, connections ▸ here, rfl, rfl⟩, ⟨[], by simp [trace], by simp⟩, last,
    readings, push⟩

/-- One event was added that numbers no message. -/
theorem Unnumbered.of_event {e : Event} (connections : t.connections = s.connections)
    (trace : t.trace = s.trace ++ [e])
    (last : t.lastOutgoingMessageId = s.lastOutgoingMessageId) (readings : t.readings = s.readings)
    (push : t.pushSessionId = s.pushSessionId)
    (plain : ∀ session msgId seqNo, e ≠ .assigned session msgId seqNo) :
    Unnumbered s t :=
  ⟨fun _ y here => ⟨y, connections ▸ here, rfl, rfl⟩,
    ⟨[e], trace, fun session msgId seqNo mem =>
      plain session msgId seqNo (List.mem_singleton.1 mem).symm⟩,
    Int.le_of_eq last.symm, Nat.le_of_eq readings.symm, push⟩

theorem Unnumbered.modifyConnection (s : ConnectionsManager) (c : ConnectionId)
    {f : Connection → Connection}
    (same : ∀ x, (f x).sessionId = x.sessionId ∧ (f x).nextSeqNo = x.nextSeqNo) :
    Unnumbered s (s.modifyConnection c f) := by
  refine ⟨fun e y here => ?_, ⟨[], (List.append_nil _).symm, by simp⟩, Int.le_refl _, Nat.le_refl _,
    rfl⟩
  change Function.update s.connections c ((s.connections c).map f) e = some y at here
  by_cases own : e = c
  · rw [own, Function.update_self] at here
    obtain ⟨x, exist, rfl⟩ := Option.map_eq_some_iff.1 here
    exact ⟨x, own ▸ exist, same x⟩
  · rw [Function.update_of_ne own] at here
    exact ⟨y, here, rfl, rfl⟩

theorem ConnectionsManager.Drawn.mono {session : Int} (readings : s.readings ≤ t.readings)
    (push : t.pushSessionId = s.pushSessionId) (drawn : s.Drawn env session) :
    t.Drawn env session := by
  rcases drawn with own | ⟨n, before_now, own⟩
  · exact .inl (own.trans push.symm)
  · exact .inr ⟨n, Nat.lt_of_lt_of_le before_now readings, own⟩

theorem Unnumbered.mem_trace (same : Unnumbered s t) {session msgId : Int} {seqNo : Nat}
    (mem : .assigned session msgId seqNo ∈ t.trace) : .assigned session msgId seqNo ∈ s.trace := by
  obtain ⟨events, trace, plain⟩ := same.trace
  rw [trace] at mem
  exact (List.mem_append.1 mem).resolve_right (plain session msgId seqNo)

/-- An event that numbers no message follows everything, and everything follows it. -/
theorem follows_of_not_assigned {e e' : Event}
    (plain : (∀ session msgId seqNo, e ≠ .assigned session msgId seqNo) ∨
      ∀ session msgId seqNo, e' ≠ .assigned session msgId seqNo) : Follows e e' := by
  unfold Follows
  split
  · rcases plain with plain | plain
    · exact absurd rfl (plain _ _ _)
    · exact absurd rfl (plain _ _ _)
  · trivial

theorem Unnumbered.numbered (same : Unnumbered s t) (numbered : s.Numbered env) :
    t.Numbered env where
  follows := by
    obtain ⟨events, trace, plain⟩ := same.trace
    have none : ∀ e ∈ events, ∀ session msgId seqNo, e ≠ .assigned session msgId seqNo :=
      fun e mem session msgId seqNo own => plain session msgId seqNo (own ▸ mem)
    rw [trace, List.pairwise_append]
    refine ⟨numbered.follows, ?_, fun earlier _ later mem =>
      follows_of_not_assigned (.inr (none later mem))⟩
    exact List.pairwise_of_forall_mem_list fun earlier mem later _ =>
      follows_of_not_assigned (.inl (none earlier mem))
  aligned session msgId seqNo mem := numbered.aligned session msgId seqNo (same.mem_trace mem)
  below c y msgId seqNo here mem := by
    obtain ⟨x, exist, session, -⟩ := same.connections c y here
    exact Int.le_trans (numbered.below c x msgId seqNo exist (session ▸ same.mem_trace mem))
      same.last
  numbers c y msgId seqNo here mem := by
    obtain ⟨x, exist, session, next⟩ := same.connections c y here
    rw [next]
    exact numbered.numbers c x msgId seqNo exist (session ▸ same.mem_trace mem)
  short c y here := by
    obtain ⟨x, exist, -, next⟩ := same.connections c y here
    obtain ⟨events, trace, -⟩ := same.trace
    rw [next, trace, List.length_append]
    exact Nat.le_trans (numbered.short c x exist) (Nat.le_add_right _ _)
  distinct c c' y y' here here' session := by
    obtain ⟨x, exist, same_session, -⟩ := same.connections c y here
    obtain ⟨x', exist', same_session', -⟩ := same.connections c' y' here'
    exact numbered.distinct c c' x x' exist exist' (by rw [← same_session, session, same_session'])
  drawn c y here := by
    obtain ⟨x, exist, session, -⟩ := same.connections c y here
    rw [session]
    exact (numbered.drawn c x exist).mono same.readings same.pushSessionId
  past session msgId seqNo mem :=
    (numbered.past session msgId seqNo (same.mem_trace mem)).mono same.readings same.pushSessionId
  stored n after_now := by
    rw [same.pushSessionId]
    exact numbered.stored n (Nat.le_trans same.readings after_now)

instance : IsPreorder ConnectionsManager Unnumbered where
  refl s := .of_same rfl rfl (Int.le_refl _) (Nat.le_refl _) rfl
  trans s t u first second := by
    refine ⟨fun c y here => ?_, ?_, Int.le_trans first.last second.last,
      Nat.le_trans first.readings second.readings,
      second.pushSessionId.trans first.pushSessionId⟩
    · obtain ⟨x, exist, session, next⟩ := second.connections c y here
      obtain ⟨z, there, session', next'⟩ := first.connections c x exist
      exact ⟨z, there, session.trans session', next.trans next'⟩
    · obtain ⟨events, trace, plain⟩ := first.trace
      obtain ⟨events', trace', plain'⟩ := second.trace
      refine ⟨events ++ events', by rw [trace', trace, List.append_assoc],
        fun session msgId seqNo mem => ?_⟩
      rcases List.mem_append.1 mem with mem | mem
      · exact plain session msgId seqNo mem
      · exact plain' session msgId seqNo mem

theorem unnumbered_update {f : ConnectionsManager → ConnectionsManager}
    (same : ∀ s, (f s).connections = s.connections ∧ (f s).trace = s.trace ∧
      (f s).lastOutgoingMessageId = s.lastOutgoingMessageId ∧ s.readings ≤ (f s).readings ∧
        (f s).pushSessionId = s.pushSessionId) : Keeps Unnumbered (update f) := by
  refine keeps_update fun s => ?_
  obtain ⟨connections, trace, last, readings, push⟩ := same s
  exact .of_same connections trace (Int.le_of_eq last.symm) readings push

theorem unnumbered_reading : Keeps Unnumbered reading :=
  keeps_bind keeps_read fun _ =>
    keeps_bind (unnumbered_update fun _ => ⟨rfl, rfl, rfl, Nat.le_succ _, rfl⟩) fun _ =>
      keeps_pure _

theorem unnumbered_getDatacenterWithId (id : Nat) : Keeps Unnumbered (getDatacenterWithId id) := by
  refine keeps_bind keeps_read fun s => keeps_ite (fun _ => ?_) fun _ => keeps_pure _
  split
  · exact keeps_pure _
  · exact keeps_pure _
  · exact keeps_bind (unnumbered_update fun _ => ⟨rfl, rfl, rfl, Nat.le_refl _, rfl⟩) fun _ =>
      keeps_pure _

theorem unnumbered_saveConfig : Keeps Unnumbered saveConfig := by
  refine keeps_bind keeps_read fun s => keeps_bind (unnumbered_getDatacenterWithId _) fun found =>
    ?_
  refine keeps_when fun _ => keeps_bind keeps_read fun s => keeps_each fun d _ => ?_
  exact keeps_bind (keeps_datacenter d) fun _ => keeps_pure _

theorem unnumbered_correctTime (messageId : Int) : Keeps Unnumbered (correctTime env messageId) :=
  keeps_bind unnumbered_reading fun _ => unnumbered_update fun _ =>
    ⟨rfl, rfl, rfl, Nat.le_refl _, rfl⟩

/-! ## New numbers and new sessions -/

/-- As long as a run is short, no sequence number has come back to zero. -/
theorem seqNo_of_short {x : Connection} (short : x.nextSeqNo < 2 ^ 31 - 1) (increment : Bool) :
    x.seqNo increment = 2 * x.nextSeqNo + (if increment then 1 else 0) ∧
      (x.numbered increment).nextSeqNo = x.nextSeqNo + (if increment then 1 else 0) ∧
        (x.numbered increment).sessionId = x.sessionId := by
  cases increment with
  | false => exact ⟨by simp only [Connection.seqNo, Bool.false_eq_true, if_false]; omega, rfl, rfl⟩
  | true =>
      refine ⟨by simp only [Connection.seqNo, if_true]; omega, ?_, rfl⟩
      simp only [Connection.numbered, if_true]
      omega

/-- A message of a session has taken the next id and the next number. -/
theorem numbered_assign {c : ConnectionId} {x : Connection} {msgId : Int} (increment : Bool)
    (numbered : s.Numbered env) (few : t.trace.length < 2 ^ 31) (exist : s.connections c = some x)
    (later : s.lastOutgoingMessageId < msgId) (aligned : msgId % 4 = 0)
    (connections : t.connections = Function.update s.connections c (some (x.numbered increment)))
    (trace : t.trace = s.trace ++ [.assigned x.sessionId msgId (x.seqNo increment)])
    (last : t.lastOutgoingMessageId = msgId) (readings : s.readings ≤ t.readings)
    (push : t.pushSessionId = s.pushSessionId) : t.Numbered env := by
  have length : t.trace.length = s.trace.length + 1 := by
    rw [trace, List.length_append, List.length_singleton]
  have bound := numbered.short c x exist
  obtain ⟨seqNo, next, session⟩ := seqNo_of_short (x := x) (by omega) increment
  have before_now : ∀ e y, t.connections e = some y → ∃ z, s.connections e = some z ∧
      y.sessionId = z.sessionId ∧
      z.nextSeqNo ≤ y.nextSeqNo ∧ y.nextSeqNo ≤ z.nextSeqNo + 1 ∧
        (e = c → y = x.numbered increment) := by
    intro e y here
    rw [connections] at here
    by_cases own : e = c
    · rw [own, Function.update_self] at here
      obtain rfl := Option.some.inj here
      refine ⟨x, own ▸ exist, session, ?_, ?_, fun _ => rfl⟩
      · rw [next]
        exact Nat.le_add_right _ _
      · rw [next]
        split <;> omega
    · rw [Function.update_of_ne own] at here
      exact ⟨y, here, rfl, Nat.le_refl _, Nat.le_succ _, fun same => absurd same own⟩
  have mem_trace : ∀ {session msgId' : Int} {seqNo' : Nat}, .assigned session msgId' seqNo' ∈
    t.trace →
      .assigned session msgId' seqNo' ∈ s.trace ∨
        (session = x.sessionId ∧ msgId' = msgId ∧ seqNo' = x.seqNo increment) := by
    intro session msgId' seqNo' mem
    rw [trace] at mem
    refine (List.mem_append.1 mem).imp_right fun new => ?_
    injection List.mem_singleton.1 new with own id number
    exact ⟨own, id, number⟩
  refine ⟨⟨?_, ?_, ?_⟩, ?_, ?_, ?_, ?_, ?_, ?_⟩
  · rw [trace, List.pairwise_append]
    refine ⟨numbered.follows, List.pairwise_singleton _ _, fun earlier mem new own => ?_⟩
    rw [List.mem_singleton.1 own]
    cases earlier with
    | assigned session' msgId' seqNo' =>
        rintro rfl
        have id := numbered.below c x msgId' seqNo' exist mem
        have number := numbered.numbers c x msgId' seqNo' exist mem
        refine ⟨by omega, by omega, fun odd same => ?_⟩
        rw [seqNo] at same
        cases increment with
        | false => simp only [Bool.false_eq_true, if_false] at same; omega
        | true => simp only [if_true] at same; omega
    | _ => trivial
  · intro session' msgId' seqNo' mem
    rcases mem_trace mem with old | ⟨-, rfl, -⟩
    · exact numbered.aligned session' msgId' seqNo' old
    · exact aligned
  · intro e y msgId' seqNo' here mem
    obtain ⟨z, there, same, -⟩ := before_now e y here
    rw [last]
    rcases mem_trace mem with old | ⟨-, rfl, -⟩
    · have id := numbered.below e z msgId' seqNo' there (same ▸ old)
      omega
    · exact Int.le_refl _
  · intro e y msgId' seqNo' here mem
    obtain ⟨z, there, same, grown, -, own⟩ := before_now e y here
    rcases mem_trace mem with old | ⟨own_session, -, rfl⟩
    · have number := numbered.numbers e z msgId' seqNo' there (same ▸ old)
      omega
    · have here_too := numbered.distinct e c z x there exist (same ▸ own_session)
      rw [own here_too, next, seqNo]
      split <;> omega
  · intro e y here
    obtain ⟨z, there, -, -, grown, -⟩ := before_now e y here
    have old := numbered.short e z there
    omega
  · intro e e' y y' here here' same
    obtain ⟨z, there, own, -⟩ := before_now e y here
    obtain ⟨z', there', own', -⟩ := before_now e' y' here'
    exact numbered.distinct e e' z z' there there' (by rw [← own, same, own'])
  · intro e y here
    obtain ⟨z, there, same, -⟩ := before_now e y here
    rw [same]
    exact (numbered.drawn e z there).mono readings push
  · intro session' msgId' seqNo' mem
    rcases mem_trace mem with old | ⟨rfl, -, -⟩
    · exact (numbered.past session' msgId' seqNo' old).mono readings push
    · exact (numbered.drawn c x exist).mono readings push
  · intro n after_now
    rw [push]
    exact numbered.stored n (Nat.le_trans readings after_now)

/-- The next session id has not been used. -/
theorem new_of_numbered (fresh : Function.Injective env.newSessionId) (numbered : s.Numbered env)
    {n : Nat}
    (unread : s.readings ≤ n) : ¬ s.Drawn env (env.newSessionId n) := by
  rintro (own | ⟨m, before_now, own⟩)
  · exact numbered.stored n unread own
  · exact absurd (fresh own) (by omega)

/-- A connection has a new session. -/
theorem numbered_renew (fresh : Function.Injective env.newSessionId) {c : ConnectionId}
    (numbered : s.Numbered env)
    (connections : ∀ e y, t.connections e = some y →
      (e = c ∧ y.sessionId = env.newSessionId s.readings ∧ y.nextSeqNo = 0) ∨
        (e ≠ c ∧ s.connections e = some y))
    (trace : t.trace = s.trace) (last : t.lastOutgoingMessageId = s.lastOutgoingMessageId)
    (readings : t.readings = s.readings + 1) (push : t.pushSessionId = s.pushSessionId) :
    t.Numbered env := by
  have new := new_of_numbered fresh numbered (Nat.le_refl _)
  have unused : ∀ msgId seqNo, .assigned (env.newSessionId s.readings) msgId seqNo ∉ s.trace :=
    fun msgId seqNo mem => new (numbered.past _ _ _ mem)
  have kept : ∀ {session : Int}, s.Drawn env session → t.Drawn env session := fun drawn =>
    drawn.mono (by omega) push
  refine ⟨⟨?_, ?_, ?_⟩, ?_, ?_, ?_, ?_, ?_, ?_⟩
  · rw [trace]
    exact numbered.follows
  · rw [trace]
    exact numbered.aligned
  · intro e y msgId seqNo here mem
    rw [trace] at mem
    rw [last]
    rcases connections e y here with ⟨-, own, -⟩ | ⟨-, there⟩
    · exact absurd (own ▸ mem) (unused msgId seqNo)
    · exact numbered.below e y msgId seqNo there mem
  · intro e y msgId seqNo here mem
    rw [trace] at mem
    rcases connections e y here with ⟨-, own, -⟩ | ⟨-, there⟩
    · exact absurd (own ▸ mem) (unused msgId seqNo)
    · exact numbered.numbers e y msgId seqNo there mem
  · intro e y here
    rw [trace]
    rcases connections e y here with ⟨-, -, zero⟩ | ⟨-, there⟩
    · exact zero ▸ Nat.zero_le _
    · exact numbered.short e y there
  · intro e e' y y' here here' same
    rcases connections e y here with ⟨rfl, own, -⟩ | ⟨other, there⟩
    · rcases connections e' y' here' with ⟨rfl, -, -⟩ | ⟨-, there'⟩
      · rfl
      · exact absurd (numbered.drawn e' y' there') (by rw [← same, own]; exact new)
    · rcases connections e' y' here' with ⟨rfl, own', -⟩ | ⟨-, there'⟩
      · exact absurd (numbered.drawn e y there) (by rw [same, own']; exact new)
      · exact numbered.distinct e e' y y' there there' same
  · intro e y here
    rcases connections e y here with ⟨-, own, -⟩ | ⟨-, there⟩
    · exact .inr ⟨s.readings, by omega, own⟩
    · exact kept (numbered.drawn e y there)
  · intro session msgId seqNo mem
    rw [trace] at mem
    exact kept (numbered.past session msgId seqNo mem)
  · intro n after_now
    rw [push]
    exact numbered.stored n (by omega)

/-! ## Runs of changes -/

/-- A short run has numbered its messages by the law. -/
def NumberedWhileShort (env : Env) (s : ConnectionsManager) : Prop := s.trace.length < 2 ^ 31 →
    s.Numbered env

theorem Unnumbered.whileShort (same : Unnumbered s t) (numbered : NumberedWhileShort env s) :
    NumberedWhileShort env t := by
  intro few
  obtain ⟨events, trace, -⟩ := same.trace
  rw [trace, List.length_append] at few
  exact same.numbered (numbered (by omega))

theorem unnumbered_modifyDatacenter (s : ConnectionsManager) (d : Nat)
    (f : Datacenter → Datacenter) :
    Unnumbered s (s.modifyDatacenter d f) := by
  unfold ConnectionsManager.modifyDatacenter
  split <;> exact .of_same rfl rfl (Int.le_refl _) (Nat.le_refl _) rfl

theorem Calm.numbered (fresh : Function.Injective env.newSessionId) (calm : Calm env s t)
    (numbered : NumberedWhileShort env s) : NumberedWhileShort env t := by
  cases calm with
  | other same =>
      refine Unnumbered.whileShort
        (.of_same same.connections same.trace ?_ same.readings same.pushSessionId) numbered
      exact Int.le_of_eq same.lastOutgoingMessageId.symm
  | create c new =>
      intro few
      refine numbered_renew fresh (numbered few) (c := c) (fun e y here => ?_) rfl rfl rfl rfl
      change Function.update s.connections c _ e = some y at here
      by_cases own : e = c
      · rw [own, Function.update_self] at here
        rw [← Option.some.inj here]
        exact .inl ⟨own, rfl, rfl⟩
      · rw [Function.update_of_ne own] at here
        exact .inr ⟨own, here⟩
  | opening c f closed stays same =>
      exact (Unnumbered.modifyConnection s c same).whileShort numbered
  | session c f same =>
      exact (Unnumbered.modifyConnection s c fun x => (same x).2).whileShort numbered
  | newId msgId later =>
      exact Unnumbered.whileShort (s := s)
        (.of_same rfl rfl (Int.le_of_lt later) (Nat.le_succ _) rfl) numbered
  | message c x msgId exist later aligned =>
      intro few
      have short : s.trace.length < 2 ^ 31 := by
        rw [List.length_append] at few
        omega
      refine numbered_assign false (numbered short) few exist later aligned ?_ ?_
        rfl (Nat.le_succ _) rfl
      · rw [Connection.numbered, if_neg (by decide), ← exist, Function.update_eq_self]
      · rw [Connection.seqNo, if_neg (by decide)]
        rfl
  | send c msgIds =>
      exact Unnumbered.whileShort (s := s) (.of_event rfl rfl rfl rfl rfl fun _ _ _ h => by cases h)
        numbered
  | batch b d messages plain =>
      cases b <;> exact
        Unnumbered.whileShort (s := s) (.of_same rfl rfl (Int.le_refl _) (Nat.le_refl _) rfl)
          numbered
  | _ =>
      exact Unnumbered.whileShort (s := s) (.of_same rfl rfl (Int.le_refl _) (Nat.le_refl _) rfl)
        numbered

theorem Act.numbered (fresh : Function.Injective env.newSessionId) (act : Act env s t)
    (numbered : NumberedWhileShort env s) : NumberedWhileShort env t := by
  cases act with
  | edit p edit =>
      cases edit with
      | calm calm => exact calm.numbered fresh numbered
      | request f settled =>
          exact Unnumbered.whileShort (s := s)
            (.of_same rfl rfl (Int.le_refl _) (Nat.le_refl _) rfl) numbered
  | close c f closed same => exact (Unnumbered.modifyConnection s c same).whileShort numbered
  | recreate c f new same =>
      intro few
      refine numbered_renew fresh (numbered few) (c := c) (fun e y here => ?_) rfl rfl rfl rfl
      change Function.update s.connections c _ e = some y at here
      by_cases own : e = c
      · rw [own, Function.update_self] at here
        obtain ⟨x, -, rfl⟩ := Option.map_eq_some_iff.1 here
        exact .inl ⟨own, new x⟩
      · rw [Function.update_of_ne own] at here
        exact .inr ⟨own, here⟩
  | datacenter d f same => exact (unnumbered_modifyDatacenter s d f).whileShort numbered
  | _ =>
      exact Unnumbered.whileShort (s := s) (.of_same rfl rfl (Int.le_refl _) (Nat.le_refl _) rfl)
        numbered

theorem Acts.numbered (fresh : Function.Injective env.newSessionId) (acts : Acts env s t)
    (numbered : NumberedWhileShort env s) : NumberedWhileShort env t := by
  induction acts with
  | refl => exact numbered
  | tail _ act ih => exact act.numbered fresh ih

theorem Turn.numbered {K : Kind → Prop} (fresh : Function.Injective env.newSessionId)
    (anew : ¬ K .startOver)
    (push : ¬ K .pushSession) (turn : Turn env K s t) (numbered : NumberedWhileShort env s) :
    NumberedWhileShort env t := by
  cases turn with
  | act act => exact act.numbered fresh numbered
  | rest same =>
      refine Unnumbered.whileShort
        (.of_same same.connections same.trace ?_ same.readings same.pushSessionId) numbered
      exact Int.le_of_eq same.lastOutgoingMessageId.symm
  | cancelQueued p queued =>
      exact Unnumbered.whileShort (s := s) (.of_event rfl rfl rfl rfl rfl fun _ _ _ h => by cases h)
        numbered
  | cancelRunning p running =>
      exact Unnumbered.whileShort (s := s) (.of_event rfl rfl rfl rfl rfl fun _ _ _ h => by cases h)
        numbered
  | number c x increment msgId n exist later aligned read =>
      intro few
      have short : s.trace.length < 2 ^ 31 := by
        rw [List.length_append] at few
        omega
      exact numbered_assign increment (numbered short) few exist later aligned rfl rfl rfl read rfl
  | startOver msgId allowed => exact absurd allowed anew
  | pushSession d allowed => exact absurd allowed push
  | token c x exist connecting =>
      refine Unnumbered.whileShort (s := s) ⟨fun e y here => ?_, ⟨_, rfl, ?_⟩, Int.le_refl _,
        Nat.le_refl _, rfl⟩
        numbered
      · change Function.update s.connections c _ e = some y at here
        by_cases own : e = c
        · rw [own, Function.update_self] at here
          rw [← Option.some.inj here]
          exact ⟨x, own ▸ exist, rfl, rfl⟩
        · rw [Function.update_of_ne own] at here
          exact ⟨y, here, rfl, rfl⟩
      · intro session msgId seqNo mem
        cases List.mem_singleton.1 mem
  | @migrate t id acts known =>
      have begun : Unnumbered s { s with movingToDatacenterId := id } :=
        .of_same rfl rfl (Int.le_refl _) (Nat.le_refl _) rfl
      have moved := Acts.numbered fresh acts (begun.whileShort numbered)
      exact Unnumbered.whileShort (s := t) (.of_same rfl rfl (Int.le_refl _) (Nat.le_refl _) rfl)
        moved
  | configure d f => exact (unnumbered_modifyDatacenter s d f).whileShort numbered
  | _ =>
      exact Unnumbered.whileShort (s := s) (.of_same rfl rfl (Int.le_refl _) (Nat.le_refl _) rfl)
        numbered

theorem Turns.numbered {K : Kind → Prop} (fresh : Function.Injective env.newSessionId)
    (anew : ¬ K .startOver)
    (push : ¬ K .pushSession) (turns : Turns env K s t) (numbered : NumberedWhileShort env s) :
    NumberedWhileShort env t := by
  induction turns with
  | refl => exact numbered
  | tail _ turn ih => exact turn.numbered fresh anew push ih

theorem Changes.numbered {K : Kind → Prop} (fresh : Function.Injective env.newSessionId)
    (anew : ¬ K .startOver)
    (push : ¬ K .pushSession) (changes : Changes env K s t) (numbered : NumberedWhileShort env s) :
    NumberedWhileShort env t := by
  induction changes with
  | refl => exact numbered
  | @tail u v _ change ih =>
      have called : ∀ {p : Nat} {w : ConnectionsManager},
          Turns env (Calling K) (u.record (.onComplete p)) w →
          NumberedWhileShort env w := by
        intro p w turns
        refine Turns.numbered fresh (fun calling => anew calling.1) (fun calling =>
          push calling.1) turns ?_
        exact Unnumbered.whileShort (s := u)
          (.of_event rfl rfl rfl rfl rfl fun _ _ _ h => by cases h) ih
      cases change with
      | turn turn => exact turn.numbered fresh anew push ih
      | @complete w p running turns =>
          have after_call := called turns
          exact Unnumbered.whileShort (s := w)
            (.of_same rfl rfl (Int.le_refl _) (Nat.le_refl _) rfl) after_call
      | keep p allowed running turns => exact called turns

/-! ## Setting the counter back -/

/-- The counter may be set to any value that is not below an id of a session in use. -/
theorem numbered_startOver {msgId : Int} (numbered : s.Numbered env)
    (above : ∀ c x id seqNo, s.connections c = some x → .assigned x.sessionId id seqNo ∈ s.trace →
      id ≤ msgId) :
    ({ s with lastOutgoingMessageId := msgId } : ConnectionsManager).Numbered env :=
  { numbered with
    below := above, drawn := numbered.drawn, past := numbered.past, stored := numbered.stored }

/-- The sessions of these connections have not been used, and nothing else has changed. -/
structure Renewed (d : Nat) (slots : List Slot) (s t : ConnectionsManager) : Prop where
  trace : t.trace = s.trace
  others : ∀ c, c.datacenter ≠ d ∨ c.slot ∉ slots → t.connections c = s.connections c
  unused : ∀ c x msgId seqNo, c.datacenter = d → c.slot ∈ slots → t.connections c = some x →
    .assigned x.sessionId msgId seqNo ∉ t.trace

theorem recreateSession_run {c : ConnectionId} {u : Unit}
    (run : recreateSession env c s = some (u, t)) :
    t.trace = s.trace ∧ (∀ e, e ≠ c → t.connections e = s.connections e) ∧
      ∀ x, t.connections c = some x → x.sessionId = env.newSessionId s.readings := by
  rw [recreateSession, reading_bind] at run
  rw [update_run run]
  refine ⟨rfl, fun e other => Function.update_of_ne other _ _, fun x here => ?_⟩
  change Function.update s.connections c _ c = some x at here
  rw [Function.update_self] at here
  obtain ⟨y, -, rfl⟩ := Option.map_eq_some_iff.1 here
  rfl

theorem trace_recreateSessions {d : Nat} {type : HandshakeType} {u : Unit}
    (run : recreateSessions env d type s = some (u, t)) : t.trace = s.trace := by
  have same : Keeps (Preserving fun t : ConnectionsManager =>
      t.trace = s.trace) (recreateSessions env d type) := by
    refine keeps_each fun slot _ => keeps_bind keeps_read fun _ => keeps_when fun _ => ?_
    refine keeps_bind ?_ fun n => keeps_update fun _ => id
    exact keeps_bind keeps_read fun _ => keeps_bind (keeps_update fun _ => id) fun _ => keeps_pure _
  exact same _ _ _ run rfl

theorem renewed_each (fresh : Function.Injective env.newSessionId) {d : Nat} {slots : List Slot}
    {u : Unit}
    (numbered : NumberedWhileShort env s) (few : s.trace.length < 2 ^ 31)
    (run : each (fun slot => do
      let s ← read
      when (s.connections ⟨d, slot⟩ ≠ none) (recreateSession env ⟨d, slot⟩)) slots s =
        some (u, t)) :
    Renewed d slots s t := by
  induction slots generalizing s with
  | nil =>
      rw [(pure_run run).2]
      exact ⟨rfl, fun _ _ => rfl, fun c x msgId seqNo _ mem => by cases mem⟩
  | cons slot slots ih =>
      obtain ⟨_, v, first, rest⟩ := bind_run run
      dsimp only at first
      rw [read_bind] at first
      have renewed : NumberedWhileShort env v ∧ Renewed d [slot] s v := by
        rcases when_run first with ⟨-, first⟩ | ⟨missing, rfl⟩
        · obtain ⟨trace, others, own⟩ := recreateSession_run first
          refine ⟨Turns.numbered (K := fun _ => False) fresh id id
            (turns_lift (acts_recreateSession _ _ _ _ first)) numbered, trace, fun c elsewhere =>
              others c ?_, ?_⟩
          · rintro rfl
            rcases elsewhere with other | other
            · exact other rfl
            · exact other (List.mem_singleton.2 rfl)
          · rintro ⟨d', slot'⟩ x msgId seqNo rfl mem here
            obtain rfl := List.mem_singleton.1 mem
            rw [trace, own x here]
            exact fun used =>
              new_of_numbered fresh (numbered few) (Nat.le_refl _) ((numbered few).past _ _ _ used)
        · refine ⟨numbered, rfl, fun _ _ => rfl, ?_⟩
          rintro ⟨d', slot'⟩ x msgId seqNo rfl mem here
          obtain rfl := List.mem_singleton.1 mem
          exact absurd (Option.ne_none_iff_exists'.2 ⟨x, here⟩) missing
      have behind := ih renewed.1 (by rw [renewed.2.trace]; exact few) rest
      refine ⟨behind.trace.trans renewed.2.trace, fun c elsewhere => ?_,
        fun c x msgId seqNo own mem here => ?_⟩
      · rw [behind.others c (elsewhere.imp_right fun other mem =>
          other (List.mem_cons_of_mem _ mem)),
          renewed.2.others c (elsewhere.imp_right fun other mem =>
            other (by simp [List.mem_singleton.1 mem]))]
      · by_cases later : c.slot ∈ slots
        · exact behind.unused c x msgId seqNo own later here
        · -- no later slot is this one again
          have first : c.slot ∈ [slot] := by simpa [later] using mem
          rw [behind.others c (.inr later)] at here
          rw [behind.trace]
          exact renewed.2.unused c x msgId seqNo own first here

/-- What the notification about a session has as its condition: every other session goes on with ids
that are not positive. -/
def OnlySessions (d : Nat) (s : ConnectionsManager) : Prop :=
  ∀ c x msgId seqNo, s.connections c = some x → c.datacenter ≠ d ∨ c.slot ∉ recreatedSlots .all →
    .assigned x.sessionId msgId seqNo ∈ s.trace → msgId ≤ 0

theorem onBadMsgNotification_numbered (fresh : Function.Injective env.newSessionId)
    {messageId innerMsgId containerMessageId badMsgId errorCode : Int} {c : ConnectionId} {u : Unit}
    (code : errorCode ∈ [16, 17, 19, 32, 33, 64]) (only : OnlySessions c.datacenter s)
    (numbered : NumberedWhileShort env s)
    (run : onBadMsgNotification env c messageId innerMsgId containerMessageId badMsgId errorCode s =
      some (u, t)) :
    NumberedWhileShort env t := by
  rw [onBadMsgNotification, if_pos code] at run
  obtain ⟨_, v, corrected, run⟩ := bind_run run
  obtain ⟨_, w, recreated, run⟩ := bind_run run
  obtain ⟨_, x, saved, run⟩ := bind_run run
  rw [update_bind] at run
  have first : Unnumbered s v :=
    keeps_when (R := Unnumbered) (fun _ => unnumbered_correctTime _) _ _ _ corrected
  have third : Unnumbered w x := unnumbered_saveConfig _ _ _ saved
  have plain : ∀ {s t : ConnectionsManager}, Acts env s t → NumberedWhileShort env s →
      NumberedWhileShort env t :=
    fun acts => Turns.numbered (K := fun _ => False) fresh id id (turns_lift acts)
  have cleared : Acts env { x with lastOutgoingMessageId := 0 } t :=
    acts_clearRequestsForDatacenter _ _ _ _ _ run
  refine plain cleared fun few => ?_
  have after_saving : NumberedWhileShort env x :=
    third.whileShort (plain (acts_recreateSessions _ _ _ _ _ recreated) (first.whileShort numbered))
  refine numbered_startOver (after_saving few) fun e y msgId seqNo here mem => ?_
  obtain ⟨z, there, session, -⟩ := third.connections e y here
  have used := third.mem_trace mem
  rw [session] at used
  have short : v.trace.length < 2 ^ 31 := by
    obtain ⟨events, trace, -⟩ := third.trace
    change x.trace.length < 2 ^ 31 at few
    rw [trace, List.length_append, trace_recreateSessions recreated] at few
    omega
  have renewed : Renewed c.datacenter (recreatedSlots .all) v w :=
    renewed_each fresh (first.whileShort numbered) short recreated
  by_cases own : e.datacenter = c.datacenter ∧ e.slot ∈ recreatedSlots .all
  · exact absurd used (renewed.unused e z msgId seqNo own.1 own.2 there)
  · have elsewhere : e.datacenter ≠ c.datacenter ∨ e.slot ∉ recreatedSlots .all := not_and_or.1 own
    rw [renewed.others e elsewhere] at there
    rw [renewed.trace] at used
    obtain ⟨z', exist, session', -⟩ := first.connections e z there
    exact only e z' msgId seqNo exist elsewhere (session' ▸ first.mem_trace used)

theorem onBadServerSalt_numbered (fresh : Function.Injective env.newSessionId)
    {messageId badMsgId : Int}
    {c : ConnectionId} {u : Unit}
    (above : messageId ≠ 0 → ∀ e x id seqNo, s.connections e = some x →
      .assigned x.sessionId id seqNo ∈ s.trace →
      id ≤ saltedLastId messageId s.lastOutgoingMessageId)
    (numbered : NumberedWhileShort env s)
    (run : onBadServerSalt env c messageId badMsgId s = some (u, t)) :
    NumberedWhileShort env t := by
  obtain ⟨_, v, salted, run⟩ := bind_run run
  have first : NumberedWhileShort env v := by
    rcases when_run salted with ⟨sent, salted⟩ | ⟨-, rfl⟩
    · obtain ⟨_, w, corrected, salted⟩ := bind_run salted
      have same : Unnumbered s w := unnumbered_correctTime _ _ _ _ corrected
      have last : w.lastOutgoingMessageId = s.lastOutgoingMessageId := by
        rw [correctTime, reading_bind] at corrected
        rw [update_run corrected]
      rw [update_run salted]
      intro few
      refine numbered_startOver (same.whileShort numbered few) fun e y id seqNo here mem => ?_
      obtain ⟨z, there, session, -⟩ := same.connections e y here
      rw [last]
      exact above sent e z id seqNo there (session ▸ same.mem_trace mem)
    · exact numbered
  refine Turns.numbered (K := fun _ => False) fresh id id ?_ first
  refine keeps_bind (R := Turns env _) (keeps_when fun _ => turns_of_acts (acts_failBySalt _))
    (fun _ => ?_) _ _ _ run
  refine keeps_bind (turns_of_calm keeps_saveConfig) fun _ => ?_
  refine keeps_bind (turns_of_calm (keeps_requestSaltsForDatacenter _)) fun _ => ?_
  exact keeps_bind (keeps_hasAuthKey _) fun key => keeps_when fun _ =>
    turns_of_calm (keeps_callQueue _)

/-! ## The push connection -/

/-- The stored session is free for the push connection of the current datacenter: no other
connection has it, and it was not used unless that connection has it already. -/
def PushSessionFree (s : ConnectionsManager) : Prop :=
  (∀ c x, s.connections c = some x → x.sessionId = s.pushSessionId →
    c = ⟨s.currentDatacenterId, .push⟩) ∧
    ((∃ x, s.connections ⟨s.currentDatacenterId, .push⟩ = some x ∧ x.sessionId = s.pushSessionId) ∨
      ∀ msgId seqNo, .assigned s.pushSessionId msgId seqNo ∉ s.trace)

theorem numbered_pushSession {c : ConnectionId} (numbered : s.Numbered env)
    (alone : ∀ e x, s.connections e = some x → x.sessionId = s.pushSessionId → e = c)
    (unused : (∃ x, s.connections c = some x ∧ x.sessionId = s.pushSessionId) ∨
      ∀ msgId seqNo, .assigned s.pushSessionId msgId seqNo ∉ s.trace) :
    (s.modifyConnection c fun session => { session with sessionId := s.pushSessionId }).Numbered
      env := by
  have looked : ∀ e y,
      (s.modifyConnection c fun session =>
        { session with sessionId := s.pushSessionId }).connections e = some y →
        (e = c ∧ ∃ x, s.connections c = some x ∧ y = { x with sessionId := s.pushSessionId }) ∨
          (e ≠ c ∧ s.connections e = some y) := by
    intro e y here
    change Function.update s.connections c _ e = some y at here
    by_cases own : e = c
    · rw [own, Function.update_self] at here
      obtain ⟨x, exist, rfl⟩ := Option.map_eq_some_iff.1 here
      exact .inl ⟨own, x, exist, rfl⟩
    · rw [Function.update_of_ne own] at here
      exact .inr ⟨own, here⟩
  -- a message of the stored session is one of this connection
  have behind : ∀ {x : Connection} {msgId : Int} {seqNo : Nat}, s.connections c = some x →
      .assigned s.pushSessionId msgId seqNo ∈ s.trace →
        .assigned x.sessionId msgId seqNo ∈ s.trace := by
    intro x msgId seqNo exist mem
    rcases unused with ⟨z, there, own⟩ | unused
    · rw [exist] at there
      rw [Option.some.inj there, own]
      exact mem
    · exact absurd mem (unused msgId seqNo)
  refine ⟨⟨numbered.follows, numbered.aligned, ?_⟩, ?_, ?_, ?_, ?_, numbered.past, numbered.stored⟩
  · intro e y msgId seqNo here mem
    rcases looked e y here with ⟨-, x, exist, rfl⟩ | ⟨-, there⟩
    · exact numbered.below c x msgId seqNo exist (behind exist mem)
    · exact numbered.below e y msgId seqNo there mem
  · intro e y msgId seqNo here mem
    rcases looked e y here with ⟨-, x, exist, rfl⟩ | ⟨-, there⟩
    · exact numbered.numbers c x msgId seqNo exist (behind exist mem)
    · exact numbered.numbers e y msgId seqNo there mem
  · intro e y here
    rcases looked e y here with ⟨-, x, exist, rfl⟩ | ⟨-, there⟩
    · exact numbered.short c x exist
    · exact numbered.short e y there
  · intro e e' y y' here here' same
    rcases looked e y here with ⟨rfl, x, -, rfl⟩ | ⟨-, there⟩
    · rcases looked e' y' here' with ⟨rfl, -⟩ | ⟨-, there'⟩
      · rfl
      · exact (alone e' y' there' same.symm).symm
    · rcases looked e' y' here' with ⟨rfl, x', -, rfl⟩ | ⟨-, there'⟩
      · exact alone e y there same
      · exact numbered.distinct e e' y y' there there' same
  · intro e y here
    rcases looked e y here with ⟨-, x, -, rfl⟩ | ⟨-, there⟩
    · exact .inl rfl
    · exact numbered.drawn e y there

theorem getDatacenterWithId_places {id d : Nat}
    (run : getDatacenterWithId id s = some (some d, t)) :
    t.connections = s.connections ∧ t.trace = s.trace ∧ t.pushSessionId = s.pushSessionId ∧
      (id = s.currentDatacenterId → d = s.currentDatacenterId) := by
  rw [getDatacenterWithId, read_bind] at run
  split at run
  · cases entry : s.datacenters.find s.currentDatacenterId with
    | none =>
        rw [entry] at run
        change (update _ >>= fun _ => pure none) s = some (some d, t) at run
        rw [update_bind] at run
        cases (pure_run run).1
    | some dc =>
        rw [entry] at run
        cases dc with
        | none => cases (pure_run run).1
        | some dc =>
            obtain ⟨own, rfl⟩ := pure_run run
            exact ⟨rfl, rfl, rfl, fun _ => Option.some.inj own⟩
  · obtain ⟨own, rfl⟩ := pure_run run
    split at own
    · exact ⟨rfl, rfl, rfl, fun current => (Option.some.inj own).trans current⟩
    · cases own

theorem openPushConnection_numbered (fresh : Function.Injective env.newSessionId) {u : Unit}
    (free : PushSessionFree s) (numbered : NumberedWhileShort env s)
    (run : openPushConnection env s = some (u, t)) : NumberedWhileShort env t := by
  have plain : ∀ {s t : ConnectionsManager}, Calms env s t → NumberedWhileShort env s →
      NumberedWhileShort env t :=
    fun calm => Turns.numbered (K := fun _ => False) fresh id id (turns_lift calm.acts)
  rw [openPushConnection, read_bind] at run
  obtain ⟨found, v, looked, run⟩ := bind_run run
  have first : NumberedWhileShort env v := plain (keeps_getDatacenterWithId _ _ _ _ looked) numbered
  cases found with
  | none =>
      rw [(pure_run run).2]
      exact first
  | some d =>
      obtain ⟨connections, trace, push, current⟩ := getDatacenterWithId_places looked
      obtain rfl := current rfl
      obtain ⟨_, w, created, run⟩ := bind_run run
      have second : NumberedWhileShort env w := plain (keeps_createConnection _ _ _ _ created) first
      obtain ⟨_, x, taken, run⟩ := bind_run run
      refine plain (keeps_sendPing _ true _ _ _ run) ?_
      obtain ⟨alone, unused⟩ := free
      have made : w.trace = s.trace ∧ w.pushSessionId = s.pushSessionId ∧
          (∀ e, e ≠ ⟨s.currentDatacenterId, .push⟩ → w.connections e = s.connections e) ∧
            ∀ y, s.connections ⟨s.currentDatacenterId, .push⟩ = some y →
              w.connections ⟨s.currentDatacenterId, .push⟩ = some y := by
        rw [createConnection, read_bind] at created
        rcases when_run created with ⟨missing, created⟩ | ⟨-, rfl⟩
        · rw [reading_bind] at created
          rw [update_run created]
          refine ⟨trace, push, fun e other => ?_, fun y exist => ?_⟩
          · change Function.update v.connections _ _ e = _
            rw [Function.update_of_ne other, connections]
          · rw [connections, exist] at missing
            cases missing
        · exact ⟨trace, push, fun e _ => by rw [connections],
            fun y exist => by rw [connections, exist]⟩
      obtain ⟨same_trace, same_push, others, old⟩ := made
      rw [update_run taken, ← same_push]
      intro few
      refine numbered_pushSession (second few) (fun e y here own => ?_) ?_
      · by_contra other
        rw [others e other] at here
        exact other (alone e y here (own.trans same_push))
      · rw [same_push, same_trace]
        rcases unused with ⟨y, exist, own⟩ | unused
        · exact .inl ⟨y, old y exist, own⟩
        · exact .inr unused

/-! ## Steps -/

/-- The input neither sets the counter back under a session in use nor gives the push connection a
session that goes on elsewhere. -/
def KeepsNumbers (s : ConnectionsManager) : Input → Prop
  | .received (.badMsgNotification _ errorCode) _ c _ _ =>
      errorCode ∈ [16, 17, 19, 32, 33, 64] → OnlySessions c.datacenter s
  | .received (.badServerSalt _) messageId _ _ _ =>
      messageId ≠ 0 → ∀ e x id seqNo, s.connections e = some x →
        .assigned x.sessionId id seqNo ∈ s.trace →
        id ≤ saltedLastId messageId s.lastOutgoingMessageId
  | .setPushConnectionEnabled true => PushSessionFree s
  | .runTask => ∀ userId rest, s.pendingTasks = .setUserId userId :: rest → userId ≠ 0 →
      s.pushConnectionEnabled = true → PushSessionFree s
  | _ => True

theorem step_numbered (fresh : Function.Injective env.newSessionId) {input : Input} {u : Unit}
    (kept : KeepsNumbers s input) (numbered : NumberedWhileShort env s)
    (run : step env input s = some (u, t)) :
    NumberedWhileShort env t := by
  have changes := step_changes run
  rw [step, read_bind] at run
  split at run
  · cases run
  by_cases anew : Triggers env input s .startOver
  · obtain ⟨m, messageId, c, innerMsgId, containerMessageId, rfl, anew⟩ := anew
    cases m with
    | badMsgNotification badMsgId errorCode =>
        have code := of_decide_eq_true anew
        exact onBadMsgNotification_numbered fresh code (kept code) numbered run
    | badServerSalt badMsgId => exact onBadServerSalt_numbered fresh kept numbered run
    | _ => cases anew
  by_cases push : Triggers env input s .pushSession
  · rcases push with rfl | ⟨userId, rest, rfl, planned⟩
    · rw [Input.run, setPushConnectionEnabled, update_bind] at run
      have same : Unnumbered s { s with pushConnectionEnabled := true } :=
        .of_same rfl rfl (Int.le_refl _) (Nat.le_refl _) rfl
      exact openPushConnection_numbered (s := { s with pushConnectionEnabled := true }) fresh kept
        (same.whileShort numbered) run
    · rw [Input.run, read_bind, planned] at run
      change (update _ >>= fun _ => setUserId env userId) s = some (u, t) at run
      rw [update_bind, setUserId, update_bind, read_bind] at run
      have same : Unnumbered s { s with pendingTasks := rest, currentUserId := userId } :=
        .of_same rfl rfl (Int.le_refl _) (Nat.le_refl _) rfl
      rcases when_run run with ⟨opens, run⟩ | ⟨-, rfl⟩
      · exact openPushConnection_numbered (s :=
          { s with pendingTasks := rest, currentUserId := userId }) fresh
          (kept userId rest planned opens.1 opens.2) (same.whileShort numbered) run
      · exact same.whileShort numbered
  · exact changes.numbered fresh anew push numbered

end Kept

/-! ## Runs -/

/-- No connection and no message yet. -/
def Silent (s : ConnectionsManager) : Prop := (∀ c, s.connections c = none) ∧ s.trace = []

theorem Silent.numbered {s : ConnectionsManager} (silent : Silent s)
    (stored : ∀ n, s.readings ≤ n → env.newSessionId n ≠ s.pushSessionId) : s.Numbered env := by
  obtain ⟨none, trace⟩ := silent
  have nowhere : ∀ {c : ConnectionId} {x : Connection} {P : Prop}, s.connections c = some x →
      P := by
    intro c x P here
    rw [none c] at here
    cases here
  refine ⟨⟨trace ▸ .nil, ?_, fun _ _ _ _ here => nowhere here⟩, fun _ _ _ _ here => nowhere here,
    fun _ _ here => nowhere here, fun _ _ _ _ here => nowhere here, fun _ _ here => nowhere here,
      ?_, stored⟩
  · intro session msgId seqNo mem
    rw [trace] at mem
    cases mem
  · intro session msgId seqNo mem
    rw [trace] at mem
    cases mem

/-- While the file is read nothing is sent and nothing is drawn. -/
def Starting (push : Int) (readings : Nat) (s : ConnectionsManager) : Prop :=
  Silent s ∧ s.pushSessionId = push ∧ s.readings = readings

theorem starting_update {push : Int} {readings : Nat} {f : ConnectionsManager → ConnectionsManager}
    (same : ∀ s, (f s).connections = s.connections ∧ (f s).trace = s.trace ∧
      (f s).pushSessionId = s.pushSessionId ∧ (f s).readings = s.readings) :
    Keeps (Preserving (Starting push readings)) (update f) := by
  refine keeps_update fun s starting => ?_
  obtain ⟨connections, trace, own, read⟩ := same s
  obtain ⟨⟨none, empty⟩, push, readings⟩ := starting
  exact ⟨⟨fun c => connections ▸ none c, trace.trans empty⟩, own.trans push, read.trans readings⟩

theorem starting_getDatacenterWithId {push : Int} {readings : Nat} (id : Nat) :
    Keeps (Preserving (Starting push readings)) (getDatacenterWithId id) := by
  refine keeps_bind keeps_read fun s => keeps_ite (fun _ => ?_) fun _ => keeps_pure _
  split
  · exact keeps_pure _
  · exact keeps_pure _
  · exact keeps_bind (starting_update fun _ => ⟨rfl, rfl, rfl, rfl⟩) fun _ => keeps_pure _

theorem starting_saveConfig (push : Int) (readings : Nat) :
    Keeps (Preserving (Starting push readings)) saveConfig := by
  refine keeps_bind keeps_read fun s => keeps_bind (starting_getDatacenterWithId _) fun found => ?_
  refine keeps_when fun _ => keeps_bind keeps_read fun s => keeps_each fun d _ => ?_
  exact keeps_bind (keeps_datacenter d) fun _ => keeps_pure _

/-- The stored session id is not drawn again. -/
def SavedConfig.PushSessionKept (env : Env) (config : SavedConfig) : Prop :=
  ∀ n, env.newSessionId n ≠ config.pushSessionId

theorem numbered_of_started (fresh : Function.Injective env.newSessionId)
    {config : Option SavedConfig}
    (kept : ∀ saved, config = some saved → saved.PushSessionKept env) {s : ConnectionsManager}
    (started : Started env config s) : s.Numbered env := by
  obtain ⟨userId, version, hasNetwork, enablePushConnection, run⟩ := started
  obtain ⟨_, v, stored_read, run⟩ := bind_run run
  obtain ⟨_, w, reset, run⟩ := bind_run run
  obtain ⟨_, x, initial, run⟩ := bind_run run
  have first : Starting v.pushSessionId 0 v ∧
      (v.pushSessionId ≠ 0 → ∀ n, env.newSessionId n ≠ v.pushSessionId) := by
    cases config with
    | none =>
        rw [(pure_run stored_read).2]
        exact ⟨⟨⟨fun _ => rfl, rfl⟩, rfl, rfl⟩, fun other => absurd rfl other⟩
    | some saved =>
        rw [readConfig] at stored_read
        rw [update_run stored_read]
        exact ⟨⟨⟨fun _ => rfl, rfl⟩, rfl, rfl⟩, fun _ => kept saved rfl⟩
  have second : Starting v.pushSessionId 0 w := by
    refine keeps_bind (R := Preserving (Starting v.pushSessionId 0)) keeps_read (fun s =>
      ?_) _ _ _ reset first.1
    refine keeps_when fun _ => keeps_bind (starting_getDatacenterWithId _) fun found => ?_
    exact keeps_bind keeps_read fun s => keeps_when fun _ => starting_update fun _ =>
      ⟨rfl, rfl, rfl, rfl⟩
  have third : Starting v.pushSessionId 0 x := by
    refine starting_update (fun s => ?_) _ _ _ initial second
    split <;> exact ⟨rfl, rfl, rfl, rfl⟩
  obtain ⟨⟨none, empty⟩, push, readings⟩ := third
  rw [reading_bind, read_bind] at run
  rcases when_run run with ⟨-, run⟩ | ⟨complete, rfl⟩
  · rw [update_bind] at run
    obtain ⟨silent, own, read⟩ :=
      starting_saveConfig _ 1 _ _ _ run ⟨⟨none, empty⟩, rfl, congrArg (· + 1) readings⟩
    refine silent.numbered fun n after_now same => ?_
    rw [own] at same
    change env.newSessionId n =
      (if x.pushSessionId = 0 then env.newSessionId x.readings else x.pushSessionId) at same
    split at same
    · exact absurd (fresh same) (by omega)
    · next other =>
        rw [push] at other same
        exact first.2 other n same
  · refine Silent.numbered ⟨none, empty⟩ fun n _ same => ?_
    have other : v.pushSessionId ≠ 0 := fun zero => complete (.inr (push.trans zero))
    exact first.2 other n (same.trans push)

/-- In a run that keeps the numbers, with fewer than 2^31 events, ids and numbers of a session only
grow. -/
theorem monotone_of_reaches (fresh : Function.Injective env.newSessionId)
    {config : Option SavedConfig}
    (kept : ∀ saved, config = some saved → saved.PushSessionKept env) {s : ConnectionsManager}
    (reached : Reaches (step env) (Started env config) KeepsNumbers s)
    (few : s.trace.length < 2 ^ 31) :
    s.Monotone := by
  have numbered : NumberedWhileShort env s :=
    reached.invariant (fun _ started =>
      (fun _ => numbered_of_started fresh kept started : NumberedWhileShort env _))
      fun _ _ _ numbered allowed run => step_numbered fresh allowed numbered run
  exact (numbered few).toMonotone

/-- A clock that stands still. -/
def stoppedClock : Env where
  currentTimeMillis _ := 0
  currentTimeMonotonicMillis _ := 0
  messageIdAt _ _ := 0
  messageTime _ := 0
  newSessionId n := n
  randomByte _ := 0
  opens _ := true
  objectSize _ := 4

/-- The file of a client with a key for its datacenter. -/
def storedSession : SavedConfig where
  currentDatacenterId := 2
  timeDifference := 0
  pushSessionId := -1
  sessionsToDestroy := []
  datacenters := [(2, { authKeyPerm := true })]

/-- Two pings, with a new server salt between them. -/
def saltBetweenPings : List Input :=
  [.sendPing 2 false, .connected ⟨2, .generic⟩, .runQueueCall,
    .received (.badServerSalt 0) 5 ⟨2, .generic⟩ 0 0, .runQueueCall, .sendPing 2 false]

/-- Both get the same message id. -/
theorem not_monotone_after_salt :
    ¬ ∀ s, Reaches (step stoppedClock) (Started stoppedClock (some storedSession)) (fun _ _ =>
      True) s →
      s.Monotone := by
  intro always
  have numbers : (afterInputs stoppedClock (some storedSession) saltBetweenPings).map (fun after =>
      after.2.trace.filterMap (·.assignment)) = some [(1, 4, 0), (1, 4, 0)] := by
    decide +kernel
  obtain ⟨⟨⟨⟩, s⟩, run, numbers⟩ := Option.map_eq_some_iff.1 numbers
  have increasing := (always s (reaches_afterInputs (fun _ _ _ => trivial) run)).increasing
  rw [numbers] at increasing
  exact absurd increasing (by decide)

/-- Without the salt they do not. -/
theorem monotone_two_pings :
    ∃ s, afterInputs stoppedClock (some storedSession)
        [.sendPing 2 false, .connected ⟨2, .generic⟩, .runQueueCall, .sendPing 2 false] =
          some ((), s) ∧
      s.trace.filterMap (·.assignment) = [(1, 4, 0), (1, 8, 0)] ∧ s.Monotone := by
  have numbers : (afterInputs stoppedClock (some storedSession)
      [.sendPing 2 false, .connected ⟨2, .generic⟩, .runQueueCall, .sendPing 2 false]).map
        (fun after =>
          (after.2.trace.filterMap (·.assignment), after.2.trace.length)) =
            some ([(1, 4, 0), (1, 8, 0)], 5) := by
    decide +kernel
  obtain ⟨⟨⟨⟩, s⟩, run, facts⟩ := Option.map_eq_some_iff.1 numbers
  injection facts with numbers length
  have reached :
      Reaches (step stoppedClock) (Started stoppedClock (some storedSession)) KeepsNumbers s := by
    refine reaches_afterInputs (fun i mem s => ?_) run
    simp only [List.mem_cons, List.not_mem_nil, or_false] at mem
    rcases mem with rfl | rfl | rfl | rfl <;> trivial
  refine ⟨s, run, numbers,
    monotone_of_reaches (fun n m same => Int.ofNat.inj same) (fun saved own n => ?_) reached ?_⟩
  · rw [← Option.some.inj own]
    exact fun same => absurd same (by simp [stoppedClock, storedSession])
  · change s.trace.length = 5 at length
    omega

end Mtproto.Manager
