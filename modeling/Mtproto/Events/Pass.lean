import Mtproto.Events.Timer

/-!
# One pass over the events

A pass of `callEvents` calls the timers that are due, in the order of their times, and leaves the
others alone.  It is shown for callbacks that touch their own timer only, as the one of `Connection`
does; so the iterator stays valid.
-/

namespace Mtproto.Events

open Lib

variable {τ : Type} [DecidableEq τ] {s t : Loop τ} {timer : τ} {now : ℤ}

/-- The list is in order, each started timer is in it once at most, and no timer repeats. -/
structure Queued (s : Loop τ) : Prop where
  timely : Timely s.time s.events
  nodup : s.events.Nodup
  started : ∀ timer ∈ s.events, (s.timers timer).started = true
  oneShot : ∀ timer, (s.timers timer).repeatable = false

/-- The act is about this timer, or about none. -/
def Act.Of (timer : τ) : Act τ → Prop
  | .wait _ => True
  | .start other | .stop other | .setTimeout other _ _ => other = timer

/-- Timers are set to some time, and not to repeat. -/
def Act.OneShot : Act τ → Prop
  | .setTimeout _ ms repeats => ms ≠ 0 ∧ repeats = false
  | _ => True

/-- If the timer is started, it is in the list. -/
def Listed (timer : τ) (s : Loop τ) : Prop := (s.timers timer).started = true → timer ∈ s.events

/-- Only this timer has been touched, and it is not the next one in the list. -/
structure Touched (timer : τ) (s t : Loop τ) : Prop where
  timers : ∀ other, other ≠ timer → t.timers other = s.timers other
  passed : t.passed.filter (· ≠ timer) = s.passed.filter (· ≠ timer)
  ahead : t.ahead.filter (· ≠ timer) = s.ahead.filter (· ≠ timer)
  head : t.ahead.head? = s.ahead.head?
  clock : s.clock ≤ t.clock
  called : t.called = s.called
  later : timer ∈ t.events → timer ∈ s.events ∧ t.time timer = s.time timer ∨ s.clock < t.time timer

theorem Touched.refl (timer : τ) (s : Loop τ) : Touched timer s s :=
  ⟨fun _ _ => rfl, rfl, rfl, rfl, le_rfl, rfl, fun mem => .inl ⟨mem, rfl⟩⟩

theorem Touched.trans {u : Loop τ} (first : Touched timer s t) (second : Touched timer t u) :
    Touched timer s u where
  timers other ne := (second.timers other ne).trans (first.timers other ne)
  passed := second.passed.trans first.passed
  ahead := second.ahead.trans first.ahead
  head := second.head.trans first.head
  clock := first.clock.trans second.clock
  called := second.called.trans first.called
  later mem := by
    have clock := first.clock
    rcases second.later mem with ⟨mem, same⟩ | later
    · rcases first.later mem with ⟨mem, same'⟩ | later
      · exact .inl ⟨mem, same.trans same'⟩
      · exact .inr (by rwa [same])
    · exact .inr (by omega)

/-! ## The list -/

theorem time_modify_of_ne {f : Timer → Timer} {other : τ} (ne : other ≠ timer) :
    (s.modify timer f).time other = s.time other := by
  rw [Loop.time, s.timers_modify_of_ne ne, Loop.time]

/-- A new event comes behind those of its time. -/
theorem insert_spec (s : Loop τ) (timer : τ) :
    (s.insert timer).events = Agenda.place s.time timer s.events ∧
      (s.insert timer).timers = s.timers ∧
      (s.insert timer).passed.filter (· ≠ timer) = s.passed.filter (· ≠ timer) ∧
      (s.insert timer).ahead.filter (· ≠ timer) = s.ahead.filter (· ≠ timer) ∧
      (s.insert timer).ahead.head? = s.ahead.head? ∧ (s.insert timer).clock = s.clock ∧
      (s.insert timer).called = s.called := by
  have off : decide (timer ≠ timer) = false := by simp
  unfold Loop.insert Loop.events
  split
  · rename_i before
    have before : ∀ b ∈ s.passed, s.time b ≤ s.time timer := by simpa using before
    split
    · rename_i next
      refine ⟨?_, rfl, by simp, rfl, rfl, rfl, rfl⟩
      rw [Agenda.place_append_right before, Agenda.place, next, List.nil_append, List.append_assoc,
        List.singleton_append]
      have whole := List.takeWhile_append_dropWhile (p := (s.time · ≤ s.time timer)) (l := s.ahead)
      rw [next, List.nil_append] at whole
      rw [whole]
    · rename_i next
      refine ⟨(Agenda.place_append_right before).symm, rfl, rfl, Agenda.filter_place off, ?_, rfl,
        rfl⟩
      cases ahead : s.ahead with
      | nil => simp [ahead] at next
      | cons b bs =>
          have le : s.time b ≤ s.time timer := by
            by_contra later
            rw [ahead, List.takeWhile_cons_of_neg (by simpa using later)] at next
            exact next rfl
          simp only [Agenda.place]
          rw [List.takeWhile_cons_of_pos (by simpa using le)]
          rfl
  · rename_i later
    refine ⟨(Agenda.place_append_left ?_).symm, rfl, Agenda.filter_place off, rfl, rfl, rfl, rfl⟩
    simpa using later

/-- Scheduling a timer that is not in the list. -/
theorem scheduleEvent_spec (queued : Queued s) (unlisted : timer ∉ s.events)
    (isStarted : (s.timers timer).started = true)
    {ms : ℕ} (some_time : ms ≠ 0) :
    Queued (s.scheduleEvent timer ms) ∧ Touched timer s (s.scheduleEvent timer ms) ∧
      timer ∈ (s.scheduleEvent timer ms).events ∧ (s.scheduleEvent timer ms).time timer =
        s.clock + ms := by
  generalize h : s.modify timer (fun t => { t with time := s.clock + ms }) = m
  have events : m.events = s.events := by rw [← h]; rfl
  have same : ∀ other ≠ timer, m.timers other = s.timers other := fun other ne => by
    rw [← h, s.timers_modify_of_ne ne]
  have own : m.timers timer = { s.timers timer with time := s.clock + ms } := by
    rw [← h, s.timers_modify_self]
  have times : ∀ other ∈ s.events, m.time other = s.time other := fun other mem => by
    rw [Loop.time, same other (fun eq => unlisted (eq ▸ mem)), Loop.time]
  obtain ⟨placed, timers, passed, ahead, head, clock, called⟩ := insert_spec m timer
  have result : s.scheduleEvent timer ms = m.insert timer := by rw [Loop.scheduleEvent, h]
  have time : (m.insert timer).time = m.time := by
    funext other
    rw [Loop.time, timers, Loop.time]
  have perm : (m.insert timer).events.Perm (timer :: s.events) := by
    rw [placed, events]
    exact Agenda.place_perm
  rw [result]
  refine ⟨⟨?_, ?_, fun other mem => ?_, fun other => ?_⟩,
    ⟨fun other ne => ?_, ?_, ?_, ?_, ?_, ?_, fun _ => .inr ?_⟩, ?_, ?_⟩
  · rw [time, placed, events]
    exact Agenda.timely_place (queued.timely.congr times)
  · rw [perm.nodup_iff, List.nodup_cons]
    exact ⟨unlisted, queued.nodup⟩
  · rw [timers]
    by_cases eq : other = timer
    · rw [eq, own]
      exact isStarted
    · rw [same other eq]
      refine queued.started other ((List.mem_cons.1 (perm.mem_iff.1 mem)).resolve_left eq)
  · rw [timers]
    by_cases eq : other = timer
    · rw [eq, own]
      exact queued.oneShot timer
    · rw [same other eq]
      exact queued.oneShot other
  · rw [timers, same other ne]
  · rw [passed, ← h]; rfl
  · rw [ahead, ← h]; rfl
  · rw [head, ← h]; rfl
  · rw [clock, ← h]; exact le_rfl
  · rw [called, ← h]; rfl
  · rw [time, Loop.time, own]
    show s.clock < s.clock + ms
    omega
  · exact perm.mem_iff.2 List.mem_cons_self
  · rw [time, Loop.time, own]

/-- Taking a timer out of the list that is not the next one. -/
theorem removeEvent_spec (next : s.ahead.head? ≠ some timer) :
    ∃ t, s.removeEvent timer = some t ∧ t.events = s.events.erase timer ∧ t.timers = s.timers ∧
      t.passed.filter (· ≠ timer) = s.passed.filter (· ≠ timer) ∧
      t.ahead.filter (· ≠ timer) = s.ahead.filter (· ≠ timer) ∧ t.ahead.head? = s.ahead.head? ∧
        t.clock = s.clock ∧
      t.called = s.called := by
  have erased (l : List τ) : (l.erase timer).filter (· ≠ timer) = l.filter (· ≠ timer) := by
    induction l with
    | nil => rfl
    | cons b bs ih =>
        by_cases eq : b = timer
        · rw [eq, List.erase_cons_head, List.filter_cons_of_neg (by simp)]
        · rw [List.erase_cons_tail (by simpa using eq), List.filter_cons_of_pos (by simpa using eq),
            List.filter_cons_of_pos (by simpa using eq), ih]
  unfold Loop.removeEvent Loop.events
  split
  · rename_i mem
    exact ⟨_, rfl, by rw [List.erase_append_left _ mem], rfl, erased _, rfl, rfl, rfl, rfl⟩
  · rename_i unlisted
    refine ⟨_, rfl, by rw [List.erase_append_right _ unlisted], rfl, rfl, erased _, ?_, rfl, rfl⟩
    cases ahead : s.ahead with
    | nil => rfl
    | cons b bs =>
        have ne : b ≠ timer := fun eq => next (by rw [ahead, eq]; rfl)
        simp only
        rw [List.erase_cons_tail (by simpa using ne)]
        rfl

/-! ## Acts -/

/-- What the flags of one timer leave of the order. -/
theorem Queued.modify (queued : Queued s) (timer : τ) {f : Timer → Timer}
    (time : (f (s.timers timer)).time = (s.timers timer).time)
    (repeatable : (f (s.timers timer)).repeatable = false) :
    Timely (s.modify timer f).time (s.modify timer f).events ∧
      (∀ other ∈ (s.modify timer f).events, other ≠ timer →
        ((s.modify timer f).timers other).started = true) ∧
      ∀ other, ((s.modify timer f).timers other).repeatable = false := by
  refine ⟨queued.timely.congr fun other _ => ?_, fun other mem ne => ?_, fun other => ?_⟩
  · by_cases eq : other = timer
    · rw [eq, Loop.time, s.timers_modify_self, time, Loop.time]
    · exact time_modify_of_ne eq
  · rw [s.timers_modify_of_ne ne]
    exact queued.started other mem
  · by_cases eq : other = timer
    · subst eq
      rw [s.timers_modify_self]
      exact repeatable
    · rw [s.timers_modify_of_ne eq]
      exact queued.oneShot other

theorem touched_modify {f : Timer → Timer}
    (time : (f (s.timers timer)).time = (s.timers timer).time) :
    Touched timer s (s.modify timer f) :=
  ⟨fun other ne => s.timers_modify_of_ne ne f, rfl, rfl, rfl, le_rfl, rfl, fun mem => .inl ⟨mem, by
    rw [Loop.time, s.timers_modify_self, time, Loop.time]⟩⟩

/-- Taking a timer out brings the list in order, whether it is started or not. -/
theorem queued_removeEvent (timely : Timely s.time s.events) (nodup : s.events.Nodup)
    (started : ∀ other ∈ s.events, other ≠ timer → (s.timers other).started = true)
    (oneShot : ∀ other, (s.timers other).repeatable = false) (next : s.ahead.head? ≠ some timer) :
    ∃ t, s.removeEvent timer = some t ∧ Queued t ∧ Touched timer s t ∧ timer ∉ t.events ∧
      t.timers = s.timers := by
  obtain ⟨t, removed, events, timers, passed, ahead, head, clock, called⟩ := removeEvent_spec next
  have time : t.time = s.time := by
    funext other
    rw [Loop.time, timers, Loop.time]
  have sublist : t.events.Sublist s.events := by
    rw [events]
    exact List.erase_sublist
  have unlisted : timer ∉ t.events := by
    rw [events]
    exact nodup.not_mem_erase
  refine ⟨t, removed, ⟨?_, nodup.sublist sublist, fun other mem => ?_, fun other => ?_⟩,
    ⟨fun other
      _ => by rw [timers], passed, ahead, head, clock.ge, called, fun mem => absurd mem unlisted⟩,
      unlisted,
    timers⟩
  · rw [time]
    exact List.Pairwise.sublist sublist timely
  · rw [timers]
    exact started other (sublist.subset mem) fun eq => unlisted (eq ▸ mem)
  · rw [timers]
    exact oneShot other

/-- A stopped timer is not started, and not in the list. -/
theorem Queued.stop (queued : Queued s) (next : s.ahead.head? ≠ some timer) :
    ∃ t, s.stop timer = some t ∧ Queued t ∧ Touched timer s t ∧
      (t.timers timer).started = false := by
  rw [Loop.stop]
  split
  · obtain ⟨timely, started, oneShot⟩ :=
      queued.modify timer (f := fun t => { t with started := false })
      rfl (queued.oneShot timer)
    obtain ⟨t, removed, queued', touched, -, timers⟩ :=
      queued_removeEvent timely queued.nodup started oneShot next
    refine ⟨t, removed, queued', (touched_modify rfl).trans touched, ?_⟩
    rw [timers, s.timers_modify_self]
  · rename_i idle
    exact ⟨s, rfl, queued, .refl timer s, by simpa using idle⟩

/-- An act on a timer that is not the next one keeps the list in order. -/
theorem Queued.act (queued : Queued s) (next : s.ahead.head? ≠ some timer) {act : Act τ}
    (own : act.Of timer)
    (oneShot : act.OneShot) :
    ∃ t, act.run s = some t ∧ Queued t ∧ Touched timer s t ∧ (Listed timer s → Listed timer t) := by
  cases act with
  | wait ms =>
      refine ⟨_, rfl, ⟨queued.timely, queued.nodup, queued.started, queued.oneShot⟩,
        ⟨fun _ _ => rfl, rfl, rfl, rfl, ?_, rfl, fun mem => .inl ⟨mem, rfl⟩⟩, id⟩
      show s.clock ≤ s.clock + ms
      omega
  | start other =>
      obtain rfl : other = timer := own
      refine ⟨_, rfl, ?_⟩
      rw [Loop.start]
      split
      · exact ⟨queued, .refl other s, id⟩
      · rename_i idle
        push Not at idle
        have unlisted : other ∉ s.events := fun mem => idle.1 (queued.started other mem)
        have flagged : Queued (s.modify other fun t => { t with started := true }) := by
          obtain ⟨timely, started, oneShot⟩ :=
            queued.modify other (f := fun t => { t with started := true })
            rfl (queued.oneShot other)
          exact ⟨timely, queued.nodup, fun other' mem => started other' mem fun eq =>
            unlisted (eq ▸ mem), oneShot⟩
        obtain ⟨queued', touched, mem, -⟩ := scheduleEvent_spec flagged unlisted
          (by rw [s.timers_modify_self]) idle.2
        exact ⟨queued', (touched_modify rfl).trans touched, fun _ _ => mem⟩
  | stop other =>
      obtain rfl : other = timer := own
      obtain ⟨t, stopped, queued', touched, idle⟩ := queued.stop next
      exact ⟨t, stopped, queued', touched, fun _ isStarted => absurd isStarted (by simp [idle])⟩
  | setTimeout other ms repeats =>
      obtain rfl : other = timer := own
      obtain ⟨some_time, rfl⟩ := oneShot
      show ∃ t, s.setTimeout other ms false = some t ∧ _
      rw [Loop.setTimeout]
      split
      · exact ⟨s, rfl, queued, .refl other s, id⟩
      · obtain ⟨timely, started, oneShot⟩ := queued.modify other
          (f := fun t => { t with repeatable := false, timeout := ms }) rfl rfl
        simp only
        split
        · rename_i isStarted
          obtain ⟨t, removed, queued', touched, unlisted, timers⟩ :=
            queued_removeEvent timely queued.nodup started oneShot next
          obtain ⟨queued'', touched', mem, -⟩ :=
            scheduleEvent_spec queued' unlisted (by rw [timers]; exact isStarted) some_time
          exact ⟨_, by rw [removed]; rfl, queued'',
            ((touched_modify rfl).trans touched).trans touched', fun _ _ => mem⟩
        · rename_i idle
          refine ⟨_, rfl, ⟨timely, queued.nodup, fun other' mem => ?_, oneShot⟩, touched_modify rfl,
            fun _ isStarted => absurd isStarted idle⟩
          by_cases eq : other' = other
          · rw [s.timers_modify_self] at idle
            exact absurd (queued.started other (eq ▸ mem)) idle
          · exact started other' mem eq

/-- The acts of a callback on its own timer. -/
theorem Queued.runActs {acts : List (Act τ)} (own : ∀ act ∈ acts, act.Of timer)
    (oneShot : ∀ act ∈ acts, act.OneShot) :
    ∀ {s : Loop τ}, Queued s → s.ahead.head? ≠ some timer →
      ∃ t, runActs acts s = some t ∧ Queued t ∧ Touched timer s t ∧
        (Listed timer s → Listed timer t) := by
  induction acts with
  | nil => exact fun {s} queued _ => ⟨s, rfl, queued, .refl timer s, id⟩
  | cons act acts ih =>
      intro s queued next
      obtain ⟨t, first, queued', touched, listed⟩ :=
        queued.act next (own act List.mem_cons_self) (oneShot act List.mem_cons_self)
      obtain ⟨u, rest, queued'', touched', listed'⟩ :=
        ih (fun a mem => own a (List.mem_cons_of_mem _ mem))
        (fun a mem => oneShot a (List.mem_cons_of_mem _ mem)) queued' (by rwa [touched.head])
      exact ⟨u, by rw [Events.runActs, first, Option.bind_some, rest], queued'',
        touched.trans touched', listed' ∘ listed⟩

/-! ## The pass -/

/-- Every callback stops its timer first, touches its own timer only, and sets it to fire once. -/
def Own (callback : τ → Loop τ → List (Act τ)) : Prop :=
  ∀ timer s, ∃ acts, callback timer s = .stop timer :: acts ∧ ∀ act ∈ acts, act.Of timer ∧
    act.OneShot

variable {callback : τ → Loop τ → List (Act τ)}

theorem onEvent_spec (own : Own callback) (queued : Queued s) (unlisted : timer ∉ s.events) :
    ∃ t, s.onEvent callback timer = some t ∧ Queued t ∧
      Touched timer { s with called := s.called ++ [timer] } t ∧
      Listed timer t := by
  obtain ⟨acts, text, good⟩ := own timer s
  have called : Queued { s with called := s.called ++ [timer] } :=
    ⟨queued.timely, queued.nodup, queued.started, queued.oneShot⟩
  have next : s.ahead.head? ≠ some timer := fun next =>
    unlisted (List.mem_append_right _ (List.mem_of_mem_head? next))
  obtain ⟨u, stopped, queued', touched, idle⟩ := called.stop next
  obtain ⟨t, ran, queued'', touched', listed⟩ := queued'.runActs (fun act mem => (good act mem).1)
    (fun act mem => (good act mem).2) (by rwa [touched.head])
  refine ⟨t, ?_, queued'', touched.trans touched', listed fun isStarted =>
    absurd isStarted (by simp [idle])⟩
  rw [Loop.onEvent, text, Events.runActs, Act.run, stopped, Option.bind_some, ran]
  simp [queued''.oneShot timer]

/-- The timers that are due among those ahead. -/
def Loop.due (s : Loop τ) (now : ℤ) : List τ := s.ahead.filter (s.time · ≤ now)

/-- What a round of the pass leaves: the timer has been called, and unless it is set again nothing
else is changed. -/
theorem round_spec (own : Own callback) (queued : Queued s) (reading : now ≤ s.clock)
    (behind : ∀ other ∈ s.passed, now < s.time other) {ahead : List τ}
    (next : s.ahead = timer :: ahead)
    (isDue : s.time timer ≤ now) :
    ∃ t, Loop.onEvent callback timer { s with ahead } = some t ∧ Queued t ∧ now ≤ t.clock ∧
      (∀ other ∈ t.passed, now < t.time other) ∧ s.due now = timer :: t.due now ∧
      t.called = s.called ++ [timer] ∧ (∀ other ≠ timer, t.timers other = s.timers other) ∧
      t.events.filter (· ≠ timer) = s.events.filter (· ≠ timer) ∧
      (∀ other ∈ t.passed, other = timer ∨ other ∈ s.passed) ∧ Listed timer t := by
  have split : s.events = s.passed ++ timer :: ahead := by rw [Loop.events, next]
  have nodup := queued.nodup
  rw [split, List.perm_middle.nodup_iff, List.nodup_cons] at nodup
  have sublist : (s.passed ++ ahead).Sublist s.events := by
    rw [split]
    exact (List.sublist_cons_self _ _).append_left _
  have taken : Queued { s with ahead } :=
    ⟨List.Pairwise.sublist sublist queued.timely, nodup.2, fun other mem =>
      queued.started other (sublist.subset mem),
      queued.oneShot⟩
  obtain ⟨t, ran, queued', touched, listed⟩ := onEvent_spec own taken nodup.1
  have later (mem : timer ∈ t.events) : now < t.time timer := by
    rcases touched.later mem with ⟨mem, -⟩ | later
    · exact absurd mem nodup.1
    · exact lt_of_le_of_lt reading later
  have time {other : τ} (ne : other ≠ timer) : t.time other = s.time other := by
    rw [Loop.time, touched.timers other ne, Loop.time]
  have passed : ∀ other ∈ t.passed, other = timer ∨ other ∈ s.passed := fun other mem => by
    by_cases eq : other = timer
    · exact .inl eq
    · have kept : other ∈ t.passed.filter (· ≠ timer) := List.mem_filter.2 ⟨mem, by simpa using eq⟩
      rw [touched.passed] at kept
      exact .inr (List.mem_filter.1 kept).1
  refine ⟨t, ran, queued', reading.trans touched.clock, fun other mem => ?_, ?_, touched.called,
    touched.timers, ?_,
    passed, listed⟩
  · by_cases eq : other = timer
    · rw [eq]
      exact later (List.mem_append_left _ (eq ▸ mem))
    · rw [time eq]
      exact behind other ((passed other mem).resolve_left eq)
  · have rest : t.due now = ahead.filter (s.time · ≤ now) := by
      have others : t.ahead.filter (· ≠ timer) = ahead := by
        rw [touched.ahead]
        exact List.filter_eq_self.2 fun other mem => by
          simpa using fun eq : other = timer => nodup.1 (List.mem_append_right _ (eq ▸ mem))
      rw [Loop.due, ← others, List.filter_filter]
      refine List.filter_congr fun other mem => ?_
      by_cases eq : other = timer
      · have := later (List.mem_append_right _ (eq ▸ mem))
        simp [eq, this]
      · simp [eq, time eq]
    rw [Loop.due, next, List.filter_cons_of_pos (by simpa using isDue), rest]
  · rw [Loop.events, List.filter_append, touched.passed, touched.ahead, split, List.filter_append,
      List.filter_cons_of_neg (by simp)]

/-- What the pass leaves: the due timers have been called in order, and the others are as they
were. -/
structure Passed (now : ℤ) (s t : Loop τ) : Prop where
  queued : Queued t
  clock : now ≤ t.clock
  called : t.called = s.called ++ s.due now
  later : ∀ timer ∈ t.events, now < t.time timer
  timers : ∀ timer, timer ∉ s.due now → t.timers timer = s.timers timer
  events : t.events.filter (· ∉ s.due now) = s.events.filter (· ∉ s.due now)
  passed : ∀ timer ∈ t.passed, timer ∈ s.passed ∨ timer ∈ s.due now
  listed : (∀ timer, Listed timer s) → ∀ timer, Listed timer t

/-- The pass ends where nothing ahead is due. -/
theorem passed_of_due_eq_nil (queued : Queued s) (reading : now ≤ s.clock)
    (behind : ∀ timer ∈ s.passed, now < s.time timer) (none_due : s.due now = []) :
    Passed now s s := by
  refine ⟨queued, reading, by rw [none_due, List.append_nil],
    fun timer mem => ?_, fun _ _ => rfl, rfl, fun _ => .inl, id⟩
  rcases List.mem_append.1 mem with mem | mem
  · exact behind timer mem
  · have late := List.filter_eq_nil_iff.1 none_due timer mem
    simpa using late

/-- By induction on the rounds, of which there are enough for what is due. -/
theorem callLoop_spec (own : Own callback) (rounds : ℕ) :
    ∀ {s : Loop τ}, (s.due now).length < rounds → Queued s → now ≤ s.clock →
      (∀ timer ∈ s.passed, now < s.time timer) →
      ∃ t, s.callLoop callback now rounds = some t ∧ Passed now s t := by
  induction rounds with
  | zero => exact fun {s} few => absurd few (Nat.not_lt_zero _)
  | succ rounds ih =>
      intro s few queued reading behind
      rw [Loop.callLoop]
      cases next : s.ahead with
      | nil =>
          exact ⟨s, rfl, passed_of_due_eq_nil queued reading behind (by rw [Loop.due, next]; rfl)⟩
      | cons timer ahead =>
          simp only
          split
          · rename_i isDue
            obtain ⟨t, ran, queued', reading', behind', due, called, timers, events, passed,
                own_listed⟩ :=
              round_spec own queued reading behind next isDue
            rw [due, List.length_cons] at few
            obtain ⟨u, rest, done⟩ := ih (by omega) queued' reading' behind'
            rw [ran, Option.bind_some, rest]
            refine ⟨u, rfl, done.queued, done.clock, ?_, done.later, fun other unlisted => ?_, ?_,
              fun other mem => ?_,
              fun listed => done.listed fun other => ?_⟩
            · rw [done.called, called, due, List.append_assoc, List.singleton_append]
            · rw [due, List.mem_cons, not_or] at unlisted
              rw [done.timers other unlisted.2, timers other unlisted.1]
            · have both (l : List τ) : l.filter (· ∉ s.due now) =
                  (l.filter (· ≠ timer)).filter (· ∉ t.due now) := by
                rw [List.filter_filter]
                refine List.filter_congr fun other _ => ?_
                simp [due, not_or, Bool.and_comm]
              have swap (l : List τ) : (l.filter (· ≠ timer)).filter (· ∉ t.due now) =
                  (l.filter (· ∉ t.due now)).filter (· ≠ timer) := by
                rw [List.filter_filter, List.filter_filter]
                exact List.filter_congr fun other _ => Bool.and_comm _ _
              rw [both, both, ← events, swap, swap, done.events]
            · rw [due, List.mem_cons]
              rcases done.passed other mem with mem | mem
              · rcases passed other mem with eq | mem
                · exact .inr (.inl eq)
                · exact .inl mem
              · exact .inr (.inr mem)
            · by_cases eq : other = timer
              · rwa [eq]
              · intro isStarted
                rw [timers other eq] at isStarted
                have mem : other ∈ s.events.filter (· ≠ timer) :=
                  List.mem_filter.2 ⟨listed other isStarted, by simpa using eq⟩
                rw [← events] at mem
                exact (List.mem_filter.1 mem).1
          · rename_i late
            refine ⟨s, rfl, passed_of_due_eq_nil queued reading behind ?_⟩
            -- the list is in order, so behind an event that is not due there is none
            have timely :=
              List.Pairwise.sublist (List.sublist_append_right s.passed s.ahead) queued.timely
            rw [next, List.pairwise_cons] at timely
            rw [Loop.due, next, List.filter_eq_nil_iff]
            intro other mem
            rcases List.mem_cons.1 mem with rfl | mem
            · simpa using late
            · have := timely.1 other mem
              simp only [decide_eq_true_eq]
              omega

omit [DecidableEq τ] in
/-- Nobody sleeps past an event that is ahead. -/
theorem sleep_le (timely : Timely s.time s.ahead) (later : ∀ timer ∈ s.ahead, now < s.time timer)
    (mem : timer ∈ s.ahead) : s.sleep now ≤ s.time timer - now := by
  cases ahead : s.ahead with
  | nil =>
      rw [ahead] at mem
      cases mem
  | cons first rest =>
      rw [ahead] at timely later mem
      have first_le : s.time first ≤ s.time timer := by
        rcases List.mem_cons.1 mem with rfl | mem
        · exact le_rfl
        · exact (List.pairwise_cons.1 timely).1 timer mem
      have first_later := later first List.mem_cons_self
      simp only [Loop.sleep, ahead, Int.bmod_def]
      split <;> split <;> omega

/-- The timers whose time has come. -/
def Loop.dueEvents (s : Loop τ) : List τ := s.events.filter (s.time · ≤ s.clock)

/-- A pass has called the timers that were due, in the order of their times and those of one time in
the order in which they were scheduled; it has left the others alone, and lets nobody sleep past one
of them. -/
structure CallsDue (s : Loop τ) (sleep : ℤ) (t : Loop τ) : Prop where
  called : t.called = s.called ++ s.dueEvents
  clock : s.clock ≤ t.clock
  later : ∀ timer ∈ t.events, s.clock < t.time timer
  timers : ∀ timer, timer ∉ s.dueEvents → t.timers timer = s.timers timer
  events : t.events.filter (· ∉ s.dueEvents) = s.events.filter (· ∉ s.dueEvents)
  sleep : ∀ timer ∈ t.events, timer ∉ s.dueEvents → sleep ≤ t.time timer - s.clock

/-- The list is in order and has the timers that are started, and no pass is under way. -/
structure Settled (s : Loop τ) : Prop where
  queued : Queued s
  listed : ∀ timer, Listed timer s
  ended : s.ahead = []

omit [DecidableEq τ] in
/-- With the iterator at one place or another. -/
theorem Queued.congr (queued : Queued s) (timers : t.timers = s.timers)
    (events : t.events = s.events) : Queued t := by
  have time : t.time = s.time := by
    funext timer
    rw [Loop.time, timers, Loop.time]
  refine ⟨?_, ?_, ?_, ?_⟩
  · rw [time, events]
    exact queued.timely
  · rw [events]
    exact queued.nodup
  · rw [timers, events]
    exact queued.started
  · rw [timers]
    exact queued.oneShot

theorem callEvents_spec (own : Own callback) (settled : Settled s) :
    ∃ sleep t, s.callEvents callback = some (sleep, t) ∧ Settled t ∧ CallsDue s sleep t := by
  have entered : Queued { s with passed := [], ahead := s.events } := settled.queued.congr rfl rfl
  have few : (Loop.due { s with passed := [], ahead := s.events } s.clock).length <
      s.events.length + 1 :=
    Nat.lt_succ_of_le (List.length_filter_le _ _)
  obtain ⟨t, ran, done⟩ := callLoop_spec own _ few entered le_rfl (by simp)
  have whole : Loop.events { t with passed := t.events, ahead := [] } = t.events :=
    List.append_nil _
  have listed (timer : τ) : Listed timer { t with passed := t.events, ahead := [] } := by
    rw [Listed, whole]
    exact done.listed settled.listed timer
  refine ⟨t.sleep s.clock, { t with passed := t.events, ahead := [] },
    by rw [Loop.callEvents, ran]; rfl,
    ⟨done.queued.congr rfl whole, listed, rfl⟩,
    ⟨done.called, done.clock, ?_, done.timers, ?_, fun timer mem unlisted => ?_⟩⟩
  · rw [whole]
    exact done.later
  · rw [whole]
    exact done.events
  · rw [whole] at mem
    rcases List.mem_append.1 mem with mem | mem
    · rcases done.passed timer mem with mem | mem
      · cases mem
      · exact absurd mem unlisted
    · exact sleep_le (List.Pairwise.sublist (List.sublist_append_right _ _) done.queued.timely)
        (fun other mem => done.later other (List.mem_append_right _ mem)) mem

end Mtproto.Events
