import Mtproto.Events.Pass

/-!
# Runs of the event loop

The thread calls `callEvents` over and over, and between the passes anything may be done to the
timers.  In every state reached the list holds the timers that are started, so a timer fires in the
first pass behind its time, and only then.
-/

namespace Mtproto.Events

open Lib Program

variable {τ : Type} [DecidableEq τ] {s t : Loop τ} {timer : τ}
  {callback : τ → Loop τ → List (Act τ)}

/-- No timer has been started, and all of them are as the constructor leaves them. -/
structure Fresh (s : Loop τ) : Prop where
  events : s.events = []
  timers : ∀ timer, s.timers timer = {}

def Input.OneShot : Input τ → Prop
  | .act a => a.OneShot
  | .callEvents => True

omit [DecidableEq τ] in
theorem Fresh.settled (fresh : Fresh s) : Settled s where
  queued := by
    refine ⟨?_, ?_, ?_, fun timer => by rw [fresh.timers]⟩ <;> rw [fresh.events]
    · exact List.Pairwise.nil
    · exact List.nodup_nil
    · simp
  listed timer isStarted := by
    rw [fresh.timers] at isStarted
    cases isStarted
  ended := (List.append_eq_nil_iff.1 fresh.events).2

theorem Touched.mem (touched : Touched timer s t) {other : τ} (ne : other ≠ timer)
    (mem : other ∈ s.events) :
    other ∈ t.events := by
  have mem : other ∈ (s.passed ++ s.ahead).filter (· ≠ timer) :=
    List.mem_filter.2 ⟨mem, by simpa using ne⟩
  rw [List.filter_append, ← touched.passed, ← touched.ahead, ← List.filter_append] at mem
  exact (List.mem_filter.1 mem).1

/-- An act from elsewhere, while no pass is under way. -/
theorem Settled.act (settled : Settled s) {act : Act τ} (own : act.Of timer)
    (oneShot : act.OneShot) :
    ∃ t, act.run s = some t ∧ Settled t ∧ Touched timer s t := by
  have next : s.ahead.head? ≠ some timer := by simp [settled.ended]
  obtain ⟨t, ran, queued, touched, listed⟩ := settled.queued.act next own oneShot
  refine ⟨t, ran, ⟨queued, fun other => ?_, ?_⟩, touched⟩
  · by_cases eq : other = timer
    · rw [eq]
      exact listed (settled.listed timer)
    · intro isStarted
      rw [touched.timers other eq] at isStarted
      exact touched.mem eq (settled.listed other isStarted)
  · have head := touched.head
    rw [settled.ended, List.head?_nil, List.head?_eq_none_iff] at head
    exact head

omit [DecidableEq τ] in
theorem Settled.wait (settled : Settled s) (ms : ℕ) : Settled { s with clock := s.clock + ms } :=
  ⟨settled.queued.congr rfl rfl, settled.listed, settled.ended⟩

/-- The act leaves the timer alone. -/
def Act.Spares (timer : τ) : Act τ → Prop
  | .wait _ => True
  | .start other | .stop other | .setTimeout other _ _ => timer ≠ other

omit [DecidableEq τ] in
theorem Act.about (act : Act τ) :
    (∃ ms, act = .wait ms) ∨ ∃ timer, act.Of timer ∧ ∀ other, act.Spares other → other ≠ timer := by
  cases act with
  | wait ms => exact .inl ⟨ms, rfl⟩
  | start timer | stop timer | setTimeout timer => exact .inr ⟨timer, rfl, fun _ => id⟩

theorem Settled.step (own : Own callback) (settled : Settled s) {i : Input τ}
    (oneShot : i.OneShot) :
    ∃ t, step callback i s = some ((), t) ∧ Settled t := by
  cases i with
  | callEvents =>
      obtain ⟨sleep, t, ran, settled', -⟩ := callEvents_spec own settled
      exact ⟨t, by rw [Events.step, ran]; rfl, settled'⟩
  | act a =>
      rcases a.about with ⟨ms, rfl⟩ | ⟨timer, about, -⟩
      · exact ⟨_, rfl, settled.wait ms⟩
      · obtain ⟨t, ran, settled', -⟩ := settled.act about oneShot
        exact ⟨t, by rw [Events.step, ran]; rfl, settled'⟩

theorem settled_of_reaches (own : Own callback)
    (reached : Reaches (step callback) Fresh (fun _ i => i.OneShot) s) : Settled s := by
  refine reached.invariant (fun _ => Fresh.settled) fun s i t settled oneShot run => ?_
  obtain ⟨t', run', settled'⟩ := settled.step own oneShot
  rw [run] at run'
  obtain rfl : t = t' := by simpa using run'
  exact settled'

/-- Two timers as the constructor leaves them. -/
def constructed : Loop Bool :=
  { timers := fun _ => {}, passed := [], ahead := [], clock := 0, networkPaused := false,
    sendingPushPing := false
    lastPushPingTime := 0, called := [] }

/-- A callback that stops its timer. -/
def stops : Bool → Loop Bool → List (Act Bool) := fun timer _ => [.stop timer]

theorem own_stops : Own stops := fun timer _ => ⟨[], rfl, by simp⟩

def oneStarted : Loop Bool :=
  { constructed with
    timers := fun timer =>
      if timer then { timeout := 100 } else { started := true, timeout := 50, time := 50 }
    passed := [false] }

theorem reaches_oneStarted : Reaches (step stops) Fresh (fun _ i => i.OneShot) oneStarted := by
  have fresh : Reaches (step stops) Fresh (fun _ i => i.OneShot) constructed :=
    .start ⟨rfl, fun _ => rfl⟩
  have set : Reaches (step stops) Fresh (fun _ i => i.OneShot) _ :=
    .step (.step (.step fresh (i := .act (.setTimeout true 100 false)) ⟨by decide, rfl⟩ rfl)
      (i := .act (.setTimeout false 50 false)) ⟨by decide, rfl⟩ rfl) (i :=
        .act (.start false)) trivial rfl
  convert set using 1
  apply Loop.ext (funext fun timer => by cases timer <;> rfl) <;> rfl

/-- A callback that stops its timer, and starts the one of them anew. -/
def restarts : Bool → Loop Bool → List (Act Bool) :=
  fun timer _ => if timer then [.stop timer] else [.stop timer, .start timer]

theorem own_restarts : Own restarts := by
  intro timer _
  cases timer with
  | true => exact ⟨[], rfl, by simp⟩
  | false => exact ⟨[.start false], rfl, by simp [Act.Of, Act.OneShot]⟩

/-- Both timers are started and become due. -/
def bothDue : List (Input Bool) :=
  [.act (.setTimeout false 50 false), .act (.setTimeout true 40 false), .act (.start false),
    .act (.start true), .act (.wait 60)]

/-- The timer is left alone, and no pass begins at or behind the deadline. -/
def Awaits (timer : τ) (deadline : ℤ) (s : Loop τ) : Input τ → Prop
  | .act a => a.OneShot ∧ a.Spares timer
  | .callEvents => s.clock < deadline

/-- The timer waits for its time. -/
structure Waits (timer : τ) (deadline : ℤ) (calls : ℕ) (s : Loop τ) : Prop where
  settled : Settled s
  mem : timer ∈ s.events
  time : s.time timer = deadline
  calls : s.called.count timer = calls

theorem Waits.step (own : Own callback) {deadline : ℤ} {calls : ℕ}
    (waits : Waits timer deadline calls s) {i : Input τ}
    (awaits : Awaits timer deadline s i) (run : step callback i s = some ((), t)) :
    Waits timer deadline calls t := by
  cases i with
  | callEvents =>
      obtain ⟨sleep, u, ran, settled, pass⟩ := callEvents_spec own waits.settled
      rw [Events.step, ran] at run
      obtain rfl : u = t := by simpa using run
      have early : timer ∉ s.dueEvents := fun mem => by
        have due := (List.mem_filter.1 mem).2
        rw [waits.time, decide_eq_true_eq] at due
        exact absurd awaits (not_lt.2 due)
      have mem : timer ∈ s.events.filter (· ∉ s.dueEvents) :=
        List.mem_filter.2 ⟨waits.mem, by simpa using early⟩
      rw [← pass.events] at mem
      refine ⟨settled, (List.mem_filter.1 mem).1, ?_, ?_⟩
      · rw [Loop.time, pass.timers timer early]
        exact waits.time
      · rw [pass.called, List.count_append, List.count_eq_zero_of_not_mem early, waits.calls,
          Nat.add_zero]
  | act a =>
      obtain ⟨oneShot, spares⟩ := awaits
      rcases a.about with ⟨ms, rfl⟩ | ⟨other, about, others⟩
      · obtain rfl : { s with clock := s.clock + ms } =
          t := by simpa [Events.step, Act.run] using run
        exact ⟨waits.settled.wait ms, waits.mem, waits.time, waits.calls⟩
      · have ne := others timer spares
        obtain ⟨u, ran, settled, touched⟩ := waits.settled.act about oneShot
        rw [Events.step, ran] at run
        obtain rfl : u = t := by simpa using run
        refine ⟨settled, touched.mem ne waits.mem, ?_, ?_⟩
        · rw [Loop.time, touched.timers timer ne]
          exact waits.time
        · rw [touched.called]
          exact waits.calls

/-- A timer that is started and then left alone is not called before its time, and it is called once
by the first pass that begins behind it, whatever is done to other timers and however many passes
there are in between. -/
theorem fires_on_time (own : Own callback)
    (reached : Reaches (step callback) Fresh (fun _ i => i.OneShot) s)
    (idle : (s.timers timer).started = false) (some_time : (s.timers timer).timeout ≠ 0)
    {is : List (Input τ)}
    (run : Runs (step callback) (Awaits timer (s.clock + (s.timers timer).timeout))
      (s.start timer) is t) :
    t.called.count timer = s.called.count timer ∧
      (s.clock + (s.timers timer).timeout ≤ t.clock →
        ∃ sleep u, t.callEvents callback = some (sleep, u) ∧
        u.called.count timer = s.called.count timer + 1) := by
  have settled := settled_of_reaches own reached
  have started :
      Waits timer (s.clock + (s.timers timer).timeout) (s.called.count timer) (s.start timer) := by
    have about : (Act.start timer).Of timer := rfl
    obtain ⟨t, ran, settled', touched⟩ := settled.act about trivial
    obtain rfl : s.start timer = t := by simpa [Act.run] using ran
    have result : s.start timer =
        (s.modify timer fun t => { t with started := true }).scheduleEvent timer
          (s.timers timer).timeout := by
      rw [Loop.start, if_neg (by simp [idle, some_time])]
    have set : (s.start timer).timers timer =
        { s.timers timer with started := true, time := s.clock + (s.timers timer).timeout } := by
      rw [result, Loop.scheduleEvent, (insert_spec _ _).2.1, Loop.timers_modify_self,
        Loop.timers_modify_self]
      rfl
    refine ⟨settled', settled'.listed timer (by rw [set]), ?_, by rw [touched.called]⟩
    rw [Loop.time, set]
  have waits :=
    run.invariant (P := fun _ t => Waits timer _ _ t) started
      fun _ _ _ _ waits awaits step => waits.step own awaits step
  refine ⟨waits.calls, fun late => ?_⟩
  obtain ⟨sleep, u, ran, -, pass⟩ := callEvents_spec own waits.settled
  have due : timer ∈ t.dueEvents :=
    List.mem_filter.2 ⟨waits.mem, by rw [waits.time]; simpa using late⟩
  have once : t.dueEvents.count timer = 1 := by
    have nodup : t.dueEvents.Nodup := waits.settled.queued.nodup.sublist List.filter_sublist
    rw [nodup.count, if_pos due]
  exact ⟨sleep, u, ran, by rw [pass.called, List.count_append, waits.calls, once]⟩

/-- The other timer has fired in between. -/
def elapsed : Loop Bool :=
  { constructed with
    timers := fun timer =>
      if timer then { started := true, timeout := 100, time := 100 } else
        { timeout := 50, time := 50 }
    passed := [true]
    clock := 120
    called := [false] }

theorem runs_elapsed :
    Runs (step stops) (Awaits true (oneStarted.clock + (oneStarted.timers true).timeout))
    (oneStarted.start true) [.act (.wait 60), .callEvents, .act (.wait 60)] elapsed := by
  have awaits {ms : ℕ} {d : ℤ} {s : Loop Bool} : Awaits true d s (.act (.wait ms)) :=
    ⟨trivial, trivial⟩
  have early : (60 : ℤ) < 100 := by decide
  have first : Runs (step stops) (Awaits true (oneStarted.clock + (oneStarted.timers true).timeout))
      (oneStarted.start true) ([] ++ [.act (.wait 60)]) _ := .snoc .nil awaits rfl
  have second :
    Runs (step stops) (Awaits true (oneStarted.clock + (oneStarted.timers true).timeout))
      (oneStarted.start true) ([] ++ [.act (.wait 60)] ++ [.callEvents]) _ := .snoc first early rfl
  have third : Runs (step stops) (Awaits true (oneStarted.clock + (oneStarted.timers true).timeout))
      (oneStarted.start true) ([] ++ [.act (.wait 60)] ++ [.callEvents] ++ [.act (.wait 60)]) _ :=
        .snoc second awaits rfl
  convert third using 1
  · rfl
  · apply Loop.ext (funext fun timer => by cases timer <;> rfl) <;> rfl

theorem fires_on_time_elapsed : elapsed.called.count true = oneStarted.called.count true ∧
    (oneStarted.clock + (oneStarted.timers true).timeout ≤ elapsed.clock → ∃ sleep u,
      elapsed.callEvents stops = some (sleep, u) ∧
        u.called.count true = oneStarted.called.count true + 1) :=
  fires_on_time own_stops reaches_oneStarted rfl (by decide) runs_elapsed

end Mtproto.Events
