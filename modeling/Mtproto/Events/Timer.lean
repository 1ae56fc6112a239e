import Mathlib.Algebra.Group.Nat.Defs
import Mtproto.Lib.Agenda
import Mtproto.Lib.Program

/-!
# Timers

`Timer.cpp`, and of `ConnectionsManager.cpp` the list of the events: `scheduleEvent`, `removeEvent`
and `callEvents`.  An event stands for its timer.  While `callEvents` goes through the list, its
iterator stands between the events that it has left behind and those ahead; outside of it all events
are behind the iterator, which is the end of the list.
-/

namespace Mtproto.Events

open Lib

variable {τ : Type} [DecidableEq τ]

/-- `Timer`, with the time of its `eventObject`. -/
structure Timer where
  started : Bool := false
  repeatable : Bool := false
  timeout : ℕ := 0
  time : ℤ := 0
deriving DecidableEq, Repr

/-- The timers and the list of the events, with the reading of the monotonic clock. -/
@[ext]
structure Loop (τ : Type) where
  timers : τ → Timer
  passed : List τ
  ahead : List τ
  clock : ℤ
  networkPaused : Bool
  sendingPushPing : Bool
  lastPushPingTime : ℤ
  /-- The timers whose `onEvent` has been called, in order. -/
  called : List τ

namespace Loop

variable (s : Loop τ)

def modify (timer : τ) (f : Timer → Timer) : Loop τ :=
  { s with timers := Function.update s.timers timer (f (s.timers timer)) }

@[simp] theorem timers_modify_self (timer : τ) (f : Timer → Timer) :
    (s.modify timer f).timers timer = f (s.timers timer) :=
  Function.update_self _ _ _

theorem timers_modify_of_ne {timer other : τ} (ne : other ≠ timer) (f : Timer → Timer) :
    (s.modify timer f).timers other = s.timers other :=
  Function.update_of_ne ne _ _

def time (timer : τ) : ℤ := (s.timers timer).time

/-- The list of the events. -/
def events : List τ := s.passed ++ s.ahead

/-- `events.insert` in front of the first later event: what comes to stand right in front of the
iterator is behind it. -/
def insert (timer : τ) : Loop τ :=
  if s.passed.all (s.time · ≤ s.time timer) then
    if s.ahead.takeWhile (s.time · ≤ s.time timer) = [] then
      { s with passed := s.passed ++ [timer] }
    else { s with ahead := Agenda.place s.time timer s.ahead }
  else { s with passed := Agenda.place s.time timer s.passed }

def scheduleEvent (timer : τ) (time : ℕ) : Loop τ :=
  (s.modify timer fun t => { t with time := s.clock + time }).insert timer

/-- `removeEvent`; without the event that is next, the iterator of `callEvents` is invalid. -/
def removeEvent (timer : τ) : Option (Loop τ) :=
  if timer ∈ s.passed then some { s with passed := s.passed.erase timer }
  else if s.ahead.head? = some timer then none
  else some { s with ahead := s.ahead.erase timer }

/-! ## The timers -/

def start (timer : τ) : Loop τ :=
  if (s.timers timer).started ∨ (s.timers timer).timeout = 0 then s
  else (s.modify timer fun t => { t with started := true }).scheduleEvent timer
    (s.timers timer).timeout

def stop (timer : τ) : Option (Loop τ) :=
  if (s.timers timer).started then
    (s.modify timer fun t => { t with started := false }).removeEvent timer
  else some s

def setTimeout (timer : τ) (ms : ℕ) (repeats : Bool) : Option (Loop τ) :=
  if ms = (s.timers timer).timeout then some s
  else
    let s := s.modify timer fun t => { t with repeatable := repeats, timeout := ms }
    if (s.timers timer).started then
      (s.removeEvent timer).map fun s => s.scheduleEvent timer ms
    else some s

end Loop

/-- What is done to the timers, and the time that passes. -/
inductive Act (τ : Type)
  | wait (ms : ℕ)
  | start (timer : τ)
  | stop (timer : τ)
  | setTimeout (timer : τ) (ms : ℕ) (repeats : Bool)
deriving DecidableEq, Repr

def Act.run : Act τ → Loop τ → Option (Loop τ)
  | .wait ms, s => some { s with clock := s.clock + ms }
  | .start timer, s => some (s.start timer)
  | .stop timer, s => s.stop timer
  | .setTimeout timer ms repeats, s => s.setTimeout timer ms repeats

/-- One act after the other. -/
def runActs : List (Act τ) → Loop τ → Option (Loop τ)
  | [], s => some s
  | act :: acts, s => (act.run s).bind (runActs acts)

namespace Loop

-- what the callbacks of the timers do
variable (callback : τ → Loop τ → List (Act τ))

/-- `Timer::onEvent`. -/
def onEvent (timer : τ) (s : Loop τ) : Option (Loop τ) :=
  (runActs (callback timer s) { s with called := s.called ++ [timer] }).map fun s =>
    let t := s.timers timer
    if t.started ∧ t.repeatable ∧ t.timeout ≠ 0 then s.scheduleEvent timer t.timeout else s

/-- The loop of `callEvents`, with the rounds that it may take. -/
def callLoop (now : ℤ) : ℕ → Loop τ → Option (Loop τ)
  | 0, _ => none
  | rounds + 1, s =>
      match s.ahead with
      | [] => some s
      | timer :: ahead =>
          if s.time timer ≤ now then
            (onEvent callback timer { s with ahead }).bind (callLoop now rounds)
          else some s

/-- How long the thread may sleep: up to the next event, or to the next ping of the push
connection. -/
def sleep (now : ℤ) (s : Loop τ) : ℤ :=
  match s.ahead with
  | timer :: _ =>
      let diff := (s.time timer - now).bmod (2 ^ 32)
      if 1000 < diff ∨ diff < 0 then 1000 else diff
  | [] =>
      if !s.networkPaused then 1000
      else
        let timeToPushPing :=
          ((if s.sendingPushPing then 30000 else 60000 * 3 : ℤ) -
            (now - s.lastPushPingTime).natAbs).bmod (2 ^ 32)
        if timeToPushPing ≤ 0 then 1000 else timeToPushPing

/-- `callEvents` at the reading of the clock.  Behind the loop the iterator is at the end again. -/
def callEvents (s : Loop τ) : Option (ℤ × Loop τ) :=
  (callLoop callback s.clock (s.events.length + 1) { s with passed := [], ahead := s.events }).map
    fun t => (t.sleep s.clock, { t with passed := t.events, ahead := [] })

end Loop

/-- What happens to the timers: an act from elsewhere, or a pass of `callEvents`. -/
inductive Input (τ : Type)
  | act (act : Act τ)
  | callEvents
deriving DecidableEq, Repr

def step (callback : τ → Loop τ → List (Act τ)) : Input τ → Program (Loop τ) Unit
  | .act act, s => (act.run s).map fun s => ((), s)
  | .callEvents, s => (s.callEvents callback).map fun p => ((), p.2)

end Mtproto.Events
