import Mathlib.Data.Int.Notation
import Mathlib.Data.List.Nodup
import Mathlib.Logic.Function.Basic

/-!
# The timeout sweep

The loop of `select` over `activeConnections`, whose length is read once, with `checkTimeout`,
`closeSocket` and what `onDisconnected` may attach.
-/

namespace Mtproto.Tgnet.Sweep

variable {κ : Type} [DecidableEq κ]

/-! ## Sockets -/

/-- The active connections, each of them once, and the times of all sockets. -/
structure Sockets (κ : Type) where
  activeConnections : List κ
  nodup : activeConnections.Nodup
  timeout : κ → ℤ
  lastEventTime : κ → ℤ

def attachConnection (connection : κ) (s : Sockets κ) : Sockets κ :=
  if new : connection ∈ s.activeConnections then s
  else
    { s with
      activeConnections := s.activeConnections ++ [connection]
      nodup := List.nodup_append.2 ⟨s.nodup, List.nodup_singleton connection, by
        intro a mem b same
        rw [List.mem_singleton.1 same]
        exact fun eq => new (eq ▸ mem)⟩ }

def detachConnection (connection : κ) (s : Sockets κ) : Sockets κ :=
  { s with
    activeConnections := s.activeConnections.erase connection
    nodup := s.nodup.erase connection }

theorem attachConnection_extends (connection : κ) (s : Sockets κ) :
    s.activeConnections <+: (attachConnection connection s).activeConnections := by
  rw [attachConnection]
  split_ifs
  · exact List.prefix_rfl
  · exact List.prefix_append _ _

/-- The time of the sweep, the clock while it runs and the callback, which only attaches. -/
structure World (κ : Type) where
  now : ℤ
  currentTimeMonotonicMillis : ℤ
  onDisconnected : κ → Sockets κ → Sockets κ
  attaches : ∀ connection s, s.activeConnections <+: (onDisconnected connection s).activeConnections

theorem attachAll_extends (connections : List κ) (s : Sockets κ) :
    s.activeConnections <+:
      (connections.foldl (fun s c => attachConnection c s) s).activeConnections := by
  induction connections generalizing s with
  | nil => exact List.prefix_rfl
  | cons connection rest ih => exact (attachConnection_extends connection s).trans (ih _)

/-- The callback that attaches the given connections. -/
def World.attaching (now clock : ℤ) (attached : κ → List κ) : World κ where
  now := now
  currentTimeMonotonicMillis := clock
  onDisconnected connection s := (attached connection).foldl (fun s c => attachConnection c s) s
  attaches connection := attachAll_extends (attached connection)

/-! ## The loop -/

/-- What a sweep does: a call of `checkTimeout`, a removal, an access outside of the vector. -/
inductive Event (κ : Type) where
  | check (connection : κ)
  | detach (connection : κ)
  | outside
deriving DecidableEq, Repr

variable (w : World κ)

/-- The condition of `checkTimeout`. -/
def Expired (s : Sockets κ) (connection : κ) : Prop :=
  s.timeout connection ≠ 0 ∧ s.timeout connection * 1000 < w.now - s.lastEventTime connection

instance (s : Sockets κ) (connection : κ) : Decidable (Expired w s connection) :=
  inferInstanceAs (Decidable (_ ∧ _))

def closeSocket (connection : κ) (s : Sockets κ) : Sockets κ :=
  w.onDisconnected connection
    (detachConnection connection
      { s with
        lastEventTime := Function.update s.lastEventTime connection w.currentTimeMonotonicMillis })

def checkTimeout (connection : κ) (s : Sockets κ) : List (Event κ) × Sockets κ :=
  if Expired w s connection then ([.check connection, .detach connection],
    closeSocket w connection s)
  else ([.check connection], s)

/-- The loop from index `a` with `n` rounds to go.  An access outside of the vector has no defined
result: the sweep ends there. -/
def sweepFrom : ℕ → ℕ → Sockets κ → List (Event κ)
  | 0, _, _ => []
  | n + 1, a, s =>
      match s.activeConnections[a]? with
      | none => [.outside]
      | some connection =>
          (checkTimeout w connection s).1 ++ sweepFrom n (a + 1) (checkTimeout w connection s).2

/-- The loop of `select`. -/
def sweep (s : Sockets κ) : List (Event κ) := sweepFrom w s.activeConnections.length 0 s

/-- The connection is checked exactly once, unless it is detached before a check. -/
def CheckedOnce (events : List (Event κ)) (connection : κ) : Prop :=
  events.count (.check connection) = 1 ∨
    ∃ before, before ++ [.detach connection] <+: events ∧ .check connection ∉ before

/-- What the loop is for. -/
def VisitsEach (s : Sockets κ) : Prop :=
  .outside ∉ sweep w s ∧ ∀ connection ∈ s.activeConnections, CheckedOnce (sweep w s) connection

section Loop

variable {w} {s : Sockets κ} {done rest : List κ} {connection : κ}

omit [DecidableEq κ] in
theorem getElem?_split (active : s.activeConnections = done ++ connection :: rest) :
    s.activeConnections[done.length]? = some connection := by
  rw [active, List.getElem?_append_right (Nat.le_refl _), Nat.sub_self, List.getElem?_cons_zero]

theorem sweepFrom_succ (active : s.activeConnections = done ++ connection :: rest) (n : ℕ) :
    sweepFrom w (n + 1) done.length s =
      (checkTimeout w connection s).1 ++
        sweepFrom w n (done.length + 1) (checkTimeout w connection s).2 := by
  rw [sweepFrom, getElem?_split active]

/-- A connection that is closed in its turn leaves its place to the next one. -/
theorem closeSocket_active (active : s.activeConnections = done ++ connection :: rest) :
    done ++ rest <+: (closeSocket w connection s).activeConnections := by
  have apart := s.nodup
  rw [active, List.nodup_append] at apart
  have new : connection ∉ done :=
    fun mem => apart.2.2 connection mem connection List.mem_cons_self rfl
  have erased : s.activeConnections.erase connection = done ++ rest := by
    rw [active, List.erase_append_right _ new, List.erase_cons_head]
  rw [← erased]
  exact w.attaches connection (detachConnection connection
    { s with
      lastEventTime := Function.update s.lastEventTime connection w.currentTimeMonotonicMillis })

theorem checkTimeout_expired (expired : Expired w s connection) :
    checkTimeout w connection s = ([.check connection, .detach connection],
      closeSocket w connection s) := by
  rw [checkTimeout, if_pos expired]

theorem checkTimeout_live (live : ¬ Expired w s connection) :
    checkTimeout w connection s = ([.check connection], s) := by
  rw [checkTimeout, if_neg live]

/-- No event of the list is about the connection. -/
def Untouched (connection : κ) (events : List (Event κ)) : Prop :=
  .check connection ∉ events ∧ .detach connection ∉ events

theorem Untouched.not_checkedOnce {events : List (Event κ)}
    (untouched : Untouched connection events) :
    ¬ CheckedOnce events connection := by
  rintro (once | ⟨before, within, -⟩)
  · rw [List.count_eq_zero_of_not_mem untouched.1] at once
    exact Nat.zero_ne_one once
  · apply untouched.2
    exact within.subset (List.mem_append_right _ (List.mem_singleton_self _))

theorem untouched_checkTimeout {other : κ} (ne : connection ≠ other) :
    Untouched connection (checkTimeout w other s).1 := by
  rw [checkTimeout]
  split_ifs <;> simp [Untouched, ne]

omit [DecidableEq κ] in
theorem Untouched.append {first second : List (Event κ)} (before : Untouched connection first)
    (after : Untouched connection second) : Untouched connection (first ++ second) := by
  obtain ⟨unchecked, attached⟩ := before
  obtain ⟨unchecked', attached'⟩ := after
  simp [Untouched, unchecked, attached, unchecked', attached']

/-- What the index has passed stays passed: the sweep never comes back to it. -/
theorem untouched_of_passed (n a : ℕ) (passed : connection ∈ s.activeConnections.take a) :
    Untouched connection (sweepFrom w n a s) := by
  induction n generalizing s a with
  | zero => exact ⟨List.not_mem_nil, List.not_mem_nil⟩
  | succ n ih =>
    by_cases within : a < s.activeConnections.length
    · have split : s.activeConnections =
          s.activeConnections.take a ++ s.activeConnections[a] ::
            s.activeConnections.drop (a + 1) := by
        rw [← List.drop_eq_getElem_cons within, List.take_append_drop]
      have length : (s.activeConnections.take a).length = a :=
        List.length_take_of_le (Nat.le_of_lt within)
      have apart := s.nodup
      rw [split, List.nodup_append] at apart
      have ne : connection ≠ s.activeConnections[a] :=
        apart.2.2 connection passed _ List.mem_cons_self
      have round := sweepFrom_succ (w := w) split n
      rw [length] at round
      rw [round]
      apply (untouched_checkTimeout ne).append
      apply ih
      by_cases expired : Expired w s s.activeConnections[a]
      · -- the ones in front keep their places when the one at the index goes
        rw [checkTimeout_expired expired]
        have front :
            s.activeConnections.take a <+:
            (closeSocket w s.activeConnections[a] s).activeConnections :=
          (List.prefix_append _ _).trans (closeSocket_active split)
        rw [List.prefix_iff_eq_take, length] at front
        rw [front] at passed
        exact List.take_subset_take_left _ (Nat.le_succ a) passed
      · rw [checkTimeout_live expired]
        exact List.take_subset_take_left _ (Nat.le_succ a) passed
    · rw [sweepFrom, List.getElem?_eq_none (Nat.le_of_not_lt within)]
      simp [Untouched]

/-- An expired connection that is not the last one costs the next one its check. -/
theorem exists_untouched (active : s.activeConnections = done ++ rest)
    (expired : ∃ connection ∈ rest.dropLast, Expired w s connection) :
    ∃ next ∈ rest, Untouched next (sweepFrom w rest.length done.length s) := by
  induction rest generalizing done with
  | nil =>
    obtain ⟨connection, mem, -⟩ := expired
    exact absurd mem List.not_mem_nil
  | cons first rest ih =>
    rw [List.length_cons, sweepFrom_succ active]
    have apart := s.nodup
    rw [active, List.nodup_append, List.nodup_cons] at apart
    cases rest with
    | nil =>
      obtain ⟨connection, mem, -⟩ := expired
      exact absurd mem List.not_mem_nil
    | cons next rest =>
      by_cases closed : Expired w s first
      · refine ⟨next, List.mem_cons_of_mem _ List.mem_cons_self, ?_⟩
        have ne : next ≠ first := fun same => apart.2.1.1 (same ▸ List.mem_cons_self)
        apply (untouched_checkTimeout ne).append
        apply untouched_of_passed
        rw [checkTimeout_expired closed]
        obtain ⟨more, active'⟩ := closeSocket_active (w := w) active
        rw [← active', List.append_assoc, List.take_length_add_append]
        exact List.mem_append_right _ List.mem_cons_self
      · have later : ∃ connection ∈ (next :: rest).dropLast, Expired w s connection := by
          obtain ⟨connection, mem, old⟩ := expired
          rcases List.mem_cons.1 mem with rfl | mem
          · exact absurd old closed
          · exact ⟨connection, mem, old⟩
        have active' : s.activeConnections = (done ++ [first]) ++ next :: rest := by
          rw [active, List.append_assoc, List.singleton_append]
        obtain ⟨missed, mem, untouched⟩ := ih active' later
        refine ⟨missed, List.mem_cons_of_mem _ mem, ?_⟩
        have ne : missed ≠ first := fun same => apart.2.1.1 (same ▸ mem)
        rw [List.length_append, List.length_singleton] at untouched
        apply (untouched_checkTimeout ne).append
        rwa [checkTimeout_live closed]

/-- Without such a connection the loop checks one after the other; the last one may go. -/
theorem sweepFrom_live (active : s.activeConnections = done ++ rest)
    (live : ∀ connection ∈ rest.dropLast, ¬ Expired w s connection) :
    ∃ last, sweepFrom w rest.length done.length s = rest.map .check ++ last ∧
      ∀ event ∈ last, ∃ c, event = .detach c := by
  induction rest generalizing done with
  | nil => exact ⟨[], rfl, by simp⟩
  | cons first rest ih =>
    rw [List.length_cons, sweepFrom_succ active]
    cases rest with
    | nil =>
      by_cases closed : Expired w s first
      · rw [checkTimeout_expired closed]
        exact ⟨[.detach first], by simp [sweepFrom], by simp⟩
      · rw [checkTimeout_live closed]
        exact ⟨[], by simp [sweepFrom], by simp⟩
    | cons next rest =>
      have active' : s.activeConnections = (done ++ [first]) ++ next :: rest := by
        rw [active, List.append_assoc, List.singleton_append]
      obtain ⟨last, run, only⟩ := ih active' fun c mem => live c (List.mem_cons_of_mem _ mem)
      rw [List.length_append, List.length_singleton] at run
      refine ⟨last, ?_, only⟩
      rw [checkTimeout_live (live first List.mem_cons_self), run]
      rfl

end Loop

/-- The sweep visits each active connection once exactly if none but the last one has expired. -/
theorem visitsEach_iff (w : World κ) (s : Sockets κ) :
    VisitsEach w s ↔ ∀ connection ∈ s.activeConnections.dropLast, ¬ Expired w s connection := by
  have active : s.activeConnections = [] ++ s.activeConnections := rfl
  constructor
  · rintro ⟨-, once⟩ connection mem expired
    obtain ⟨next, mem, untouched⟩ := exists_untouched active ⟨connection, mem, expired⟩
    exact untouched.not_checkedOnce (once next mem)
  · intro live
    obtain ⟨last, run, only⟩ := sweepFrom_live active live
    have run : sweep w s = s.activeConnections.map .check ++ last := run
    rw [VisitsEach, run]
    constructor
    · intro mem
      rcases List.mem_append.1 mem with mem | mem
      · simp at mem
      · obtain ⟨c, same⟩ := only _ mem
        cases same
    · intro connection mem
      left
      have unchecked : .check connection ∉ last := by
        intro mem
        obtain ⟨c, same⟩ := only _ mem
        cases same
      have checks : (s.activeConnections.map Event.check).Nodup := by
        apply s.nodup.map
        intro a b same
        cases same
        rfl
      rw [List.count_append, List.count_eq_zero_of_not_mem unchecked, Nat.add_zero]
      exact List.count_eq_one_of_mem checks (List.mem_map_of_mem mem)

/-- Two connections of which the first has been silent for ten seconds. -/
def silentFirst : Sockets ℕ where
  activeConnections := [0, 1]
  nodup := by decide
  timeout _ := 8
  lastEventTime connection := if connection = 0 then 0 else 9000

/-- The second connection moves to the place that was checked, and the loop reads behind the end. -/
theorem not_visitsEach_silentFirst :
    ¬ VisitsEach (.attaching 10000 10000 fun _ => []) silentFirst := by
  rintro ⟨within, -⟩
  revert within
  decide

end Mtproto.Tgnet.Sweep
