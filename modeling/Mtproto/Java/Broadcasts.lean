import Mathlib.Data.List.Nodup
import Mtproto.Java.NotificationCenter

/-!
# Whom a notification reaches

However the callbacks add and remove observers and post again, a loop calls the observers that were
registered when the outermost loop began, each once and in order; what they asked for happens when
that loop ends, the removals first (`broadcasts_exact`).
-/

namespace Mtproto.Java

open Lib Program

variable {α : Type} [DecidableEq α] {c c' : NotificationCenter α}

/-! ## Lists of observers -/

/-- `addObserver` on a list, for one observer after the other. -/
def addAll (objects : List α) (added : List α) : List α :=
  added.foldl (fun objects o => if o ∈ objects then objects else objects ++ [o]) objects

theorem mem_addAll {objects added : List α} {o : α} :
    o ∈ addAll objects added ↔ o ∈ objects ∨ o ∈ added := by
  induction added generalizing objects with
  | nil => simp [addAll]
  | cons first added ih =>
    have step : addAll objects (first :: added) =
        addAll (if first ∈ objects then objects else objects ++ [first]) added := rfl
    rw [step, ih, List.mem_cons]
    split_ifs with mem
    · constructor
      · rintro (here | there)
        · exact .inl here
        · exact .inr (.inr there)
      · rintro (here | rfl | there)
        · exact .inl here
        · exact .inl mem
        · exact .inr there
    · rw [List.mem_append, List.mem_singleton, or_assoc]

theorem nodup_addAll {objects added : List α} (nodup : objects.Nodup) :
    (addAll objects added).Nodup := by
  induction added generalizing objects with
  | nil => exact nodup
  | cons first added ih =>
    have step : addAll objects (first :: added) =
        addAll (if first ∈ objects then objects else objects ++ [first]) added := rfl
    rw [step]
    apply ih
    split_ifs with mem
    · exact nodup
    · exact nodup.append (List.nodup_singleton first) (by simpa using mem)

/-! ## Tables -/

section Tables

omit [DecidableEq α]

variable {m : OrderedMap ℕ (List α)} {id : ℕ}

theorem entries_insert (m : OrderedMap ℕ (List α)) (id other : ℕ) (objects : List α) :
    entries (m.insert id objects) other = if other = id then objects else entries m other := by
  rw [entries, OrderedMap.find_insert]
  split_ifs <;> rfl

theorem entries_cons (k : ℕ) (objects : List α) (m : OrderedMap ℕ (List α)) (id : ℕ) :
    entries ((k, objects) :: m) id = if k = id then objects else entries m id := by
  rw [entries, OrderedMap.find]
  split_ifs <;> rfl

/-- The entries are in the order of their keys. -/
def Keyed (m : OrderedMap ℕ (List α)) : Prop := m.Pairwise fun entry entry' => entry.1 < entry'.1

theorem Keyed.insert (keyed : Keyed m) (k : ℕ) (objects : List α) : Keyed (m.insert k objects) := by
  induction m with
  | nil => exact List.pairwise_singleton _ _
  | cons entry m ih =>
    obtain ⟨k', objects'⟩ := entry
    obtain ⟨first, rest⟩ := List.pairwise_cons.1 keyed
    simp only [OrderedMap.insert]
    split_ifs with same less
    · rw [← same]
      exact List.pairwise_cons.2 ⟨first, rest⟩
    · refine List.pairwise_cons.2 ⟨fun entry mem => ?_, keyed⟩
      rcases List.mem_cons.1 mem with rfl | mem
      · exact less
      · exact Nat.lt_trans less (first entry mem)
    · refine List.pairwise_cons.2 ⟨fun entry mem => ?_, ih rest⟩
      rcases OrderedMap.mem_insert mem with rfl | mem
      · exact Nat.lt_of_le_of_ne (Nat.not_lt.1 less) same
      · exact first entry mem

/-- A key in front of all others has no other entry. -/
theorem entries_eq_nil (first : ∀ entry ∈ m, id < entry.1) : entries m id = [] := by
  rw [entries]
  cases found : m.find id with
  | none => rfl
  | some objects => exact absurd (first _ (OrderedMap.mem_of_find found)) (Nat.lt_irrefl id)

end Tables

/-! ## The end of the outermost loop -/

/-- Only the observers differ. -/
structure Settling (c c' : NotificationCenter α) : Prop where
  removeAfterBroadcast : c'.removeAfterBroadcast = c.removeAfterBroadcast
  addAfterBroadcast : c'.addAfterBroadcast = c.addAfterBroadcast
  broadcasting : c'.broadcasting = c.broadcasting
  frames : c'.frames = c.frames
  registered : c'.registered = c.registered
  removed : c'.removed = c.removed
  added : c'.added = c.added

omit [DecidableEq α] in
theorem Settling.trans {c'' : NotificationCenter α} (first : Settling c c')
    (second : Settling c' c'') : Settling c c'' :=
  ⟨second.1.trans first.1, second.2.trans first.2, second.3.trans first.3, second.4.trans first.4,
    second.5.trans first.5, second.6.trans first.6, second.7.trans first.7⟩

theorem removeObserver_spec (idle : c.broadcasting = 0) (o : α) (id : ℕ) :
    Settling c (c.removeObserver o id) ∧ ∀ other, entries (c.removeObserver o id).observers other =
      if other = id then (entries c.observers id).erase o else entries c.observers other := by
  rw [NotificationCenter.removeObserver, if_neg (by simp [idle])]
  split
  · rename_i objects found
    refine ⟨⟨rfl, rfl, rfl, rfl, rfl, rfl, rfl⟩, fun other => ?_⟩
    have here : entries c.observers id = objects := by rw [entries, found]; rfl
    rw [entries_insert, here]
  · rename_i missing
    refine ⟨⟨rfl, rfl, rfl, rfl, rfl, rfl, rfl⟩, fun other => ?_⟩
    have here : entries c.observers id = [] := by rw [entries, missing]; rfl
    split_ifs with same
    · rw [same, here, List.erase_nil]
    · rfl

theorem addObserver_spec (idle : c.broadcasting = 0) (o : α) (id : ℕ) :
    Settling c (c.addObserver o id) ∧ ∀ other, entries (c.addObserver o id).observers other =
      if other = id then addAll (entries c.observers id) [o] else entries c.observers other := by
  rw [NotificationCenter.addObserver, if_neg (by simp [idle])]
  exact ⟨⟨rfl, rfl, rfl, rfl, rfl, rfl, rfl⟩, fun other => entries_insert _ _ _ _⟩

omit [DecidableEq α] in
/-- A change of one list for one observer after the other. -/
theorem foldl_observers {act : NotificationCenter α → α → NotificationCenter α}
    {change : List α → List α → List α}
    {id : ℕ} (nil : ∀ objects, change objects [] = objects)
    (cons : ∀ objects o os, change objects (o :: os) = change (change objects [o]) os)
    (spec : ∀ c : NotificationCenter α, c.broadcasting = 0 → ∀ o, Settling c (act c o) ∧ ∀ other,
      entries (act c o).observers other =
        if other = id then change (entries c.observers id) [o] else entries c.observers other)
    (os : List α) (idle : c.broadcasting = 0) :
    Settling c (os.foldl act c) ∧ ∀ other, entries (os.foldl act c).observers other =
      if other = id then change (entries c.observers id) os else entries c.observers other := by
  induction os generalizing c with
  | nil =>
    refine ⟨⟨rfl, rfl, rfl, rfl, rfl, rfl, rfl⟩, fun other => ?_⟩
    split_ifs with same
    · rw [nil, same]; rfl
    · rfl
  | cons o os ih =>
    obtain ⟨first, here⟩ := spec c idle o
    obtain ⟨later, there⟩ := ih (first.broadcasting.trans idle)
    refine ⟨first.trans later, fun other => ?_⟩
    rw [List.foldl_cons, there, here, here, if_pos rfl]
    split_ifs with same
    · rw [← cons]
    · rfl

omit [DecidableEq α] in
/-- The lists of a table, one key after the other. -/
theorem foldl_table (act : ℕ → NotificationCenter α → α → NotificationCenter α)
    (change : List α → List α → List α)
    (nil : ∀ objects, change objects [] = objects)
    (cons : ∀ objects o os, change objects (o :: os) = change (change objects [o]) os)
    (spec : ∀ (id : ℕ) (c : NotificationCenter α), c.broadcasting = 0 →
      ∀ o, Settling c (act id c o) ∧ ∀ other,
      entries (act id c o).observers other =
        if other = id then change (entries c.observers id) [o] else entries c.observers other)
    {m : OrderedMap ℕ (List α)} (keyed : Keyed m) (idle : c.broadcasting = 0) :
    Settling c (m.foldl (fun c entry => entry.2.foldl (act entry.1) c) c) ∧ ∀ id,
      entries (m.foldl (fun c entry => entry.2.foldl (act entry.1) c) c).observers id =
        change (entries c.observers id) (entries m id) := by
  induction m generalizing c with
  | nil =>
    refine ⟨⟨rfl, rfl, rfl, rfl, rfl, rfl, rfl⟩, fun id => ?_⟩
    exact (nil _).symm
  | cons entry m ih =>
    obtain ⟨k, os⟩ := entry
    obtain ⟨first_key, rest⟩ := List.pairwise_cons.1 keyed
    obtain ⟨first, here⟩ := foldl_observers nil cons (spec k) os idle
    obtain ⟨later, there⟩ := ih rest (first.broadcasting.trans idle)
    refine ⟨first.trans later, fun id => ?_⟩
    rw [List.foldl_cons, there, here, entries_cons]
    by_cases same : id = k
    · subst same
      rw [if_pos rfl, if_pos rfl, entries_eq_nil first_key, nil]
    · rw [if_neg same, if_neg (Ne.symm same)]

theorem afterBroadcast_spec (idle : c.broadcasting = 0) (removes : Keyed c.removeAfterBroadcast)
    (adds : Keyed c.addAfterBroadcast) :
    c.afterBroadcast.removeAfterBroadcast = [] ∧ c.afterBroadcast.addAfterBroadcast = [] ∧
      c.afterBroadcast.broadcasting = 0 ∧ c.afterBroadcast.frames = c.frames ∧
      ∀ id, entries c.afterBroadcast.observers id =
        addAll ((entries c.observers id).diff (entries c.removeAfterBroadcast id))
          (entries c.addAfterBroadcast id) := by
  obtain ⟨removed, left⟩ :=
    foldl_table (fun id c o => c.removeObserver o id) List.diff List.diff_nil
    (fun objects o os => by rw [List.diff_cons, List.diff_cons, List.diff_nil])
    (fun id c idle o => by
      simpa only [List.diff_cons, List.diff_nil] using removeObserver_spec idle o id) removes idle
  rw [NotificationCenter.afterBroadcast]
  generalize c.removeAfterBroadcast.foldl
    (fun c entry => entry.2.foldl (fun c o => c.removeObserver o entry.1) c) c =
      between at removed left ⊢
  have still : ({ between with removeAfterBroadcast := [] } : NotificationCenter α).broadcasting =
      0 :=
    removed.broadcasting.trans idle
  have keyed : Keyed between.addAfterBroadcast := by rwa [removed.addAfterBroadcast]
  obtain ⟨added, all⟩ := foldl_table (fun id c o => c.addObserver o id) addAll (fun _ => rfl)
    (fun _ _ _ => rfl) (fun id c idle o => addObserver_spec idle o id) keyed still
  refine ⟨added.removeAfterBroadcast, rfl, added.broadcasting.trans still,
    added.frames.trans removed.frames, fun id => ?_⟩
  rw [← left, ← removed.addAfterBroadcast]
  exact all id

/-! ## Runs -/

/-- The requests for an id, in order. -/
def about (id : ℕ) (requests : List (ℕ × α)) : List α :=
  (requests.filter fun r => r.1 = id).map Prod.snd

omit [DecidableEq α] in
theorem about_append (id : ℕ) (requests : List (ℕ × α)) (k : ℕ) (o : α) :
    about id (requests ++ [(k, o)]) =
      if id = k then about id requests ++ [o] else about id requests := by
  rw [about, List.filter_append, List.map_append]
  split_ifs with same
  · simp [about, same]
  · simp [about, Ne.symm same]

omit [DecidableEq α] in
theorem mem_about {id : ℕ} {requests : List (ℕ × α)} {o : α} :
    o ∈ about id requests ↔ (id, o) ∈ requests := by
  simp [about]

/-- A table of requests has what is on record. -/
structure Collects (m : OrderedMap ℕ (List α)) (requests : List (ℕ × α)) : Prop where
  keyed : Keyed m
  entries_eq : ∀ id, entries m id = about id requests

omit [DecidableEq α] in
theorem collects_nil : Collects ([] : OrderedMap ℕ (List α)) [] := ⟨List.Pairwise.nil, fun _ => rfl⟩

omit [DecidableEq α] in
theorem Collects.insert {m : OrderedMap ℕ (List α)} {requests : List (ℕ × α)}
    (collects : Collects m requests) (id : ℕ)
    (o : α) : Collects (m.insert id (entries m id ++ [o])) (requests ++ [(id, o)]) := by
  refine ⟨collects.keyed.insert id _, fun other => ?_⟩
  rw [entries_insert, about_append]
  split_ifs with same
  · rw [same, collects.entries_eq]
  · exact collects.entries_eq other

/-- A loop has called the observers in front of its counter. -/
structure Running (c : NotificationCenter α) (f : Frame α) : Prop where
  null : f.isNull = true → entries c.observers f.id = []
  called : f.called = (entries c.observers f.id).take f.a

/-- No list has an observer twice; without a loop nothing waits; and while loops run the observers
stay as they were and the requests are on record. -/
structure Orderly (c : NotificationCenter α) : Prop where
  depth : c.broadcasting = c.frames.length
  nodup : ∀ id, (entries c.observers id).Nodup
  idle : c.frames = [] → c.removeAfterBroadcast = [] ∧ c.addAfterBroadcast = []
  kept : c.frames ≠ [] → c.observers = c.registered
  removed : c.frames ≠ [] → Collects c.removeAfterBroadcast c.removed
  added : c.frames ≠ [] → Collects c.addAfterBroadcast c.added
  running : ∀ f ∈ c.frames, Running c f

omit [DecidableEq α] in
theorem Running.objects {f : Frame α} (running : Running c f) :
    c.objects f = entries c.observers f.id := by
  rw [NotificationCenter.objects]
  split_ifs with isNull
  · exact (running.null isNull).symm
  · rfl

omit [DecidableEq α] in
/-- Outside of a loop only the lists change. -/
theorem Orderly.settling (orderly : Orderly c) (still : Settling c c') (idle : c.frames = [])
    (nodup : ∀ id, (entries c'.observers id).Nodup) : Orderly c' := by
  have frames : c'.frames = [] := still.frames.trans idle
  refine ⟨?_, nodup, ?_, fun ne => absurd frames ne, fun ne => absurd frames ne,
    fun ne => absurd frames ne, ?_⟩
  · rw [still.broadcasting, still.frames, orderly.depth]
  · rw [still.removeAfterBroadcast, still.addAfterBroadcast]
    exact fun _ => orderly.idle idle
  · rw [frames]
    simp

theorem Orderly.addObserver (orderly : Orderly c) (o : α) (id : ℕ) :
    Orderly (c.addObserver o id) := by
  by_cases busy : c.frames = []
  · have idle : c.broadcasting = 0 := by rw [orderly.depth, busy]; rfl
    obtain ⟨still, lists⟩ := addObserver_spec idle o id
    refine orderly.settling still busy fun other => ?_
    rw [lists]
    split_ifs
    · exact nodup_addAll (orderly.nodup id)
    · exact orderly.nodup other
  · have loops : c.broadcasting ≠ 0 := by
      rw [orderly.depth]
      exact fun zero => busy (List.length_eq_zero_iff.1 zero)
    rw [NotificationCenter.addObserver, if_pos loops]
    exact ⟨orderly.depth, orderly.nodup, fun none => absurd none busy, orderly.kept,
      orderly.removed,
      fun ne => (orderly.added ne).insert id o, fun f mem =>
        ⟨(orderly.running f mem).null, (orderly.running f mem).called⟩⟩

theorem Orderly.removeObserver (orderly : Orderly c) (o : α) (id : ℕ) :
    Orderly (c.removeObserver o id) := by
  by_cases busy : c.frames = []
  · have idle : c.broadcasting = 0 := by rw [orderly.depth, busy]; rfl
    obtain ⟨still, lists⟩ := removeObserver_spec idle o id
    refine orderly.settling still busy fun other => ?_
    rw [lists]
    split_ifs
    · exact (orderly.nodup id).erase o
    · exact orderly.nodup other
  · have loops : c.broadcasting ≠ 0 := by
      rw [orderly.depth]
      exact fun zero => busy (List.length_eq_zero_iff.1 zero)
    rw [NotificationCenter.removeObserver, if_pos loops]
    exact ⟨orderly.depth, orderly.nodup, fun none => absurd none busy, orderly.kept,
      fun ne => (orderly.removed ne).insert id o, orderly.added,
      fun f mem => ⟨(orderly.running f mem).null, (orderly.running f mem).called⟩⟩

omit [DecidableEq α] in
theorem Orderly.postNotificationName (orderly : Orderly c) (id : ℕ) :
    Orderly (c.postNotificationName id) := by
  have fresh : Running (c.postNotificationName id) ⟨id, (c.observers.find id).isNone, 0, []⟩ := by
    refine ⟨fun isNull => ?_, rfl⟩
    show entries c.observers id = []
    rw [entries, Option.isNone_iff_eq_none.1 isNull]
    rfl
  have running : ∀ f ∈ (c.postNotificationName id).frames,
      Running (c.postNotificationName id) f := by
    refine List.forall_mem_cons.2 ⟨fresh, fun f mem => ?_⟩
    exact ⟨(orderly.running f mem).null, (orderly.running f mem).called⟩
  have deeper : (c.postNotificationName id).broadcasting =
      (c.postNotificationName id).frames.length :=
    congrArg (· + 1) orderly.depth
  by_cases busy : c.frames = []
  · have outermost : c.broadcasting = 0 := by rw [orderly.depth, busy]; rfl
    obtain ⟨removes, adds⟩ := orderly.idle busy
    refine ⟨deeper, orderly.nodup, fun none => absurd none (List.cons_ne_nil _ _), fun _ => ?_,
      fun _ => ?_, fun _ => ?_,
      running⟩
    · exact (if_pos outermost).symm
    · simp only [NotificationCenter.postNotificationName, outermost, if_true, removes]
      exact collects_nil
    · simp only [NotificationCenter.postNotificationName, outermost, if_true, adds]
      exact collects_nil
  · have nested : c.broadcasting ≠ 0 := by
      rw [orderly.depth]
      exact fun zero => busy (List.length_eq_zero_iff.1 zero)
    refine ⟨deeper, orderly.nodup, fun none => absurd none (List.cons_ne_nil _ _), fun _ => ?_,
      fun _ => ?_, fun _ => ?_,
      running⟩
    · simp only [NotificationCenter.postNotificationName, nested, if_false]
      exact orderly.kept busy
    · simp only [NotificationCenter.postNotificationName, nested, if_false]
      exact orderly.removed busy
    · simp only [NotificationCenter.postNotificationName, nested, if_false]
      exact orderly.added busy

omit [DecidableEq α] in
theorem Orderly.notify (orderly : Orderly c) (run : c.notify = some c') : Orderly c' := by
  cases frames : c.frames with
  | nil => simp [NotificationCenter.notify, frames] at run
  | cons f rest =>
    have ne : c.frames ≠ [] := by simp [frames]
    have here := orderly.running f (by simp [frames])
    simp only [NotificationCenter.notify, frames, here.objects, Option.map_eq_some_iff] at run
    obtain ⟨o, next, rfl⟩ := run
    refine ⟨?_, orderly.nodup, fun none => absurd none (List.cons_ne_nil _ _), fun _ =>
      orderly.kept ne,
      fun _ => orderly.removed ne, fun _ => orderly.added ne,
        List.forall_mem_cons.2 ⟨⟨here.null, ?_⟩, fun g mem => ?_⟩⟩
    · rw [orderly.depth, frames]
      rfl
    · show f.called ++ [o] = (entries c.observers f.id).take (f.a + 1)
      rw [here.called, List.take_add_one, next]
      rfl
    · have other := orderly.running g (by simp [frames, mem])
      exact ⟨other.null, other.called⟩

/-- What the end of a loop leaves: the observers, unless it is the outermost one. -/
theorem Orderly.finish_frames (orderly : Orderly c) {f : Frame α} {rest : List (Frame α)}
    (frames : c.frames = f :: rest)
    (run : c.finish = some c') :
    f.called = entries c.observers f.id ∧ c'.frames = rest ∧ c'.broadcasting = rest.length ∧
      if rest = [] then
        c'.removeAfterBroadcast = [] ∧ c'.addAfterBroadcast = [] ∧
          ∀ id, entries c'.observers id =
            addAll ((entries c.observers id).diff (about id c.removed)) (about id c.added)
      else c' = { c with frames := rest, broadcasting := c.broadcasting - 1 } := by
  have ne : c.frames ≠ [] := by simp [frames]
  have here := orderly.running f (by simp [frames])
  have fewer : c.broadcasting - 1 = rest.length := by simp [orderly.depth, frames]
  simp only [NotificationCenter.finish, frames, here.objects] at run
  split_ifs at run with through outermost
  · have all : f.called = entries c.observers f.id := by
      rw [here.called, List.take_of_length_le through]
    have empty : rest = [] := by rw [← List.length_eq_zero_iff, ← fewer, outermost]
    obtain ⟨removes, adds, depth, left, lists⟩ :=
      afterBroadcast_spec (c := { c with frames := rest, broadcasting := c.broadcasting - 1 })
        outermost
        (orderly.removed ne).keyed (orderly.added ne).keyed
    obtain rfl := Option.some.inj run
    refine ⟨all, left, by rw [depth, empty]; rfl, ?_⟩
    rw [if_pos empty]
    refine ⟨removes, adds, fun id => ?_⟩
    rw [lists, (orderly.removed ne).entries_eq, (orderly.added ne).entries_eq]
  · have all : f.called = entries c.observers f.id := by
      rw [here.called, List.take_of_length_le through]
    have some_left : rest ≠ [] := by
      rintro rfl
      exact outermost fewer
    obtain rfl := Option.some.inj run
    refine ⟨all, rfl, fewer, ?_⟩
    rw [if_neg some_left]

theorem Orderly.finish (orderly : Orderly c) (run : c.finish = some c') : Orderly c' := by
  cases frames : c.frames with
  | nil => simp [NotificationCenter.finish, frames] at run
  | cons f rest =>
    have ne : c.frames ≠ [] := by simp [frames]
    obtain ⟨-, left, depth, end_of⟩ := orderly.finish_frames frames run
    split_ifs at end_of with outermost
    · subst outermost
      obtain ⟨removes, adds, lists⟩ := end_of
      refine ⟨by rw [depth, left], fun id => ?_, fun _ => ⟨removes, adds⟩,
        fun none => absurd left none,
        fun none => absurd left none, fun none => absurd left none, by simp [left]⟩
      rw [lists]
      exact nodup_addAll (orderly.nodup id).diff
    · subst end_of
      refine ⟨depth, orderly.nodup, fun none => absurd none outermost, fun _ => orderly.kept ne,
        fun _ => orderly.removed ne, fun _ => orderly.added ne, fun g mem => ?_⟩
      have other := orderly.running g (by simp [frames, show g ∈ rest from mem])
      exact ⟨other.null, other.called⟩

theorem Orderly.step {call : Call α} (orderly : Orderly c) (run : call.step c = some ((), c')) :
    Orderly c' := by
  cases call with
  | addObserver o id =>
    obtain rfl := congrArg Prod.snd (Option.some.inj run)
    exact orderly.addObserver o id
  | removeObserver o id =>
    obtain rfl := congrArg Prod.snd (Option.some.inj run)
    exact orderly.removeObserver o id
  | postNotificationName id =>
    obtain rfl := congrArg Prod.snd (Option.some.inj run)
    exact orderly.postNotificationName id
  | notify =>
    obtain ⟨_, ends, result⟩ := Option.map_eq_some_iff.1 run
    obtain rfl := congrArg Prod.snd result
    exact orderly.notify ends
  | finish =>
    obtain ⟨_, ends, result⟩ := Option.map_eq_some_iff.1 run
    obtain rfl := congrArg Prod.snd result
    exact orderly.finish ends

theorem orderly_reaches
    (reached : Reaches Call.step (· = ({} : NotificationCenter α)) (fun _ _ => True) c) :
    Orderly c := by
  apply reached.invariant
  · rintro _ rfl
    exact ⟨rfl, fun _ => List.nodup_nil, fun _ => ⟨rfl, rfl⟩, fun ne => absurd rfl ne, fun ne =>
      absurd rfl ne,
      fun ne => absurd rfl ne, by simp⟩
  · exact fun _ _ _ orderly _ run => orderly.step run

/-- A loop that ends has called exactly the observers registered when the outermost loop began, each
once and in order. The observers change only when that one ends: those added in the meantime are
there, and those removed are not unless they were added. -/
theorem broadcasts_exact {f : Frame α} {rest : List (Frame α)}
    (reached : Reaches Call.step (· = ({} : NotificationCenter α)) (fun _ _ => True) c)
    (frames : c.frames = f :: rest)
    (run : Call.finish.step c = some ((), c')) :
    f.called = entries c.registered f.id ∧ f.called.Nodup ∧
      (∀ id, (entries c'.observers id).Nodup) ∧
      if rest = [] then
        ∀ id o, o ∈ entries c'.observers id ↔
          (id, o) ∈ c.added ∨ (o ∈ entries c.registered id ∧ (id, o) ∉ c.removed)
      else c'.observers = c.registered ∧ c'.registered = c.registered := by
  have orderly := orderly_reaches reached
  have kept : c.observers = c.registered := orderly.kept (by simp [frames])
  have later := orderly.step run
  obtain ⟨_, ends, result⟩ := Option.map_eq_some_iff.1 run
  obtain rfl := congrArg Prod.snd result
  obtain ⟨called, -, -, end_of⟩ := orderly.finish_frames frames ends
  refine ⟨by rw [called, kept], ?_, later.nodup, ?_⟩
  · rw [called]
    exact orderly.nodup f.id
  split_ifs at end_of ⊢ with outermost
  · intro id o
    rw [end_of.2.2, mem_addAll, (orderly.nodup id).mem_sdiff_iff, mem_about, mem_about, kept,
      or_comm]
  · rw [end_of]
    exact ⟨kept, rfl⟩

/-- The first observer of `1` removes the second, adds a third and posts `1` again. -/
def talking : NotificationCenter ℕ where
  observers := [(1, [5, 6])]
  removeAfterBroadcast := [(1, [6])]
  addAfterBroadcast := [(1, [7])]
  broadcasting := 1
  frames := [⟨1, false, 2, [5, 6]⟩]
  registered := [(1, [5, 6])]
  removed := [(1, 6)]
  added := [(1, 7)]

theorem talking_reached :
    Reaches Call.step (· = ({} : NotificationCenter ℕ)) (fun _ _ => True) talking := by
  have start : Reaches Call.step (· = ({} : NotificationCenter ℕ)) (fun _ _ => True) {} :=
    .start rfl
  have one := start.step (i := .addObserver 5 1) trivial rfl
  have two := one.step (i := .addObserver 6 1) trivial rfl
  have post := two.step (i := .postNotificationName 1) trivial rfl
  have first := post.step (i := .notify) trivial rfl
  have remove := first.step (i := .removeObserver 6 1) trivial rfl
  have add := remove.step (i := .addObserver 7 1) trivial rfl
  have again := add.step (i := .postNotificationName 1) trivial rfl
  have inner := (again.step (i := .notify) trivial rfl).step (i := .notify) trivial rfl
  have back := inner.step (i := .finish) trivial rfl
  exact back.step (i := .notify) trivial rfl

/-- The second observer was called by both loops before it left. -/
theorem broadcasts_exact_talking :
    ∃ c', Call.finish.step talking = some ((), c') ∧ entries c'.observers 1 = [5, 7] ∧
    (∀ o, o ∈ entries c'.observers 1 ↔ (1, o) ∈ talking.added ∨
      (o ∈ entries talking.registered 1 ∧ (1, o) ∉ talking.removed)) := by
  have run : ∃ c', Call.finish.step talking = some ((), c') ∧ entries c'.observers 1 = [5, 7] :=
    ⟨_, rfl, rfl⟩
  obtain ⟨c', run, left⟩ := run
  refine ⟨c', run, left, ?_⟩
  have exact_end := (broadcasts_exact talking_reached rfl run).2.2.2
  rw [if_pos rfl] at exact_end
  exact exact_end 1

end Mtproto.Java
