import Mathlib.Data.List.Basic

/-!
# Names in nested scopes

A block-structured program, as far as names go: declarations, references to locals, references to
names from outside, and the borders of blocks.  `All P` says that `P` holds of every event with the
scopes it happens in, the innermost first; `after` is where the events lead.
-/

namespace Mtproto.Scopes

/-- What happens to names: `τ` are the locals, `ν` the names from outside. -/
inductive Event (τ ν : Type) where
  | declare (x : τ)
  | refer (x : τ)
  | outside (name : ν)
  | enter
  | leave
  deriving DecidableEq, Repr

variable {τ σ ν : Type}

namespace Event

/-- The scopes after an event. -/
def next (scopes : List (List τ)) : Event τ ν → List (List τ)
  | declare x => (x :: scopes.headD []) :: scopes.tail
  | enter => [] :: scopes
  | leave => scopes.tail
  | _ => scopes

def map (f : τ → σ) : Event τ ν → Event σ ν
  | declare x => declare (f x)
  | refer x => refer (f x)
  | outside name => outside name
  | enter => enter
  | leave => leave

end Event

def after (scopes : List (List τ)) (events : List (Event τ ν)) : List (List τ) :=
  events.foldl Event.next scopes

/-- Every event happens in scopes that suit it. -/
def All (P : List (List τ) → Event τ ν → Prop) : List (List τ) → List (Event τ ν) → Prop
  | _, [] => True
  | scopes, e :: events => P scopes e ∧ All P (e.next scopes) events

instance instDecidableAll {P : List (List τ) → Event τ ν → Prop}
    [∀ scopes e, Decidable (P scopes e)] :
    (scopes : List (List τ)) → (events : List (Event τ ν)) → Decidable (All P scopes events)
  | _, [] => isTrue trivial
  | scopes, e :: events =>
      have := instDecidableAll (P := P) (e.next scopes) events
      inferInstanceAs (Decidable (P scopes e ∧ All P (e.next scopes) events))

variable {P : List (List τ) → Event τ ν → Prop} {scopes : List (List τ)}

@[simp] theorem all_nil : All P scopes [] ↔ True := Iff.rfl

@[simp] theorem all_cons {e : Event τ ν} {events : List (Event τ ν)} :
    All P scopes (e :: events) ↔ P scopes e ∧ All P (e.next scopes) events := Iff.rfl

@[simp] theorem after_nil : after scopes ([] : List (Event τ ν)) = scopes := rfl

@[simp] theorem after_cons {e : Event τ ν} {events : List (Event τ ν)} :
    after scopes (e :: events) = after (e.next scopes) events := rfl

theorem after_append {events events' : List (Event τ ν)} :
    after scopes (events ++ events') = after (after scopes events) events' := List.foldl_append

theorem all_append {events events' : List (Event τ ν)} :
    All P scopes (events ++ events') ↔ All P scopes events ∧
      All P (after scopes events) events' := by
  induction events generalizing scopes with
  | nil => simp
  | cons e events ih => rw [List.cons_append, all_cons, all_cons, ih, after_cons, and_assoc]

@[simp] theorem after_outside (names : List ν) :
    after scopes (names.map Event.outside) = scopes := by
  induction names with
  | nil => rfl
  | cons name names ih => exact ih

theorem all_outside {names : List ν} :
    All P scopes (names.map Event.outside) ↔ ∀ name ∈ names, P scopes (.outside name) := by
  induction names with
  | nil => simp
  | cons name names ih =>
      rw [List.map_cons, all_cons, List.forall_mem_cons]
      exact and_congr_right fun _ => ih

/-- What holds of every element and those in front of it. -/
theorem forall_split_cons {α : Type} {R : List α → α → Prop} {a : α} {l : List α} :
    (∀ front b back, a :: l = front ++ b :: back → R front b) ↔
      R [] a ∧ ∀ front b back, l = front ++ b :: back → R (a :: front) b := by
  refine ⟨fun h => ⟨h [] a l rfl, fun front b back hl => h (a :: front) b back (by rw [hl]; rfl)⟩,
    ?_⟩
  rintro ⟨hhead, htail⟩ front b back hl
  cases front with
  | nil =>
      obtain ⟨rfl, -⟩ := List.cons.inj hl
      exact hhead
  | cons c front =>
      obtain ⟨rfl, hrest⟩ := List.cons.inj hl
      exact htail front b back hrest

theorem next_map (f : τ → σ) (e : Event τ ν) (scopes : List (List τ)) :
    (e.map f).next (scopes.map (List.map f)) = (e.next scopes).map (List.map f) := by
  cases scopes <;> cases e <;> simp [Event.map, Event.next]

/-- What is said about the images of locals is said about the locals. -/
theorem all_map {R : List (List σ) → Event σ ν → Prop} (f : τ → σ) (events : List (Event τ ν))
    (scopes : List (List τ)) :
    All R (scopes.map (List.map f)) (events.map (Event.map f)) ↔
      All (fun scopes e => R (scopes.map (List.map f)) (e.map f)) scopes events := by
  induction events generalizing scopes with
  | nil => rfl
  | cons e events ih => rw [List.map_cons, all_cons, all_cons, next_map, ih]

end Mtproto.Scopes
