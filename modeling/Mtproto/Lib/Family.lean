import Mathlib.Data.Set.Defs
import Mathlib.Logic.Function.Basic

/-!
# Families of runs

One computation is run in many contexts, the members of a family.  A comparison fixes a base, some
other members and two more, `left` and `right`; a family of values is *tied* if `left` and `right`
have the same value as soon as the others have the value of the base.  A family of computations that
may fail is *steady* if, once the base succeeds, all members succeed with tied values.  Values made
of tied parts are tied, so steady computations compose, and what is proved of the places where a
computation looks at its context carries over to whole runs.
-/

namespace Mtproto

/-- The members of a family that are compared. -/
structure Comparison (J : Type) where
  base : J
  others : Set J
  left : J
  right : J

namespace Comparison

variable {J ε α β γ : Type} (k : Comparison J)

/-- If the others have the value of the base, then `left` and `right` have the same value. -/
def Tied (r : J → α) : Prop := (∀ i ∈ k.others, r i = r k.base) → r k.left = r k.right

/-- If the base succeeds, then all members do, with tied values. -/
def Steady (p : J → Except ε α) : Prop :=
  (∃ a, p k.base = .ok a) → ∃ r, (∀ j, p j = .ok (r j)) ∧ k.Tied r

variable {k}

/-! ## Tied values -/

theorem tied_const (a : α) : k.Tied fun _ => a := fun _ => rfl

theorem Tied.map {f : α → β} {r : J → α} (h : k.Tied r) (hf : Function.Injective f) :
    k.Tied fun j => f (r j) := by
  intro hothers
  exact congrArg f (h fun i hi => hf (hothers i hi))

theorem Tied.map₂ {f : α → β → γ} {r : J → α} {s : J → β} (hr : k.Tied r) (hs : k.Tied s)
    (hf : Function.Injective2 f) : k.Tied fun j => f (r j) (s j) := by
  intro hothers
  exact congrArg₂ f (hr fun i hi => (hf (hothers i hi)).1) (hs fun i hi => (hf (hothers i hi)).2)

/-- A list of tied families is a tied family of lists. -/
theorem tied_list {rs : List (J → α)} (h : ∀ r ∈ rs, k.Tied r) :
    k.Tied fun j => rs.map fun r => r j := by
  intro hothers
  apply List.map_congr_left
  intro r hr
  exact h r hr fun i hi => List.map_inj_left.1 (hothers i hi) r hr

/-! ## Steady computations -/

theorem steady_ok {r : J → α} (h : k.Tied r) : k.Steady fun j => (.ok (r j) : Except ε α) :=
  fun _ => ⟨r, fun _ => rfl, h⟩

theorem steady_const (x : Except ε α) : k.Steady fun _ => x := by
  rintro ⟨a, ha⟩
  exact ⟨fun _ => a, fun _ => ha, tied_const a⟩

theorem Steady.bind {p : J → Except ε α} {q : J → α → Except ε β} (hp : k.Steady p)
    (hq : ∀ r, k.Tied r → k.Steady fun j => q j (r j)) : k.Steady fun j => p j >>= q j := by
  rintro ⟨b, hb⟩
  change (p k.base >>= q k.base) = .ok b at hb
  rcases ha : p k.base with e | a
  · rw [ha] at hb
    cases hb
  · obtain ⟨r, hr, htied⟩ := hp ⟨a, ha⟩
    rw [hr k.base] at hb
    obtain ⟨s, hs, hstied⟩ := hq r htied ⟨b, hb⟩
    refine ⟨s, fun j => ?_, hstied⟩
    change (p j >>= q j) = _
    rw [hr j]
    exact hs j

/-- A first step that does not look at the context. -/
theorem steady_const_bind (x : Except ε α) {q : J → α → Except ε β}
    (hq : ∀ a, k.Steady fun j => q j a) :
    k.Steady fun j => x >>= q j := by
  cases x with
  | error e =>
      rintro ⟨b, hb⟩
      cases hb
  | ok a => exact hq a

theorem Steady.map {p : J → Except ε α} (hp : k.Steady p) {f : α → β} (hf : Function.Injective f) :
    k.Steady fun j => p j >>= fun a => .ok (f a) :=
  hp.bind fun _ hr => steady_ok (hr.map hf)

theorem steady_mapM {p : J → α → Except ε β} (as : List α) (h : ∀ a ∈ as, k.Steady fun j => p j a) :
    k.Steady fun j => as.mapM (p j) := by
  induction as with
  | nil => exact steady_const (.ok [])
  | cons a as ih =>
      simp only [List.mapM_cons]
      apply (h a List.mem_cons_self).bind
      intro r hr
      apply (ih fun b hb => h b (List.mem_cons_of_mem a hb)).bind
      intro rs hrs
      exact steady_ok (hr.map₂ hrs fun _ _ _ _ h => List.cons.inj h)

/-- If the base and the others give one value, then `left` and `right` do. -/
theorem Steady.left_eq_right {p : J → Except ε α} (hp : k.Steady p) {a : α}
    (hbase : p k.base = .ok a)
    (hothers : ∀ i ∈ k.others, p i = .ok a) : ∃ b, p k.left = .ok b ∧ p k.right = .ok b := by
  obtain ⟨r, hr, htied⟩ := hp ⟨a, hbase⟩
  have hvalue : ∀ j, p j = .ok a → r j = a := by
    intro j hj
    rw [hr j] at hj
    exact Except.ok.inj hj
  have heq := htied fun i hi => by rw [hvalue i (hothers i hi), hvalue k.base hbase]
  exact ⟨r k.left, hr k.left, by rw [hr k.right, heq]⟩

end Comparison

end Mtproto
