import Mathlib.Data.List.TakeWhile
import Mathlib.Order.Lattice

/-!
# Agendas

Lists in the order of the times of their entries, in which a new entry comes behind those of its own
time.
-/

namespace Mtproto.Lib

variable {α κ : Type} [LinearOrder κ] {time time' : α → κ} {a : α} {as bs : List α} {now : κ}

/-- The entries come in the order of their times. -/
def Timely (time : α → κ) (as : List α) : Prop := as.Pairwise fun a b => time a ≤ time b

theorem Timely.congr (timely : Timely time as) (same : ∀ a ∈ as, time' a = time a) :
    Timely time' as := by
  refine List.Pairwise.imp_of_mem (fun {a b} left right le => ?_) timely
  rw [same a left, same b right]
  exact le

namespace Agenda

/-- The entries with a new one. -/
def place (time : α → κ) (a : α) (as : List α) : List α :=
  as.takeWhile (time · ≤ time a) ++ a :: as.dropWhile (time · ≤ time a)

theorem place_perm : (place time a as).Perm (a :: as) := by
  have whole := List.takeWhile_append_dropWhile (p := (time · ≤ time a)) (l := as)
  have perm : (place time a as).Perm
      (a :: (as.takeWhile (time · ≤ time a) ++ as.dropWhile (time · ≤ time a))) :=
    List.perm_middle
  rwa [whole] at perm

theorem filter_place {p : α → Bool} (off : p a = false) :
    (place time a as).filter p = as.filter p := by
  rw [place, List.filter_append, List.filter_cons_of_neg (by simp [off]), ← List.filter_append,
    List.takeWhile_append_dropWhile]

/-- What is not before an entry of an agenda comes no later. -/
theorem lt_of_mem_dropWhile (timely : Timely time as) {b : α}
    (mem : b ∈ as.dropWhile (time · ≤ now)) :
    now < time b := by
  induction as with
  | nil => simp at mem
  | cons c cs ih =>
      rw [Timely, List.pairwise_cons] at timely
      by_cases le : time c ≤ now
      · rw [List.dropWhile_cons_of_pos (by simpa using le)] at mem
        exact ih timely.2 mem
      · rw [List.dropWhile_cons_of_neg (by simpa using le)] at mem
        rcases List.mem_cons.1 mem with rfl | mem
        · exact not_le.1 le
        · exact lt_of_lt_of_le (not_le.1 le) (timely.1 b mem)

theorem le_of_mem_takeWhile {b : α} (mem : b ∈ as.takeWhile (time · ≤ now)) : time b ≤ now := by
  simpa using List.mem_takeWhile_imp mem

theorem timely_place (timely : Timely time as) : Timely time (place time a as) := by
  have both := timely
  rw [Timely, ← List.takeWhile_append_dropWhile (p := (time · ≤ time a)) (l := as),
    List.pairwise_append] at both
  obtain ⟨front, back, cross⟩ := both
  rw [Timely, place, List.pairwise_append, List.pairwise_cons]
  refine ⟨front, ⟨fun b mem => le_of_lt (lt_of_mem_dropWhile timely mem), back⟩,
    fun b left c right => ?_⟩
  rcases List.mem_cons.1 right with rfl | right
  · exact le_of_mem_takeWhile left
  · exact cross b left c right

theorem place_append_left (later : ∃ b ∈ as, ¬ time b ≤ time a) :
    place time a (as ++ bs) = place time a as ++ bs := by
  obtain ⟨b, mem, later⟩ := later
  have stops : ∃ b ∈ as, ¬ decide (time b ≤ time a) = true := ⟨b, mem, by simpa using later⟩
  have kept : as.takeWhile (time · ≤ time a) ≠ as := fun whole => by
    rw [List.takeWhile_eq_self_iff] at whole
    exact later (by simpa using whole b mem)
  have left : as.dropWhile (time · ≤ time a) ≠ [] := fun empty => by
    rw [List.dropWhile_eq_nil_iff] at empty
    exact later (by simpa using empty b mem)
  have length : ¬ (as.takeWhile (time · ≤ time a)).length = as.length := fun whole =>
    kept ((List.takeWhile_prefix _).eq_of_length whole)
  rw [place, place, List.takeWhile_append, if_neg length, List.dropWhile_append]
  simp [left]

theorem place_append_right (before : ∀ b ∈ as, time b ≤ time a) :
    place time a (as ++ bs) = as ++ place time a bs := by
  have front : as.takeWhile (time · ≤ time a) = as :=
    List.takeWhile_eq_self_iff.2 fun b mem => by simpa using before b mem
  have back : as.dropWhile (time · ≤ time a) = [] :=
    List.dropWhile_eq_nil_iff.2 fun b mem => by simpa using before b mem
  rw [place, place, List.takeWhile_append, if_pos (by rw [front]), List.dropWhile_append, back]
  simp

end Agenda

end Mtproto.Lib
