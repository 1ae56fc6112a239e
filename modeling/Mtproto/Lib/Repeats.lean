import Mathlib.Data.List.Perm.Basic

/-!
# Repeated elements

`mark` pairs each element of a list with whether it has occurred before.  Equal elements are
interchangeable, so the marked list of a permutation is a permutation of the marked list.
-/

namespace Mtproto

variable {α : Type} [DecidableEq α]

/-- Each element with whether it is among `seen` or occurs earlier in the list. -/
def mark : List α → List α → List (α × Bool)
  | _, [] => []
  | seen, a :: l => (a, decide (a ∈ seen)) :: mark (a :: seen) l

theorem mark_cons (seen : List α) (a : α) (l : List α) :
    mark seen (a :: l) = mark seen [a] ++ mark (a :: seen) l :=
  rfl

theorem mark_of_mem {seen : List α} {a : α} (h : a ∈ seen) : mark seen [a] = [(a, true)] := by
  simp [mark, h]

theorem mark_of_not_mem {seen : List α} {a : α} (h : a ∉ seen) : mark seen [a] = [(a, false)] := by
  simp [mark, h]

theorem mark_congr {seen seen' : List α} (h : ∀ a, a ∈ seen ↔ a ∈ seen') (l : List α) :
    mark seen l = mark seen' l := by
  induction l generalizing seen seen' with
  | nil => rfl
  | cons a l ih =>
      have hcons : ∀ b, b ∈ a :: seen ↔ b ∈ a :: seen' := by simp [h]
      simp only [mark, h a, ih hcons]

theorem perm_mark {l l' : List α} (h : l.Perm l') (seen : List α) :
    (mark seen l).Perm (mark seen l') := by
  induction h generalizing seen with
  | nil => rfl
  | cons a _ ih => exact (ih (a :: seen)).cons _
  | swap a b l =>
      by_cases hab : a = b
      · rw [hab]
      · have hrest : mark (a :: b :: seen) l = mark (b :: a :: seen) l :=
          mark_congr (by simp [or_left_comm]) l
        have hba : ¬ b = a := fun h => hab h.symm
        simp only [mark, List.mem_cons, hab, hba, false_or, hrest]
        exact List.Perm.swap _ _ _
  | trans _ _ ih ih' => exact (ih seen).trans (ih' seen)

theorem map_fst_mark (seen l : List α) : (mark seen l).map Prod.fst = l := by
  induction l generalizing seen with
  | nil => rfl
  | cons a l ih => rw [mark, List.map_cons, ih]

theorem mark_append (seen l l' : List α) :
    mark seen (l ++ l') = mark seen l ++ mark (l.reverse ++ seen) l' := by
  induction l generalizing seen with
  | nil => rfl
  | cons a l ih =>
      rw [List.cons_append, mark, mark, ih]
      simp

end Mtproto
