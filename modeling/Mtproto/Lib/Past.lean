import Mathlib.Data.List.Basic

/-!
Records that grow at their end: what has happened since something else did, and what holds of every
entry and the past in front of it.  Both are read off the last entry (`since_snoc`,
`eachPast_snoc`).
-/

namespace Mtproto.Lib

variable {α : Type}

/-- There is an entry with `P`, and none with `Q` behind it. -/
def Since (P Q : α → Prop) (l : List α) : Prop :=
  ∃ front a back, l = front ++ a :: back ∧ P a ∧ ∀ b ∈ back, ¬ Q b

/-- Every entry is as it should be after what is in front of it. -/
def EachPast (R : List α → α → Prop) (l : List α) : Prop := ∀ front a back, l = front ++ a :: back →
    R front a

theorem split_snoc {l front back : List α} {a b : α} (split : l ++ [b] = front ++ a :: back) :
    (∃ rest, back = rest ++ [b] ∧ l = front ++ a :: rest) ∨ (back = [] ∧ a = b ∧ l = front) := by
  rcases List.eq_nil_or_concat' back with rfl | ⟨rest, c, rfl⟩
  · obtain ⟨rfl, same⟩ := List.append_inj' split rfl
    exact .inr ⟨rfl, (List.singleton_inj.1 same).symm, rfl⟩
  · rw [← List.cons_append, ← List.append_assoc] at split
    obtain ⟨rfl, same⟩ := List.append_inj' split rfl
    obtain rfl := List.singleton_inj.1 same
    exact .inl ⟨rest, rfl, rfl⟩

variable {P Q : α → Prop} {R : List α → α → Prop}

theorem not_since_nil : ¬ Since P Q [] := by
  rintro ⟨front, a, back, split, -⟩
  simp at split

theorem since_snoc {l : List α} {a : α} : Since P Q (l ++ [a]) ↔ P a ∨ (Since P Q l ∧ ¬ Q a) := by
  constructor
  · rintro ⟨front, b, back, split, holds, none⟩
    rcases split_snoc split with ⟨rest, rfl, rfl⟩ | ⟨rfl, rfl, rfl⟩
    · refine .inr ⟨⟨front, b, rest, rfl, holds, fun c mem => none c (by simp [mem])⟩,
        none a (by simp)⟩
    · exact .inl holds
  · rintro (holds | ⟨⟨front, b, back, rfl, holds, none⟩, last⟩)
    · exact ⟨l, a, [], rfl, holds, by simp⟩
    · refine ⟨front, b, back ++ [a], by simp, holds, fun c mem => ?_⟩
      rcases List.mem_append.1 mem with mem | mem
      · exact none c mem
      · rw [List.mem_singleton.1 mem]
        exact last

theorem eachPast_nil : EachPast R [] := by
  intro front a back split
  simp at split

theorem eachPast_snoc {l : List α} {a : α} : EachPast R (l ++ [a]) ↔ EachPast R l ∧ R l a := by
  constructor
  · intro each
    refine ⟨fun front b back split => each front b (back ++ [a]) ?_, each l a [] rfl⟩
    rw [split, List.append_assoc, List.cons_append]
  · rintro ⟨each, last⟩ front b back split
    rcases split_snoc split with ⟨rest, rfl, rfl⟩ | ⟨rfl, rfl, rfl⟩
    · exact each front b rest rfl
    · exact last

end Mtproto.Lib
