import Mathlib.Data.List.Basic

/-!
Finite maps as lists of entries in the order of their keys, the order in which a loop visits them.
-/

namespace Mtproto.Lib

variable {κ ν : Type} [DecidableEq κ]

/-- A list of entries, written in the order of the keys. -/
abbrev OrderedMap (κ ν : Type) := List (κ × ν)

namespace OrderedMap

/-- The entry of a key. -/
def find (m : OrderedMap κ ν) (k : κ) : Option ν :=
  match m with
  | [] => none
  | (k', v) :: rest => if k' = k then some v else find rest k

theorem mem_of_find {m : OrderedMap κ ν} {k : κ} {v : ν} (found : m.find k = some v) :
    (k, v) ∈ m := by
  induction m with
  | nil => simp [find] at found
  | cons entry rest ih =>
      obtain ⟨k', v'⟩ := entry
      simp only [find] at found
      split at found
      · rename_i same
        simp only [Option.some.injEq] at found
        simp [same, found]
      · exact List.mem_cons_of_mem _ (ih found)

/-- Drops the entry of a key. -/
def erase (m : OrderedMap κ ν) (k : κ) : OrderedMap κ ν := m.filter fun entry => entry.1 ≠ k

theorem find_erase (m : OrderedMap κ ν) (k j : κ) :
    (m.erase k).find j = if j = k then none else m.find j := by
  induction m with
  | nil => simp [erase, find]
  | cons entry rest ih =>
      obtain ⟨k', v'⟩ := entry
      rw [erase] at ih ⊢
      by_cases same : k' = k
      · rw [List.filter_cons_of_neg (by simp [same]), ih]
        by_cases other : j = k
        · simp [other]
        · rw [if_neg other, if_neg other, find, if_neg (by rw [same]; exact Ne.symm other)]
      · rw [List.filter_cons_of_pos (by simp [same]), find, ih, find]
        split_ifs with here there
        · exact absurd (here.trans there) same
        · rfl
        · rfl
        · rfl

variable [LT κ] [DecidableLT κ]

/-- Sets the entry of a key. -/
def insert (m : OrderedMap κ ν) (k : κ) (v : ν) : OrderedMap κ ν :=
  match m with
  | [] => [(k, v)]
  | (k', v') :: rest =>
      if k' = k then (k, v) :: rest
      else if k < k' then (k, v) :: (k', v') :: rest
      else (k', v') :: insert rest k v

@[simp] theorem find_insert_self (m : OrderedMap κ ν) (k : κ) (v : ν) :
    (m.insert k v).find k = some v := by
  induction m with
  | nil => simp [insert, find]
  | cons entry rest ih =>
      obtain ⟨k', v'⟩ := entry
      simp only [insert]
      split
      · simp [find]
      · split
        · simp [find]
        · rename_i ne _
          simp [find, ne, ih]

theorem find_insert_of_ne (m : OrderedMap κ ν) {k j : κ} (v : ν) (ne : j ≠ k) :
    (m.insert k v).find j = m.find j := by
  induction m with
  | nil => simp [insert, find, ne.symm]
  | cons entry rest ih =>
      obtain ⟨k', v'⟩ := entry
      simp only [insert]
      split
      · rename_i same
        subst same
        simp [find, ne.symm]
      · split
        · simp [find, ne.symm]
        · simp [find, ih]

theorem find_insert (m : OrderedMap κ ν) (k j : κ) (v : ν) :
    (m.insert k v).find j = if j = k then some v else m.find j := by
  split
  · rename_i same
    rw [same, find_insert_self]
  · rename_i ne
    exact find_insert_of_ne m v ne

theorem mem_insert {m : OrderedMap κ ν} {k : κ} {v : ν} {entry : κ × ν}
    (mem : entry ∈ m.insert k v) : entry = (k, v) ∨ entry ∈ m := by
  induction m with
  | nil => exact .inl (by simpa [insert] using mem)
  | cons head rest ih =>
      obtain ⟨k', v'⟩ := head
      simp only [insert] at mem
      split at mem
      · rcases List.mem_cons.mp mem with same | mem
        · exact .inl same
        · exact .inr (List.mem_cons_of_mem _ mem)
      · split at mem
        · rcases List.mem_cons.mp mem with same | mem
          · exact .inl same
          · exact .inr mem
        · rcases List.mem_cons.mp mem with same | mem
          · exact .inr (by simp [same])
          · rcases ih mem with same | mem
            · exact .inl same
            · exact .inr (List.mem_cons_of_mem _ mem)

end OrderedMap

end Mtproto.Lib
