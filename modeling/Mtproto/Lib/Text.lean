import Mathlib.Data.List.Infix
import Mathlib.Algebra.GroupWithZero.Nat

/-!
# Cutting texts at delimiters

Texts are lists.  `cut d s` splits `s` at the first occurrence of the delimiter `d`; everything else
(`before`, `after`, `beforeLast`, `afterLast`, `occurs`) is read off it.  The lemmas say where the
first occurrence is when the text is a concatenation (`cut_append`, `cut_single`), and that a word
that occurs in a concatenation at a letter it does not have occurs in one of the parts.
-/

namespace Mtproto.Text

variable {α : Type}

/-! ## Words in concatenations -/

/-- A word without the letter at a joint stands on one side of it. -/
theorem infix_append_cons {d a b : List α} {x : α} (hx : x ∉ d) (h : d <:+: a ++ x :: b) :
    d <:+: a ∨ d <:+: b := by
  obtain ⟨u, v, huv⟩ := h
  rw [List.append_assoc] at huv
  rcases List.append_eq_append_iff.1 huv with ⟨t, ht, hrest⟩ | ⟨t, ht, hrest⟩
  · rcases List.append_eq_append_iff.1 hrest with ⟨w, hw, -⟩ | ⟨w, hw, hv⟩
    · exact .inl ⟨u, w, by rw [List.append_assoc, ← hw, ← ht]⟩
    · cases w with
      | nil => exact .inl ⟨u, [], by simp_all⟩
      | cons y w =>
          obtain ⟨rfl, -⟩ := List.cons.inj hv
          exact absurd (hw ▸ by simp) hx
  · cases t with
    | nil =>
        cases d with
        | nil => exact .inl List.nil_infix
        | cons y d =>
            obtain ⟨rfl, -⟩ := List.cons.inj hrest
            simp at hx
    | cons y t =>
        obtain ⟨rfl, rfl⟩ := List.cons.inj hrest
        exact .inr ⟨t, v, by simp⟩

theorem not_infix_of_not_mem {d s : List α} {x : α} (hd : x ∈ d) (hs : x ∉ s) : ¬ d <:+: s :=
  fun h => hs (h.subset hd)

theorem singleton_infix_iff {x : α} {s : List α} : [x] <:+: s ↔ x ∈ s := by
  constructor
  · rintro ⟨a, b, rfl⟩
    simp
  · intro h
    obtain ⟨a, b, rfl⟩ := List.append_of_mem h
    exact ⟨a, b, by simp⟩

theorem infix_intercalate {d w : List α} {ws : List (List α)} (h : w ∈ ws) :
    w <:+: d.intercalate ws := by
  induction ws with
  | nil => cases h
  | cons v ws ih =>
      cases ws with
      | nil =>
          rw [List.mem_singleton.1 h]
          simp
      | cons v' ws =>
          rw [List.intercalate_cons_cons]
          rcases List.mem_cons.1 h with rfl | hrest
          · rw [List.append_assoc]
            exact (List.prefix_append w _).isInfix
          · exact (ih hrest).trans (List.suffix_append (v ++ d) _).isInfix

/-! ## Cuts -/

variable [DecidableEq α]

/-- What stands in front of the first occurrence of `d` and what stands behind it. -/
def cut (d : List α) : List α → Option (List α × List α)
  | [] => if d = [] then some ([], []) else none
  | c :: s =>
      if d.isPrefixOf (c :: s) then some ([], (c :: s).drop d.length)
      else (cut d s).map fun parts => (c :: parts.1, parts.2)

/-- Whether `d` occurs. -/
def occurs (d s : List α) : Bool := (cut d s).isSome

/-- The text in front of the first occurrence, or the whole text. -/
def before (d s : List α) : List α := ((cut d s).map Prod.fst).getD s

/-- The text behind the first occurrence, or `missing`. -/
def afterOr (missing d s : List α) : List α := ((cut d s).map Prod.snd).getD missing

/-- The text behind the first occurrence, or the whole text. -/
def after (d s : List α) : List α := afterOr s d s

/-- The text in front of the last occurrence of a letter, or the whole text. -/
def beforeLast (x : α) (s : List α) : List α := (after [x] s.reverse).reverse

/-- The text behind the last occurrence of a letter, or the whole text. -/
def afterLast (x : α) (s : List α) : List α := (before [x] s.reverse).reverse

/-- The text without a prefix that it may have. -/
def removePrefix (d s : List α) : List α := if d.isPrefixOf s then s.drop d.length else s

/-- The text without a suffix that it may have. -/
def removeSuffix (d s : List α) : List α :=
  if d.isSuffixOf s then s.take (s.length - d.length) else s

/-! ## The first occurrence -/

theorem append_of_cut {d s a b : List α} (h : cut d s = some (a, b)) : s = a ++ d ++ b := by
  induction s generalizing a with
  | nil =>
      simp only [cut] at h
      split at h
      · next hd =>
          cases h
          simp [hd]
      · cases h
  | cons c s ih =>
      rw [cut] at h
      split at h
      · next hpre =>
          cases h
          obtain ⟨t, ht⟩ := List.isPrefixOf_iff_prefix.1 hpre
          simp [← ht]
      · obtain ⟨⟨a', b'⟩, hcut, heq⟩ := Option.map_eq_some_iff.1 h
        cases heq
        simp [ih hcut]

/-- A delimiter does not stand in front of its first occurrence. -/
theorem not_infix_of_cut {d s a b : List α} (hd : d ≠ []) (h : cut d s = some (a, b)) :
    ¬ d <:+: a := by
  induction s generalizing a with
  | nil => simp [cut, hd] at h
  | cons c s ih =>
      rw [cut] at h
      split at h
      · cases h
        rwa [List.infix_nil]
      · next hpre =>
          obtain ⟨⟨a', b'⟩, hcut, heq⟩ := Option.map_eq_some_iff.1 h
          cases heq
          rw [List.infix_cons_iff, not_or]
          refine ⟨fun hfirst => hpre ?_, ih hcut⟩
          rw [List.isPrefixOf_iff_prefix, append_of_cut hcut]
          apply hfirst.trans
          rw [List.append_assoc]
          exact List.prefix_append (c :: a') _

theorem infix_of_cut {d s : List α} (h : (cut d s).isSome) : d <:+: s := by
  obtain ⟨⟨a, b⟩, hcut⟩ := Option.isSome_iff_exists.1 h
  exact ⟨a, b, (append_of_cut hcut).symm⟩

theorem isSome_cut_of_isInfix {d s : List α} (h : d <:+: s) : (cut d s).isSome := by
  induction s with
  | nil => simp [cut, List.infix_nil.1 h]
  | cons c s ih =>
      rw [cut]
      split
      · rfl
      · next hpre =>
          rw [Option.isSome_map]
          apply ih
          rcases List.infix_cons_iff.1 h with hfirst | hlater
          · exact absurd (List.isPrefixOf_iff_prefix.2 hfirst) hpre
          · exact hlater

/-- A text occurs if and only if it is a part. -/
theorem occurs_iff {d s : List α} : occurs d s = true ↔ d <:+: s :=
  ⟨infix_of_cut, isSome_cut_of_isInfix⟩

theorem not_occurs_iff {d s : List α} : occurs d s = false ↔ ¬ d <:+: s := by
  rw [← occurs_iff, Bool.not_eq_true]

theorem cut_eq_none_iff {d s : List α} : cut d s = none ↔ ¬ d <:+: s := by
  rw [← not_occurs_iff, occurs, Option.isSome_eq_false_iff, Option.isNone_iff_eq_none]

theorem before_of_cut {d s a b : List α} (h : cut d s = some (a, b)) : before d s = a := by
  rw [before, h]
  rfl

theorem after_of_cut {d s a b : List α} (h : cut d s = some (a, b)) : after d s = b := by
  rw [after, afterOr, h]
  rfl

theorem before_of_not_isInfix {d s : List α} (h : ¬ d <:+: s) : before d s = s := by
  rw [before, cut_eq_none_iff.2 h]
  rfl

theorem after_of_not_infix {d s : List α} (h : ¬ d <:+: s) : after d s = s := by
  rw [after, afterOr, cut_eq_none_iff.2 h]
  rfl

/-- The first occurrence of a delimiter whose first letter does not come again in it. -/
theorem cut_append {c : α} {d a b : List α} (hd : c ∉ d) (ha : ¬ c :: d <:+: a) :
    cut (c :: d) (a ++ c :: d ++ b) = some (a, b) := by
  induction a with
  | nil =>
      have hpre : (c :: d).isPrefixOf (c :: (d ++ b)) = true :=
        List.isPrefixOf_iff_prefix.2 (List.prefix_append (c :: d) b)
      simp [cut, hpre]
  | cons x a ih =>
      have hrest : ¬ c :: d <:+: a := fun h => ha (h.trans (List.infix_cons (List.infix_refl a)))
      have hnot : ¬ (c :: d).isPrefixOf (x :: (a ++ c :: d ++ b)) = true := by
        rw [List.isPrefixOf_iff_prefix]
        rintro ⟨t, ht⟩
        -- an occurrence here ends inside `x :: a`, or the delimiter has its first letter again
        obtain ⟨rfl, htail⟩ := List.cons.inj ht
        rw [List.append_assoc] at htail
        rcases List.append_eq_append_iff.1 htail with ⟨u, hu, -⟩ | ⟨u, hu, hv⟩
        · exact ha ⟨[], u, by simp [hu]⟩
        · cases u with
          | nil =>
              apply ha
              refine ⟨[], [], ?_⟩
              simp [hu]
          | cons y u =>
              obtain ⟨rfl, -⟩ := List.cons.inj hv
              exact hd (hu ▸ by simp)
      rw [List.cons_append, List.cons_append, cut, if_neg hnot, ih hrest]
      rfl

/-- The first occurrence of a letter. -/
theorem cut_single {x : α} {a b : List α} (ha : x ∉ a) : cut [x] (a ++ x :: b) = some (a, b) := by
  have h := cut_append (c := x) (d := []) (a := a) (b := b) (by simp) (by rwa [singleton_infix_iff])
  simpa using h

theorem occurs_single {x : α} {s : List α} : occurs [x] s = true ↔ x ∈ s := by
  rw [occurs_iff, singleton_infix_iff]

theorem not_occurs_single {x : α} {s : List α} : occurs [x] s = false ↔ x ∉ s := by
  rw [not_occurs_iff, singleton_infix_iff]

theorem before_single {x : α} {a b : List α} (ha : x ∉ a) : before [x] (a ++ x :: b) = a :=
  before_of_cut (cut_single ha)

theorem after_single {x : α} {a b : List α} (ha : x ∉ a) : after [x] (a ++ x :: b) = b :=
  after_of_cut (cut_single ha)

theorem before_of_not_mem {x : α} {s : List α} (h : x ∉ s) : before [x] s = s :=
  before_of_not_isInfix (by rwa [singleton_infix_iff])

/-! ## The last occurrence of a letter -/

theorem beforeLast_single {x : α} {a b : List α} (hb : x ∉ b) : beforeLast x (a ++ x :: b) = a := by
  rw [beforeLast, List.reverse_append, List.reverse_cons, List.append_assoc, List.singleton_append,
    after_single (by simpa using hb), List.reverse_reverse]

theorem afterLast_single {x : α} {a b : List α} (hb : x ∉ b) : afterLast x (a ++ x :: b) = b := by
  rw [afterLast, List.reverse_append, List.reverse_cons, List.append_assoc, List.singleton_append,
    before_single (by simpa using hb), List.reverse_reverse]

theorem infix_of_mem_splitOn {x : α} {s w : List α} (h : w ∈ s.splitOn x) : w <:+: s := by
  have hw := infix_intercalate (d := [x]) h
  rwa [List.intercalate_splitOn] at hw

theorem not_mem_of_mem_splitOn {x : α} {s w : List α} (h : w ∈ s.splitOn x) : x ∉ w := by
  induction s generalizing w with
  | nil =>
      rw [List.splitOn_nil, List.mem_singleton] at h
      simp [h]
  | cons c s ih =>
      rw [List.splitOn_cons_eq_if_modifyHead] at h
      split at h
      · rcases List.mem_cons.1 h with rfl | hrest
        · simp
        · exact ih hrest
      · next hc =>
          obtain ⟨v, vs, hvs⟩ := List.exists_cons_of_ne_nil (List.splitOn_ne_nil x s)
          rw [hvs] at ih h
          rcases List.mem_cons.1 h with rfl | hrest
          · rw [List.mem_cons, not_or]
            refine ⟨fun hx => hc ?_, ih List.mem_cons_self⟩
            simp [hx]
          · exact ih (List.mem_cons_of_mem v hrest)

/-- The words of a concatenation: the last word of the front and the first of the rest are
joined. -/
theorem splitOn_append (x : α) (a b : List α) :
    ∃ init last first rest, a.splitOn x = init ++ [last] ∧ b.splitOn x = first :: rest ∧
      (a ++ b).splitOn x = init ++ (last ++ first) :: rest := by
  obtain ⟨first, rest, hb⟩ := List.exists_cons_of_ne_nil (List.splitOn_ne_nil x b)
  induction a with
  | nil => exact ⟨[], [], first, rest, by simp, hb, by simp [hb]⟩
  | cons c a ih =>
      obtain ⟨init, last, first', rest', ha, hb', hab⟩ := ih
      rw [hb] at hb'
      cases hb'
      rw [List.cons_append, List.splitOn_cons_eq_if_modifyHead, List.splitOn_cons_eq_if_modifyHead,
        ha, hab]
      split
      · exact ⟨[] :: init, last, first, rest, rfl, hb, rfl⟩
      · cases init with
        | nil => exact ⟨[], c :: last, first, rest, rfl, hb, rfl⟩
        | cons word init => exact ⟨(c :: word) :: init, last, first, rest, rfl, hb, rfl⟩

/-- The letters of the words, when those at which they are split do not count. -/
theorem sum_countP_splitOn {p : α → Bool} {x : α} (hx : p x = false) (s : List α) :
    ((s.splitOn x).map (List.countP p)).sum = s.countP p := by
  induction s with
  | nil => simp
  | cons c s ih =>
      obtain ⟨word, rest, hs⟩ := List.exists_cons_of_ne_nil (List.splitOn_ne_nil x s)
      rw [List.splitOn_cons_eq_if_modifyHead, List.countP_cons, ← ih, hs]
      split
      · next hc => simp [beq_iff_eq.1 hc, hx]
      · simp only [List.modifyHead_cons, List.map_cons, List.sum_cons, List.countP_cons]
        omega

/-- The letters at which words are joined, and those inside. -/
theorem count_intercalate {x : α} {ws : List (List α)} (h : ws ≠ []) :
    ([x].intercalate ws).count x + 1 = (ws.map (List.count x)).sum + ws.length := by
  induction ws with
  | nil => exact absurd rfl h
  | cons w ws ih =>
      cases ws with
      | nil => simp
      | cons v ws =>
          have hrest := ih (by simp)
          rw [List.intercalate_cons_cons, List.count_append, List.count_append, List.map_cons,
            List.sum_cons, List.length_cons]
          simp only [List.count_singleton_self]
          omega

/-- As many words as before come back only if the letter is in none of them. -/
theorem not_mem_of_length_splitOn {x : α} {ws : List (List α)} (h : ws ≠ [])
    (hlength : (([x].intercalate ws).splitOn x).length = ws.length) : ∀ w ∈ ws, x ∉ w := by
  have hwords := count_intercalate (x := x) h
  have hpieces := count_intercalate (x := x) (List.splitOn_ne_nil x ([x].intercalate ws))
  have hzero : ((([x].intercalate ws).splitOn x).map (List.count x)).sum = 0 := by
    rw [List.sum_eq_zero_iff_forall_eq_nat]
    intro n hn
    obtain ⟨w, hw, rfl⟩ := List.mem_map.1 hn
    exact List.count_eq_zero_of_not_mem (not_mem_of_mem_splitOn hw)
  rw [List.intercalate_splitOn] at hpieces
  have hsum : (ws.map (List.count x)).sum = 0 := by omega
  intro w hw
  rw [← List.count_eq_zero]
  exact List.sum_eq_zero_iff_forall_eq_nat.1 hsum _ (List.mem_map_of_mem hw)

/-! ## Prefixes and suffixes -/

theorem removePrefix_append (d s : List α) : removePrefix d (d ++ s) = s := by
  rw [removePrefix, if_pos (List.isPrefixOf_iff_prefix.2 (List.prefix_append d s))]
  simp

theorem removeSuffix_append (d s : List α) : removeSuffix d (s ++ d) = s := by
  rw [removeSuffix, if_pos (List.isSuffixOf_iff_suffix.2 (List.suffix_append s d))]
  simp

theorem length_removeSuffix_le (d s : List α) : (removeSuffix d s).length ≤ s.length := by
  unfold removeSuffix
  split <;> simp

theorem length_after_lt {d s : List α} (hd : d ≠ []) (h : occurs d s = true) :
    (after d s).length < s.length := by
  obtain ⟨⟨a, b⟩, hcut⟩ := Option.isSome_iff_exists.1 h
  have hpos := List.length_pos_of_ne_nil hd
  rw [after, afterOr, hcut, append_of_cut hcut]
  simp only [Option.map_some, Option.getD_some, List.length_append]
  omega

end Mtproto.Text
