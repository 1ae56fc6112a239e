import Mtproto.Parsers.Scheme
import Mtproto.Lib.Repeats

/-!
# The order of the lines of a scheme

A line is parsed against the containers of the lines before it.  The specs of a file are the same
for every order of the lines inside the two sections if and only if no line looks up a container of
its own section and no line of the functions section tells the containers of the types section apart
by their order (`sameSpecs_iff`).  Copies of one line are no exception: the first is parsed without
the container that it declares and the others with it, in every order.
-/

namespace Mtproto.Parsers

open Text

section

variable {u : Unicode}

/-! ## Lookups -/

theorem findContainer_append (cs cs' : List TLContainerSpec) (s : Text) :
    findContainer u (cs ++ cs') s = (findContainer u cs s).or (findContainer u cs' s) :=
      List.find?_append

theorem lookup_append (cs cs' : List TLContainerSpec) (s : Text) :
    lookup u (cs ++ cs') s = (lookup u cs s).or (lookup u cs' s) := by
  rw [lookup, lookup, lookup, findContainer_append]
  rcases findContainer u cs s with - | c <;> rfl

theorem lookup_nil (s : Text) : lookup u [] s = none := rfl

theorem lookup_cons (c : TLContainerSpec) (cs : List TLContainerSpec) (s : Text) :
    lookup u (c :: cs) s =
      if equalsIgnoreCase u c.fullName s then some c.superType else lookup u cs s := by
  rw [lookup, findContainer, List.find?_cons]
  rcases equalsIgnoreCase u c.fullName s with - | - <;> rfl

theorem isSome_lookup_iff {cs : List TLContainerSpec} {s : Text} :
    (lookup u cs s).isSome = true ↔ ∃ c ∈ cs, equalsIgnoreCase u c.fullName s = true := by
  rw [lookup, Option.isSome_map, findContainer, List.find?_isSome]

theorem findContainer_eq_some {cs : List TLContainerSpec} {s : Text} {c : TLContainerSpec}
    (h : findContainer u cs s = some c) : c ∈ cs ∧ equalsIgnoreCase u c.fullName s = true :=
  ⟨List.mem_of_find?_eq_some h,
    List.find?_some (p := fun c : TLContainerSpec => equalsIgnoreCase u c.fullName s) h⟩

/-! ## Lines -/

variable {σ : Type} (p : LineParser u σ)

theorem LineParser.steady_declare {J : Type} {k : Comparison J}
    {containers : J → List TLContainerSpec}
    (hc : Contexts u k containers) (line : Text) :
    k.Steady fun j => p.declare (containers j) line := by
  unfold LineParser.declare
  split
  · exact (p.steady hc line).map fun _ _ => Sum.inl.inj
  · exact (steady_parseContainer hc line).map fun _ _ => Sum.inr.inj

/-- If `E` and all of `S` give one spec, then two lists that cannot be told apart where these agree
give one spec. -/
theorem LineParser.declare_agree {E A B : List TLContainerSpec} {S : Set (List TLContainerSpec)}
    {line : Text}
    {spec : Declaration σ ⊕ TLContainerSpec}
    (hmore : ∀ s, (lookup u E s).isSome → (lookup u A s).isSome ∧ (lookup u B s).isSome ∧
      ∀ F ∈ S, (lookup u F s).isSome)
    (htied : ∀ s, (∀ F ∈ S, lookup u F s = lookup u E s) → lookup u A s = lookup u B s)
    (hE : p.declare E line = .ok spec) (hS : ∀ F ∈ S, p.declare F line = .ok spec) :
    ∃ spec', p.declare A line = .ok spec' ∧ p.declare B line = .ok spec' := by
  let J := { F : List TLContainerSpec // F = E ∨ F ∈ S ∨ F = A ∨ F = B }
  let k : Comparison J :=
    ⟨⟨E, .inl rfl⟩, { j | j.1 ∈ S }, ⟨A, .inr (.inr (.inl rfl))⟩, ⟨B, .inr (.inr (.inr rfl))⟩⟩
  have hc : Contexts u k Subtype.val := {
    more := by
      rintro s hs ⟨F, rfl | hF | rfl | rfl⟩
      · exact hs
      · exact (hmore s hs).2.2 F hF
      · exact (hmore s hs).1
      · exact (hmore s hs).2.1
    tied := fun s hothers => htied s fun F hF => hothers ⟨F, .inr (.inl hF)⟩ hF }
  exact (p.steady_declare hc line).left_eq_right hE fun i hi => hS i.1 hi

/-- A list that is between two that give one spec gives the same. -/
theorem LineParser.declare_between {E F A : List TLContainerSpec} {line : Text}
    {spec : Declaration σ ⊕ TLContainerSpec}
    (hmore : ∀ s, (lookup u E s).isSome → (lookup u A s).isSome ∧ (lookup u F s).isSome)
    (hbetween : ∀ s, lookup u F s = lookup u E s → lookup u A s = lookup u E s)
    (hE : p.declare E line = .ok spec) (hF : p.declare F line = .ok spec) :
    p.declare A line = .ok spec := by
  obtain ⟨spec', hA, hE'⟩ := p.declare_agree (E := E) (A := A) (B := E) (S := {F})
    (fun s hs => ⟨(hmore s hs).1, hs, fun _ h => h ▸ (hmore s hs).2⟩)
    (fun s h => hbetween s (h F rfl)) hE (fun _ h => h ▸ hF)
  rw [hE] at hE'
  cases hE'
  exact hA

theorem LineParser.declare_congr {E A : List TLContainerSpec} {line : Text}
    {spec : Declaration σ ⊕ TLContainerSpec} (h : ∀ s, lookup u A s = lookup u E s)
    (hE : p.declare E line = .ok spec) : p.declare A line = .ok spec :=
  p.declare_between (fun s hs => ⟨h s ▸ hs, hs⟩) (fun s _ => h s) hE hE

theorem LineParser.declare_inr_iff {cs : List TLContainerSpec} {line : Text} {c : TLContainerSpec} :
    p.declare cs line = .ok (.inr c) ↔ isValidObjectScheme line = false ∧
      parseContainer u cs line = .ok c := by
  unfold LineParser.declare
  rcases isValidObjectScheme line with - | -
  · rw [if_neg Bool.false_ne_true]
    rcases parseContainer u cs line with e | c'
    · exact ⟨fun h => (by cases h), fun h => (by cases h.2)⟩
    · refine ⟨fun h => ?_, fun h => ?_⟩
      · cases h
        exact ⟨rfl, rfl⟩
      · cases h.2
        rfl
  · rw [if_pos rfl]
    rcases p.parse cs line with e | d
    · exact ⟨fun h => (by cases h), fun h => (by cases h.1)⟩
    · exact ⟨fun h => (by cases h), fun h => (by cases h.1)⟩

/-- The line of a spec. -/
def lineOf : Declaration σ ⊕ TLContainerSpec → Text
  | .inl d => d.rawScheme
  | .inr c => c.rawScheme

theorem parseDeclaration_of_parseContainer {cs : List TLContainerSpec} {line : Text}
    {c : TLContainerSpec}
    (h : parseContainer u cs line = .ok c) :
    c.rawScheme = line ∧ c.nameSpace = (splitNamespace (constructorName line)).1 ∧
      snakeToTitleCase u (splitNamespace (constructorName line)).2 = .ok c.name := by
  unfold parseContainer at h
  split at h
  · obtain ⟨d, hd, rfl⟩ := map_eq_ok (eq_ok_of_rethrown h)
    obtain ⟨genericVariables, -, hd⟩ := bind_eq_ok hd
    obtain ⟨properties, -, hd⟩ := bind_eq_ok hd
    obtain ⟨superType, -, hd⟩ := bind_eq_ok hd
    obtain ⟨name, hname, hd⟩ := bind_eq_ok hd
    cases hd
    exact ⟨rfl, rfl, hname⟩
  · cases h

theorem LineParser.lineOf_declare {cs : List TLContainerSpec} {line : Text}
    {spec : Declaration σ ⊕ TLContainerSpec} (h : p.declare cs line = .ok spec) :
    lineOf spec = line := by
  rcases spec with d | c
  · unfold LineParser.declare at h
    split at h
    · obtain ⟨d', hd', hspec⟩ := bind_eq_ok h
      cases hspec
      exact p.rawScheme hd'
    · obtain ⟨c, -, hspec⟩ := bind_eq_ok h
      cases hspec
  · exact (parseDeclaration_of_parseContainer (p.declare_inr_iff.1 h).2).1

/-- The name of a container does not depend on the other containers. -/
theorem fullName_of_parseContainer {cs cs' : List TLContainerSpec} {line : Text}
    {c c' : TLContainerSpec}
    (h : parseContainer u cs line = .ok c) (h' : parseContainer u cs' line = .ok c') :
    c.fullName = c'.fullName := by
  obtain ⟨-, hnameSpace, hname⟩ := parseDeclaration_of_parseContainer h
  obtain ⟨-, hnameSpace', hname'⟩ := parseDeclaration_of_parseContainer h'
  rw [hname] at hname'
  rw [TLContainerSpec.fullName, TLContainerSpec.fullName, hnameSpace, hnameSpace',
    Except.ok.inj hname']

/-! ## Sections whose order does not matter -/

/-- Each line can be read against the containers `E` of the section before, whichever of them is
first, and with the container that another line of its section declares. -/
structure OrderFree (E : List TLContainerSpec) (lines : List Text) : Prop where
  alone : ∀ line ∈ lines, ∃ spec, p.declare E line = .ok spec
  first : ∀ line ∈ lines, ∀ c ∈ E, p.declare (c :: E) line = p.declare E line
  other : ∀ line ∈ lines, ∀ line' ∈ lines, line' ≠ line → ∀ c, p.declare E line' = .ok (.inr c) →
    p.declare (E ++ [c]) line = p.declare E line

/-- What the lines declare when each is read against `E`. -/
def LineParser.declared (E : List TLContainerSpec) (lines : List Text) : List TLContainerSpec :=
  containersOf (lines.filterMap fun line => (p.declare E line).toOption)

/-- What a line declares when it has not been read before, and when it has. -/
def LineParser.outcome (E : List TLContainerSpec) : Text × Bool →
    Option (Declaration σ ⊕ TLContainerSpec)
  | (line, false) => (p.declare E line).toOption
  | (line, true) => (p.declare (E ++ p.declared E [line]) line).toOption

/-- The containers `E'` have the names of `E`, and the first of each name is one of `E`. -/
structure Alike (u : Unicode) (E E' : List TLContainerSpec) : Prop where
  names : ∀ s, (lookup u E' s).isSome = (lookup u E s).isSome
  mem : ∀ s c, findContainer u E' s = some c → c ∈ E

theorem toOption_eq_some {ε α : Type} {x : Except ε α} {a : α} :
    x.toOption = some a ↔ x = .ok a := by
  cases x with
  | error e => simp [Except.toOption]
  | ok b => simp [Except.toOption]

theorem containersOf_append (specs specs' : List (Declaration σ ⊕ TLContainerSpec)) :
    containersOf (specs ++ specs') = containersOf specs ++ containersOf specs' :=
      List.filterMap_append

variable {p} {E E' : List TLContainerSpec} {lines : List Text}

theorem mem_declared {c : TLContainerSpec} {l : List Text} :
    c ∈ p.declared E l ↔ ∃ line ∈ l, p.declare E line = .ok (.inr c) := by
  rw [LineParser.declared, containersOf, List.mem_filterMap]
  constructor
  · rintro ⟨spec, hspec, hc⟩
    obtain ⟨line, hline, hdeclare⟩ := List.mem_filterMap.1 hspec
    refine ⟨line, hline, ?_⟩
    rw [toOption_eq_some.1 hdeclare, Sum.getRight?_eq_some_iff.1 hc]
  · rintro ⟨line, hline, hdeclare⟩
    refine ⟨.inr c, List.mem_filterMap.2 ⟨line, hline, toOption_eq_some.2 hdeclare⟩, rfl⟩

theorem declared_cons (line : Text) (l : List Text) :
    p.declared E (line :: l) = p.declared E [line] ++ p.declared E l := by
  rw [LineParser.declared, LineParser.declared,
    LineParser.declared, ← containersOf_append, ← List.filterMap_append, List.singleton_append]

theorem declared_singleton {line : Text} {c : TLContainerSpec}
    (h : p.declare E line = .ok (.inr c)) :
    p.declared E [line] = [c] := by
  simp [LineParser.declared, containersOf, h, Except.toOption]

/-- What a line declares when it has been read before has the same name. -/
theorem fullName_of_outcome (h : OrderFree p E lines) {line : Text} (hline : line ∈ lines)
    {b : Bool}
    {c : TLContainerSpec} (hc : p.outcome E (line, b) = some (.inr c)) :
    ∃ c', p.declare E line = .ok (.inr c') ∧ c'.fullName = c.fullName := by
  obtain ⟨spec, hspec⟩ := h.alone line hline
  have hdeclare : ∃ cs, p.declare cs line = .ok (.inr c) := by
    cases b with
    | false => exact ⟨E, toOption_eq_some.1 hc⟩
    | true => exact ⟨_, toOption_eq_some.1 hc⟩
  obtain ⟨cs, hcs⟩ := hdeclare
  obtain ⟨hobject, hparse⟩ := p.declare_inr_iff.1 hcs
  rcases spec with d | c'
  · rw [LineParser.declare, if_neg (by simp [hobject])] at hspec
    obtain ⟨c', -, hd⟩ := bind_eq_ok hspec
    cases hd
  · exact ⟨c', hspec, fullName_of_parseContainer (p.declare_inr_iff.1 hspec).2 hparse⟩

theorem findContainer_eq_none_iff {cs : List TLContainerSpec} {s : Text} :
    findContainer u cs s = none ↔ ∀ c ∈ cs, equalsIgnoreCase u c.fullName s = false := by
  rw [findContainer, List.find?_eq_none]
  simp

theorem exists_outcome {seen : List Text} {line : Text} {c : TLContainerSpec}
    (h : c ∈ containersOf ((mark seen [line]).filterMap (p.outcome E))) :
    ∃ b, p.outcome E (line, b) = some (.inr c) := by
  obtain ⟨spec, hspec, hc⟩ := List.mem_filterMap.1 h
  obtain ⟨x, hx, hout⟩ := List.mem_filterMap.1 hspec
  rw [Sum.getRight?_eq_some_iff.1 hc] at hout
  have hfst : x.1 = line := by
    have hmem := List.mem_map_of_mem (f := Prod.fst) hx
    rw [map_fst_mark] at hmem
    exact List.mem_singleton.1 hmem
  exact ⟨x.2, by rw [← hfst]; exact hout⟩

/-- The containers of the later copies of a line are never found. -/
theorem findContainer_outcomes (h : OrderFree p E lines) {s : Text} {seen l : List Text}
    (hseen : ∀ line ∈ seen, ∀ c, p.declare E line = .ok (.inr c) →
      equalsIgnoreCase u c.fullName s = false)
    (hl : l ⊆ lines) :
    findContainer u (containersOf ((mark seen l).filterMap (p.outcome E))) s =
      findContainer u (p.declared E l) s := by
  induction l generalizing seen with
  | nil => rfl
  | cons line l ih =>
      have hmark : containersOf ((mark seen (line :: l)).filterMap (p.outcome E)) =
          containersOf ((mark seen [line]).filterMap (p.outcome E)) ++
            containersOf ((mark (line :: seen) l).filterMap (p.outcome E)) := by
        rw [← containersOf_append, ← List.filterMap_append, ← mark_cons]
      rw [hmark, declared_cons, findContainer_append, findContainer_append]
      by_cases hfound : ∀ c, p.declare E line = .ok (.inr c) →
        equalsIgnoreCase u c.fullName s = false
      · have hhead : findContainer u (containersOf ((mark seen [line]).filterMap (p.outcome E))) s =
            none := by
          rw [findContainer_eq_none_iff]
          intro c hc
          obtain ⟨b, hb⟩ := exists_outcome hc
          obtain ⟨c', hc', hname⟩ := fullName_of_outcome h (hl List.mem_cons_self) hb
          rw [← hname]
          exact hfound c' hc'
        have hdeclared : findContainer u (p.declared E [line]) s = none := by
          rw [findContainer_eq_none_iff]
          intro c hc
          obtain ⟨line', hline', hdeclare⟩ := mem_declared.1 hc
          rw [List.mem_singleton.1 hline'] at hdeclare
          exact hfound c hdeclare
        have hseen' : ∀ line' ∈ line :: seen, ∀ c, p.declare E line' = .ok (.inr c) →
            equalsIgnoreCase u c.fullName s = false := by
          intro line' hline'
          rcases List.mem_cons.1 hline' with rfl | hline'
          · exact hfound
          · exact hseen line' hline'
        have hrest := ih hseen' fun x hx => hl (List.mem_cons_of_mem line hx)
        rw [hhead, hdeclared, hrest]
      · have hnew : line ∉ seen := fun hmem => hfound (hseen line hmem)
        obtain ⟨c, hfound⟩ := not_forall.1 hfound
        obtain ⟨hc, hmatch⟩ := Classical.not_imp.1 hfound
        have hhead : containersOf ((mark seen [line]).filterMap (p.outcome E)) = [c] := by
          simp [mark_of_not_mem hnew, LineParser.outcome, hc, Except.toOption, containersOf]
        have hfind : findContainer u [c] s = some c := by
          simp [findContainer, hmatch]
        rw [hhead, declared_singleton hc, hfind]
        rfl

/-- Where no other line of the section is found, only the copies of the line itself are. -/
theorem lookup_declared {s line : Text} {done : List Text}
    (hothers : ∀ line' ∈ done, line' ≠ line → ∀ c, p.declare E line' = .ok (.inr c) →
      equalsIgnoreCase u c.fullName s = false) :
    lookup u (p.declared E done) s =
      if line ∈ done then lookup u (p.declared E [line]) s else none := by
  have hown : ∀ c ∈ p.declared E done, equalsIgnoreCase u c.fullName s = true →
      line ∈ done ∧ p.declare E line = .ok (.inr c) := by
    intro c hc hmatch
    obtain ⟨line', hline', hdeclare⟩ := mem_declared.1 hc
    by_cases hne : line' = line
    · rw [hne] at hline' hdeclare
      exact ⟨hline', hdeclare⟩
    · rw [hothers line' hline' hne c hdeclare] at hmatch
      cases hmatch
  rcases hfind : findContainer u (p.declared E done) s with - | c
  · rw [lookup, hfind]
    split
    · next hline =>
        have hnone : findContainer u (p.declared E [line]) s = none := by
          rw [findContainer_eq_none_iff] at hfind ⊢
          intro c hc
          obtain ⟨line', hline', hdeclare⟩ := mem_declared.1 hc
          rw [List.mem_singleton.1 hline'] at hdeclare
          exact hfind c (mem_declared.2 ⟨line, hline, hdeclare⟩)
        rw [lookup, hnone]
    · rfl
  · obtain ⟨hc, hmatch⟩ := findContainer_eq_some hfind
    obtain ⟨hline, hdeclare⟩ := hown c hc hmatch
    rw [lookup, hfind, if_pos hline, declared_singleton hdeclare, lookup_cons, if_pos hmatch]
    rfl

/-- A line is read as if it were the first of its section, or the second copy of it. -/
theorem declare_outcome (h : OrderFree p E lines) (halike : Alike u E E') {done : List Text}
    (hdone : done ⊆ lines)
    {line : Text} (hline : line ∈ lines) :
    ∃ spec, p.declare (E' ++ containersOf ((mark [] done).filterMap (p.outcome E))) line =
      .ok spec ∧
      (mark done.reverse [line]).filterMap (p.outcome E) = [spec] := by
  obtain ⟨alone, halone⟩ := h.alone line hline
  let B := if line ∈ done then E ++ p.declared E [line] else E
  let S : Set (List TLContainerSpec) := { F | (∃ c ∈ E, F = c :: E) ∨
    ∃ line' ∈ lines, line' ≠ line ∧ ∃ c, p.declare E line' = .ok (.inr c) ∧ F = E ++ [c] }
  have hlookup : ∀ s, lookup u (E' ++ containersOf ((mark [] done).filterMap (p.outcome E))) s =
      (lookup u E' s).or (lookup u (p.declared E done) s) := by
    intro s
    rw [lookup_append]
    congr 1
    rw [lookup, lookup, findContainer_outcomes h (by simp) hdone]
  have hB : ∀ s, lookup u B s =
      (lookup u E s).or (if line ∈ done then lookup u (p.declared E [line]) s else none) := by
    intro s
    by_cases hmem : line ∈ done
    · simp only [B, if_pos hmem, lookup_append]
    · simp only [B, if_neg hmem, Option.or_none]
  have hmore : ∀ s, (lookup u E s).isSome →
      (lookup u (E' ++ containersOf ((mark [] done).filterMap (p.outcome E))) s).isSome ∧
        (lookup u B s).isSome ∧
        ∀ F ∈ S, (lookup u F s).isSome := by
    intro s hs
    have hE' := halike.names s
    rw [hs] at hE'
    refine ⟨?_, ?_, ?_⟩
    · rw [hlookup, Option.isSome_or, hE']
      rfl
    · rw [hB, Option.isSome_or, hs]
      rfl
    · rintro F (⟨c, -, rfl⟩ | ⟨line', -, -, c, -, rfl⟩)
      · rw [lookup_cons]
        split
        · rfl
        · exact hs
      · rw [lookup_append, Option.isSome_or, hs]
        rfl
  have htied : ∀ s, (∀ F ∈ S, lookup u F s = lookup u E s) →
      lookup u (E' ++ containersOf ((mark [] done).filterMap (p.outcome E))) s = lookup u B s := by
    intro s hsame
    rw [hlookup, hB]
    rcases hfind : lookup u E s with - | v
    · have hE' : lookup u E' s = none := by
        have hnames := halike.names s
        rw [hfind, Option.isSome_none, Option.isSome_eq_false_iff, Option.isNone_iff_eq_none]
          at hnames
        exact hnames
      have hothers : ∀ line' ∈ done, line' ≠ line → ∀ c, p.declare E line' = .ok (.inr c) →
          equalsIgnoreCase u c.fullName s = false := by
        intro line' hline' hne c hc
        have heq := hsame (E ++ [c]) (.inr ⟨line', hdone hline', hne, c, hc, rfl⟩)
        rw [lookup_append, hfind, Option.none_or, lookup_cons] at heq
        by_contra hmatch
        rw [if_pos (by simpa using hmatch)] at heq
        cases heq
      rw [hE', lookup_declared hothers]
    · -- the first that is found in `E'` is one of `E`, and would come first there
      obtain ⟨c, hc⟩ : ∃ c, findContainer u E' s = some c := by
        have hnames := halike.names s
        rw [hfind, lookup, Option.isSome_map] at hnames
        exact Option.isSome_iff_exists.1 hnames
      have heq := hsame (c :: E) (.inl ⟨c, halike.mem s c hc, rfl⟩)
      rw [lookup_cons, if_pos (findContainer_eq_some hc).2, hfind] at heq
      rw [lookup, hc, Option.map_some, heq]
      rfl
  have hS : ∀ F ∈ S, p.declare F line = .ok alone := by
    rintro F (⟨c, hc, rfl⟩ | ⟨line', hline', hne, c, hc, rfl⟩)
    · rw [h.first line hline c hc, halone]
    · rw [h.other line hline line' hline' hne c hc, halone]
  obtain ⟨spec, hleft, hright⟩ := p.declare_agree hmore htied halone hS
  refine ⟨spec, hleft, ?_⟩
  by_cases hmem : line ∈ done
  · simp only [B, if_pos hmem] at hright
    rw [mark_of_mem (by simpa using hmem)]
    simp [LineParser.outcome, hright, Except.toOption]
  · simp only [B, if_neg hmem] at hright
    rw [mark_of_not_mem (by simpa using hmem)]
    simp [LineParser.outcome, hright, Except.toOption]

/-- A section is read to the outcomes of its marked lines. -/
theorem readSection_eq (h : OrderFree p E lines) (halike : Alike u E E') {done rest : List Text}
    (hdone : done ⊆ lines) (hrest : rest ⊆ lines) :
    p.readSection (E' ++ containersOf ((mark [] done).filterMap (p.outcome E))) rest =
      .ok ((mark done.reverse rest).filterMap (p.outcome E)) := by
  induction rest generalizing done with
  | nil => rfl
  | cons line rest ih =>
      have hline := hrest List.mem_cons_self
      obtain ⟨spec, hspec, hmark⟩ := declare_outcome h halike hdone hline
      have hdone' : done ++ [line] ⊆ lines := by
        intro x hx
        rcases List.mem_append.1 hx with hx | hx
        · exact hdone hx
        · rwa [List.mem_singleton.1 hx]
      have hnext := ih hdone' fun x hx => hrest (List.mem_cons_of_mem line hx)
      rw [mark_append, List.append_nil, List.filterMap_append, hmark,
        containersOf_append, ← List.append_assoc, List.reverse_append, List.reverse_singleton,
        List.singleton_append] at hnext
      rw [LineParser.readSection, hspec, mark_cons, List.filterMap_append, hmark]
      show (p.readSection _ rest >>= fun specs => .ok (spec :: specs)) = _
      rw [hnext]
      rfl

theorem lookup_outcomes (h : OrderFree p E lines) {l : List Text} (hl : l ⊆ lines) (s : Text) :
    lookup u (containersOf ((mark [] l).filterMap (p.outcome E))) s =
      lookup u (p.declared E l) s := by
  rw [lookup, lookup, findContainer_outcomes h (by simp) hl]

theorem isSome_lookup_declared {l l' : List Text} (hsame : ∀ x, x ∈ l' ↔ x ∈ l) (s : Text) :
    (lookup u (p.declared E l') s).isSome = (lookup u (p.declared E l) s).isSome := by
  rw [Bool.eq_iff_iff, isSome_lookup_iff, isSome_lookup_iff]
  simp only [mem_declared, hsame]

/-- The containers of a section that is read in another order. -/
theorem alike_outcomes (h : OrderFree p E lines) {l l' : List Text} (hl' : l' ⊆ lines)
    (hsame : ∀ x, x ∈ l' ↔ x ∈ l) :
    Alike u (p.declared E l) (containersOf ((mark [] l').filterMap (p.outcome E))) where
  names s := by rw [lookup_outcomes h hl', isSome_lookup_declared hsame]
  mem s c hc := by
    rw [findContainer_outcomes h (by simp) hl'] at hc
    obtain ⟨line, hline, hdeclare⟩ := mem_declared.1 (findContainer_eq_some hc).1
    exact mem_declared.2 ⟨line, (hsame line).1 hline, hdeclare⟩

/-! ## Two sections -/

section

variable (u)

/-- The specs of the types section and of the functions section. -/
def Reads (types functions : List Text) (specs : List (TLObjectSpec ⊕ TLContainerSpec))
    (specs' : List (TLMethodSpec ⊕ TLContainerSpec)) : Prop :=
  (objectLines u).readSection [] types = .ok specs ∧
    (methodLines u).readSection (containersOf specs) functions = .ok specs'

/-- No line of the file depends on the order of the lines. -/
structure FileOrderFree (types functions : List Text) : Prop where
  objects : OrderFree (objectLines u) [] types
  methods : OrderFree (methodLines u) ((objectLines u).declared [] types) functions

variable {u}

theorem alike_nil : Alike u [] [] where
  names _ := rfl
  mem _ _ h := by cases h

theorem readSection_nil {p : LineParser u σ} {E' : List TLContainerSpec} (h : OrderFree p E lines)
    (halike : Alike u E E') {l : List Text} (hl : l ⊆ lines) :
    p.readSection E' l = .ok ((mark [] l).filterMap (p.outcome E)) := by
  have hread := readSection_eq h halike (List.nil_subset lines) hl
  simpa [mark, containersOf] using hread

/-- A file whose order does not matter, in any order. -/
theorem FileOrderFree.reads {types functions types' functions' : List Text}
    (h : FileOrderFree u types functions)
    (htypes : types'.Perm types) (hfunctions : functions'.Perm functions) :
    Reads u types' functions' ((mark [] types').filterMap ((objectLines u).outcome []))
      ((mark [] functions').filterMap
        ((methodLines u).outcome ((objectLines u).declared [] types))) := by
  refine ⟨readSection_nil h.objects alike_nil htypes.subset, ?_⟩
  apply readSection_nil h.methods _ hfunctions.subset
  exact alike_outcomes h.objects htypes.subset fun x => htypes.mem_iff

/-! ## Orders that tell lines apart -/

theorem mem_declarationsOf {specs : List (Declaration σ ⊕ TLContainerSpec)} {d : Declaration σ} :
    d ∈ declarationsOf specs ↔ .inl d ∈ specs := by
  simp [declarationsOf, Sum.getLeft?_eq_some_iff]

theorem mem_containersOf {specs : List (Declaration σ ⊕ TLContainerSpec)} {c : TLContainerSpec} :
    c ∈ containersOf specs ↔ .inr c ∈ specs := by
  simp [containersOf, Sum.getRight?_eq_some_iff]

/-- A spec of a section comes from one of its lines. -/
theorem mem_readSection {E : List TLContainerSpec} {l : List Text}
    {specs : List (Declaration σ ⊕ TLContainerSpec)}
    (h : p.readSection E l = .ok specs) {spec : Declaration σ ⊕ TLContainerSpec}
    (hspec : spec ∈ specs) :
    ∃ before after specs', l = before ++ lineOf spec :: after ∧
      p.readSection E before = .ok specs' ∧
      p.declare (E ++ containersOf specs') (lineOf spec) = .ok spec := by
  induction l generalizing E specs with
  | nil =>
      cases h
      cases hspec
  | cons line l ih =>
      obtain ⟨first, hfirst, hrest⟩ := bind_eq_ok h
      obtain ⟨others, hothers, heq⟩ := bind_eq_ok hrest
      cases heq
      rcases List.mem_cons.1 hspec with rfl | hmem
      · refine ⟨[], l, [], ?_, rfl, ?_⟩
        · rw [p.lineOf_declare hfirst]
          rfl
        · rw [p.lineOf_declare hfirst, show E ++ containersOf [] = E from List.append_nil E]
          exact hfirst
      · obtain ⟨before, after, specs', rfl, hbefore, hdeclare⟩ := ih hothers hmem
        refine ⟨line :: before, after, first :: specs', rfl, ?_, ?_⟩
        · rw [LineParser.readSection, hfirst]
          show (p.readSection _ before >>= fun specs => .ok (first :: specs)) = _
          rw [hbefore]
          rfl
        · rw [containersOf_cons, ← List.append_assoc]
          exact hdeclare

/-- The specs that stand behind the container of the first line. -/
theorem exists_declare_behind {E : List TLContainerSpec} {line : Text} {l : List Text}
    {c : TLContainerSpec}
    {specs : List (Declaration σ ⊕ TLContainerSpec)} (hc : p.declare E line = .ok (.inr c))
    (h : p.readSection E (line :: l) = .ok specs) {spec : Declaration σ ⊕ TLContainerSpec}
    (hspec : spec ∈ specs)
    (hne : lineOf spec ≠ line) : ∃ cs, p.declare (E ++ c :: cs) (lineOf spec) = .ok spec := by
  obtain ⟨before, after, specs', hl, hbefore, hdeclare⟩ := mem_readSection h hspec
  cases before with
  | nil => exact absurd (List.cons.inj hl).1.symm hne
  | cons first before =>
      obtain ⟨rfl, -⟩ := List.cons.inj hl
      obtain ⟨spec', hspec', hrest⟩ := bind_eq_ok hbefore
      obtain ⟨others, -, heq⟩ := bind_eq_ok hrest
      rw [hc] at hspec'
      cases hspec'
      cases heq
      exact ⟨containersOf others, hdeclare⟩

theorem exists_containersOf {E : List TLContainerSpec} {line : Text} {l : List Text}
    {c : TLContainerSpec}
    {specs : List (Declaration σ ⊕ TLContainerSpec)} (hc : p.declare E line = .ok (.inr c))
    (h : p.readSection E (line :: l) = .ok specs) : ∃ cs, containersOf specs = c :: cs := by
  obtain ⟨first, hfirst, hrest⟩ := bind_eq_ok h
  obtain ⟨others, -, heq⟩ := bind_eq_ok hrest
  rw [hc] at hfirst
  cases hfirst
  cases heq
  exact ⟨containersOf others, rfl⟩

theorem exists_head {E : List TLContainerSpec} {line : Text} {l : List Text}
    {specs : List (Declaration σ ⊕ TLContainerSpec)} (h : p.readSection E (line :: l) = .ok specs) :
    ∃ spec ∈ specs, p.declare E line = .ok spec := by
  obtain ⟨first, hfirst, hrest⟩ := bind_eq_ok h
  obtain ⟨others, -, heq⟩ := bind_eq_ok hrest
  cases heq
  exact ⟨first, List.mem_cons_self, hfirst⟩

/-- Two readings with the same specs, behind the same containers. -/
theorem mem_of_perm {ds' : List TLMethodSpec} {cs cs₀ : List TLContainerSpec}
    {specs₁ specs₂ : List (TLMethodSpec ⊕ TLContainerSpec)}
    (hds₁ : (declarationsOf specs₁).Perm ds') (hds₂ : (declarationsOf specs₂).Perm ds')
    (hcs₁ : (cs₀ ++ containersOf specs₁).Perm cs) (hcs₂ : (cs₀ ++ containersOf specs₂).Perm cs)
    {spec : TLMethodSpec ⊕ TLContainerSpec} (hspec : spec ∈ specs₁) : spec ∈ specs₂ := by
  rcases spec with d | c
  · exact mem_declarationsOf.1 ((hds₁.trans hds₂.symm).subset (mem_declarationsOf.2 hspec))
  · have hperm := (List.perm_append_left_iff cs₀).1 (hcs₁.trans hcs₂.symm)
    exact mem_containersOf.1 (hperm.subset (mem_containersOf.2 hspec))

section

variable {types functions : List Text} {ds : List TLObjectSpec} {ds' : List TLMethodSpec}
  {cs : List TLContainerSpec}
  (h : ∀ types' functions', types'.Perm types → functions'.Perm functions → ∃ specs specs',
    Reads u types' functions' specs specs' ∧ (declarationsOf specs).Perm ds ∧
      (declarationsOf specs').Perm ds' ∧
      (containersOf specs ++ containersOf specs').Perm cs)

include h

theorem orderFree_types : OrderFree (objectLines u) [] types where
  alone line hline := by
    obtain ⟨specs, specs', ⟨hread, -⟩, -⟩ := h (line :: types.erase line) functions
      (List.perm_cons_erase hline).symm (List.Perm.refl _)
    obtain ⟨spec, -, hspec⟩ := exists_head hread
    exact ⟨spec, hspec⟩
  first _ _ c hc := by cases hc
  other line hline line' hline' hne c hc := by
    obtain ⟨specs₁, specs₁', ⟨hread₁, -⟩, hds₁, -, hcs₁⟩ := h (line :: types.erase line) functions
      (List.perm_cons_erase hline).symm (List.Perm.refl _)
    obtain ⟨specs₂, specs₂', ⟨hread₂, hread₂'⟩, hds₂, -, hcs₂⟩ :=
      h (line' :: types.erase line') functions
      (List.perm_cons_erase hline').symm (List.Perm.refl _)
    obtain ⟨spec, hmem, hspec⟩ := exists_head hread₁
    have hlineOf := (objectLines u).lineOf_declare hspec
    -- the same spec is read behind the container of the other line
    have hbehind : ∃ cs, (objectLines u).declare (c :: cs) line = .ok spec := by
      rcases spec with d | c'
      · have hmem₂ : .inl d ∈ specs₂ :=
          mem_declarationsOf.1 ((hds₁.trans hds₂.symm).subset (mem_declarationsOf.2 hmem))
        obtain ⟨cs, hcs⟩ := exists_declare_behind hc hread₂ hmem₂ (by rw [hlineOf]; exact hne.symm)
        rw [hlineOf] at hcs
        exact ⟨cs, hcs⟩
      · have hmem₂ :=
          (hcs₁.trans hcs₂.symm).subset (List.mem_append_left _ (mem_containersOf.2 hmem))
        have hparse : ∃ cs, parseContainer u (c :: cs) line = .ok c' := by
          rcases List.mem_append.1 hmem₂ with hmem₂ | hmem₂
          · obtain ⟨cs, hcs⟩ := exists_declare_behind hc hread₂ (mem_containersOf.1 hmem₂)
              (by rw [hlineOf]; exact hne.symm)
            rw [hlineOf] at hcs
            exact ⟨cs, ((objectLines u).declare_inr_iff.1 hcs).2⟩
          · obtain ⟨-, -, specs, -, -, hdeclare⟩ :=
              mem_readSection hread₂' (mem_containersOf.1 hmem₂)
            obtain ⟨others, hothers⟩ := exists_containersOf hc hread₂
            have hparse := ((methodLines u).declare_inr_iff.1 hdeclare).2
            have hraw : c'.rawScheme = line := hlineOf
            rw [hothers, lineOf, hraw] at hparse
            exact ⟨_, hparse⟩
        obtain ⟨cs, hcs⟩ := hparse
        exact ⟨cs, (objectLines u).declare_inr_iff.2 ⟨((objectLines u).declare_inr_iff.1 hspec).1,
          hcs⟩⟩
    obtain ⟨cs, hcs⟩ := hbehind
    rw [hspec]
    apply (objectLines u).declare_between _ _ hspec hcs
    · intro s hs
      cases hs
    · intro s hs
      rw [lookup_cons] at hs
      rw [List.nil_append, lookup_cons]
      split at hs
      · cases hs
      · next hmatch => rw [if_neg hmatch]

theorem exists_reads (types' functions' : List Text) (htypes : types'.Perm types)
    (hfunctions : functions'.Perm functions) :
    ∃ specs', (methodLines u).readSection
        (containersOf ((mark [] types').filterMap ((objectLines u).outcome [])))
        functions' = .ok specs' ∧ (declarationsOf specs').Perm ds' ∧
      (containersOf ((mark [] types).filterMap ((objectLines u).outcome [])) ++
        containersOf specs').Perm cs := by
  obtain ⟨specs, specs', ⟨hread, hread'⟩, -, hds', hcs⟩ := h types' functions' htypes hfunctions
  rw [readSection_nil (orderFree_types h) alike_nil htypes.subset] at hread
  cases hread
  refine ⟨specs', hread', hds', ?_⟩
  have hperm : (containersOf ((mark [] types').filterMap ((objectLines u).outcome []))).Perm
      (containersOf ((mark [] types).filterMap ((objectLines u).outcome []))) :=
    ((perm_mark htypes []).filterMap _).filterMap _
  exact (hperm.symm.append_right _).trans hcs

theorem lookup_types (s : Text) :
    lookup u (containersOf ((mark [] types).filterMap ((objectLines u).outcome []))) s =
      lookup u ((objectLines u).declared [] types) s :=
  lookup_outcomes (orderFree_types h) (List.Subset.refl _) s

theorem orderFree_functions :
    OrderFree (methodLines u) ((objectLines u).declared [] types) functions where
  alone line hline := by
    obtain ⟨specs, hread, -⟩ :=
      exists_reads h types (line :: functions.erase line) (List.Perm.refl _)
      (List.perm_cons_erase hline).symm
    obtain ⟨spec, -, hspec⟩ := exists_head hread
    exact ⟨spec, (methodLines u).declare_congr (fun s => (lookup_types h s).symm) hspec⟩
  first line hline c hc := by
    obtain ⟨line', hline', hdeclare⟩ := mem_declared.1 hc
    have htypes := (List.perm_cons_erase hline').symm
    have hfunctions := (List.perm_cons_erase hline).symm
    obtain ⟨specs₁, hread₁, hds₁, hcs₁⟩ := exists_reads h _ _ (List.Perm.refl _) hfunctions
    obtain ⟨specs₂, hread₂, hds₂, hcs₂⟩ := exists_reads h _ _ htypes hfunctions
    obtain ⟨spec, hmem, hspec⟩ := exists_head hread₁
    obtain ⟨-, -, specs, -, -, hbehind⟩ :=
      mem_readSection hread₂ (mem_of_perm hds₁ hds₂ hcs₁ hcs₂ hmem)
    rw [(methodLines u).lineOf_declare hspec] at hbehind
    have halone := (methodLines u).declare_congr (fun s => (lookup_types h s).symm) hspec
    have hlookup := lookup_outcomes (orderFree_types h) htypes.subset
    rw [halone]
    apply (methodLines u).declare_between _ _ halone hbehind
    · intro s hs
      constructor
      · rw [lookup_cons]
        split
        · rfl
        · exact hs
      · rw [lookup_append, Option.isSome_or, hlookup, isSome_lookup_declared fun x =>
          htypes.mem_iff, hs]
        rfl
    · intro s hs
      rw [lookup_append, hlookup, declared_cons, declared_singleton hdeclare, List.singleton_append,
        lookup_cons] at hs
      rw [lookup_cons]
      split
      · next hmatch =>
          rw [if_pos hmatch] at hs
          exact hs
      · rfl
  other line hline line' hline' hne c hc := by
    have hfunctions := (List.perm_cons_erase hline).symm
    have hfunctions' := (List.perm_cons_erase hline').symm
    obtain ⟨specs₁, hread₁, hds₁, hcs₁⟩ := exists_reads h _ _ (List.Perm.refl _) hfunctions
    obtain ⟨specs₂, hread₂, hds₂, hcs₂⟩ := exists_reads h _ _ (List.Perm.refl _) hfunctions'
    obtain ⟨spec, hmem, hspec⟩ := exists_head hread₁
    have hlineOf := (methodLines u).lineOf_declare hspec
    have hfirst := (methodLines u).declare_congr (lookup_types h) hc
    obtain ⟨cs, hbehind⟩ :=
      exists_declare_behind hfirst hread₂ (mem_of_perm hds₁ hds₂ hcs₁ hcs₂ hmem)
      (by rw [hlineOf]; exact hne.symm)
    rw [hlineOf] at hbehind
    have halone := (methodLines u).declare_congr (fun s => (lookup_types h s).symm) hspec
    rw [halone]
    apply (methodLines u).declare_between _ _ halone hbehind
    · intro s hs
      rw [lookup_append, lookup_append, lookup_types h, Option.isSome_or, Option.isSome_or, hs]
      exact ⟨rfl, rfl⟩
    · intro s hs
      rw [lookup_append, lookup_types h] at hs
      rw [lookup_append]
      rcases hfind : lookup u ((objectLines u).declared [] types) s with - | v
      · rw [hfind, Option.none_or, lookup_cons] at hs
        rw [Option.none_or, lookup_cons]
        split at hs
        · cases hs
        · next hmatch => rw [if_neg hmatch, lookup_nil]
      · rfl

end

/-! ## Files -/

/-- The same specs, up to their order. -/
structure Collected.Same (x y : Collected) : Prop where
  methods : x.methodSpecs.Perm y.methodSpecs
  objects : x.objectSpecs.Perm y.objectSpecs
  containers : x.containerSpecs.Perm y.containerSpecs

/-- The file as it is read, in terms of its declarations. -/
theorem parseSchemeFromFile_eq_ok_iff {types functions : List Text}
    (htypes : functionsKeyWord ∉ types)
    (hfunctions : typesKeyWord ∉ functions) {collected : Collected} :
    parseSchemeFromFile u (schemeFile types functions) = .ok collected ↔ ∃ specs specs',
      Reads u (types.filter isValidContainerScheme) (functions.filter isValidContainerScheme) specs
        specs' ∧
      collected = ⟨false, declarationsOf specs', declarationsOf specs,
        containersOf specs ++ containersOf specs'⟩ := by
  rw [parseSchemeFromFile_eq u htypes hfunctions]
  constructor
  · intro h
    obtain ⟨specs, hspecs, h⟩ := bind_eq_ok h
    obtain ⟨specs', hspecs', h⟩ := bind_eq_ok h
    cases h
    exact ⟨specs, specs', ⟨hspecs, hspecs'⟩, rfl⟩
  · rintro ⟨specs, specs', ⟨hspecs, hspecs'⟩, rfl⟩
    rw [hspecs]
    show ((methodLines u).readSection (containersOf specs) _ >>= fun _ => _) = _
    rw [hspecs']
    rfl

/-- A permutation of the declarations, as one of the lines. -/
theorem exists_perm_filter {l lines : List Text}
    (h : l.Perm (lines.filter isValidContainerScheme)) :
    ∃ lines' : List Text, lines'.Perm lines ∧ lines'.filter isValidContainerScheme = l := by
  refine ⟨l ++ lines.filter fun line => !isValidContainerScheme line, ?_, ?_⟩
  · exact (h.append_right _).trans (List.filter_append_perm isValidContainerScheme lines)
  · have hl : l.filter isValidContainerScheme = l := by
      rw [List.filter_eq_self]
      intro line hline
      exact List.of_mem_filter (h.subset hline)
    rw [List.filter_append, hl, List.filter_filter]
    simp

/-- The specs of a scheme are the same for every order of the lines in the two sections if and only
if no line depends on the order. -/
theorem sameSpecs_iff (u : Unicode) {types functions : List Text}
    (htypes : functionsKeyWord ∉ types)
    (hfunctions : typesKeyWord ∉ functions) {collected : Collected}
    (h : parseSchemeFromFile u (schemeFile types functions) = .ok collected) :
    (∀ types' functions', types'.Perm types → functions'.Perm functions →
      ∃ collected', parseSchemeFromFile u (schemeFile types' functions') = .ok collected' ∧
        collected'.Same collected) ↔
      FileOrderFree u (types.filter isValidContainerScheme)
        (functions.filter isValidContainerScheme) := by
  constructor
  · intro hsame
    have hreads : ∀ t f, t.Perm (types.filter isValidContainerScheme) →
        f.Perm (functions.filter isValidContainerScheme) →
          ∃ specs specs', Reads u t f specs specs' ∧
          (declarationsOf specs).Perm collected.objectSpecs ∧
            (declarationsOf specs').Perm collected.methodSpecs ∧
          (containersOf specs ++ containersOf specs').Perm collected.containerSpecs := by
      intro t f ht hf
      obtain ⟨types', htypes', rfl⟩ := exists_perm_filter ht
      obtain ⟨functions', hfunctions', rfl⟩ := exists_perm_filter hf
      obtain ⟨collected', hread, hperm⟩ := hsame types' functions' htypes' hfunctions'
      rw [parseSchemeFromFile_eq_ok_iff (by rwa [htypes'.mem_iff]) (by rwa [hfunctions'.mem_iff])]
        at hread
      obtain ⟨specs, specs', hread, rfl⟩ := hread
      exact ⟨specs, specs', hread, hperm.objects, hperm.methods, hperm.containers⟩
    exact ⟨orderFree_types hreads, orderFree_functions hreads⟩
  · intro hfree types' functions' htypes' hfunctions'
    have hfilter := htypes'.filter isValidContainerScheme
    have hfilter' := hfunctions'.filter isValidContainerScheme
    have hread := hfree.reads hfilter hfilter'
    rw [parseSchemeFromFile_eq_ok_iff htypes hfunctions] at h
    obtain ⟨specs, specs', ⟨hspecs, hspecs'⟩, rfl⟩ := h
    obtain ⟨hself, hself'⟩ := hfree.reads (List.Perm.refl _) (List.Perm.refl _)
    rw [hspecs] at hself
    cases hself
    rw [hspecs'] at hself'
    cases hself'
    have hobjects := (perm_mark hfilter []).filterMap ((objectLines u).outcome [])
    have hmethods := (perm_mark hfilter' []).filterMap
      ((methodLines u).outcome ((objectLines u).declared [] (types.filter isValidContainerScheme)))
    refine ⟨_,
      (parseSchemeFromFile_eq_ok_iff (by rwa [htypes'.mem_iff]) (by rwa [hfunctions'.mem_iff])).2
      ⟨_, _, hread, rfl⟩, ?_⟩
    exact {
      methods := hmethods.filterMap _
      objects := hobjects.filterMap _
      containers := (hobjects.filterMap _).append (hmethods.filterMap _) }

theorem exists_of_isSome {α : Type} {x : Except Failure α} (h : x.toOption.isSome = true) :
    ∃ a, x = .ok a := by
  obtain ⟨a, ha⟩ := Option.isSome_iff_exists.1 h
  exact ⟨a, toOption_eq_some.1 ha⟩

/-- A container of the types section that is used in the functions section. -/
theorem sameSpecs_pair :
    ∃ collected, parseSchemeFromFile .ascii
        (schemeFile ["pair x:int = Pair;".toList] ["get#1 p:pair = Pair;".toList]) = .ok collected ∧
      ∀ types' functions', types'.Perm ["pair x:int = Pair;".toList] →
        functions'.Perm ["get#1 p:pair = Pair;".toList] →
        ∃ collected', parseSchemeFromFile .ascii (schemeFile types' functions') = .ok collected' ∧
          collected'.Same collected := by
  have hread : (parseSchemeFromFile .ascii
      (schemeFile ["pair x:int = Pair;".toList] ["get#1 p:pair = Pair;".toList])).toOption.isSome =
        true := by
    decide +kernel
  obtain ⟨collected, hok⟩ := exists_of_isSome hread
  refine ⟨collected, hok, (sameSpecs_iff .ascii (by decide) (by decide) hok).2 ⟨⟨?_, ?_, ?_⟩,
    ⟨?_, ?_, ?_⟩⟩⟩
  · intro line hline
    rw [List.mem_singleton.1 (List.mem_of_mem_filter hline)]
    exact exists_of_isSome (by decide +kernel)
  · intro line hline c hc
    cases hc
  · intro line hline line' hline' hne
    rw [List.mem_singleton.1 (List.mem_of_mem_filter hline),
      List.mem_singleton.1 (List.mem_of_mem_filter hline')] at hne
    exact absurd rfl hne
  · intro line hline
    rw [List.mem_singleton.1 (List.mem_of_mem_filter hline)]
    exact exists_of_isSome (by decide +kernel)
  · intro line hline
    rw [List.mem_singleton.1 (List.mem_of_mem_filter hline)]
    decide +kernel
  · intro line hline line' hline' hne
    rw [List.mem_singleton.1 (List.mem_of_mem_filter hline),
      List.mem_singleton.1 (List.mem_of_mem_filter hline')] at hne
    exact absurd rfl hne

/-- A container that is declared behind the line that uses it is taken for an object. -/
theorem not_sameSpecs_pair :
    ¬ ∀ (u : Unicode) (types functions : List Text) (collected : Collected),
      functionsKeyWord ∉ types →
      typesKeyWord ∉ functions → parseSchemeFromFile u (schemeFile types functions) =
        .ok collected →
      ∀ types' functions', types'.Perm types → functions'.Perm functions →
        ∃ collected', parseSchemeFromFile u (schemeFile types' functions') = .ok collected' ∧
          collected'.Same collected := by
  intro h
  have hread : (parseSchemeFromFile .ascii
      (schemeFile ["pair x:int = Pair;".toList, "a#1 p:pair = A;".toList] [])).map
        Collected.objectSpecs =
      .ok [⟨"a#1 p:pair = A;".toList, "A".toList, none, ⟨none, "A".toList, []⟩, "1".toList, false,
        [⟨"p:pair".toList, "p".toList, none, .container none "Pair".toList []⟩], []⟩] := by
    decide +kernel
  have hread' : (parseSchemeFromFile .ascii
      (schemeFile ["a#1 p:pair = A;".toList, "pair x:int = Pair;".toList] [])).map
        Collected.objectSpecs =
      .ok [⟨"a#1 p:pair = A;".toList, "A".toList, none, ⟨none, "A".toList, []⟩, "1".toList, false,
        [⟨"p:pair".toList, "p".toList, none, .object none "Pair".toList []⟩], []⟩] := by
    decide +kernel
  obtain ⟨collected, hcollected, hobjects⟩ := map_eq_ok hread
  obtain ⟨collected', hcollected', hsame⟩ :=
    h .ascii _ [] collected (by decide) (by decide) hcollected
    ["a#1 p:pair = A;".toList, "pair x:int = Pair;".toList] [] (List.Perm.swap _ _ _)
      (List.Perm.refl _)
  obtain ⟨collected'', hcollected'', hobjects'⟩ := map_eq_ok hread'
  rw [hcollected'] at hcollected''
  cases hcollected''
  have hperm := hsame.objects
  rw [hobjects, hobjects', List.perm_singleton] at hperm
  revert hperm
  decide +kernel

end

end

end Mtproto.Parsers
