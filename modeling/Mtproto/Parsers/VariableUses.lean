import Mtproto.Parsers.Composition
import Mtproto.Parsers.Sensitivity
import Mtproto.Parsers.SourceFiles

/-!
# The uses of generic variables

A declaration keeps its variables under upper-cased names.  `parseGeneric`, which sees the elements
of lists and the generic arguments, looks its text up in upper case; `parseType`, which sees the
types of fields and the results of methods, looks it up as it stands.  Here a use is followed along
its path into the type: what the parser makes of it is the declared variable if and only if the
texts that the parser takes apart lead to it and nothing on the way takes the whole text for
something else.
-/

namespace Mtproto.Parsers

open Text

/-! ## Paths -/

/-- A step into a type: to the element of a list, or to a generic argument of an object type. -/
inductive Step where
  | element
  | argument (i : ℕ)
  deriving DecidableEq, Repr

/-- The generic that a step leads to. -/
def TLTypeSpec.child : Step → TLTypeSpec → Option TLTypeSpec
  | .element, .collection elementGeneric => some elementGeneric
  | .argument i, .object _ _ generics => generics[i]?
  | _, _ => none

/-- The type of a generic that is no variable. -/
def TLTypeSpec.parameter : TLTypeSpec → Option TLTypeSpec
  | .genericParameter spec => some spec
  | _ => none

/-- What is at the end of a path that starts in a generic. -/
def TLTypeSpec.beyond : List Step → TLTypeSpec → Option TLTypeSpec
  | [], generic => some generic
  | step :: path, generic =>
      generic.parameter.bind fun spec => (spec.child step).bind (TLTypeSpec.beyond path)

/-- What is at the end of a path that starts in a type. -/
def TLTypeSpec.along : List Step → TLTypeSpec → Option TLTypeSpec
  | [], spec => some spec
  | step :: path, spec => (spec.child step).bind (TLTypeSpec.beyond path)

section

variable (u : Unicode)

/-- A text that uses `name` at the end of a path: between brackets, or among the arguments between
angles, with blanks around it. -/
inductive UsedAt (name : Text) : List Step → Text → Prop
  | here : UsedAt name [] name
  | element {path : List Step} {text : Text} (front back : Text)
      (blank : isBlank u (front ++ back) = true)
      (inner : UsedAt name path text) :
        UsedAt name (.element :: path) (listScheme (front ++ text ++ back))
  | argument {path : List Step} {text : Text} (head : Text) (arguments : List Text) (i : ℕ)
      (front back : Text)
      (blank : isBlank u (front ++ back) = true)
        (at_i : arguments[i]? = some (front ++ text ++ back))
      (inner : UsedAt name path text) :
      UsedAt name (.argument i :: path) (head ++ '<' :: [','].intercalate arguments ++ ['>'])

/-! ## How the parser takes a text apart -/

/-- The text that a step leads to. -/
def pieceOf : Step → Text → Option Text
  | .element, text => if isList text then some (elementScheme u text) else none
  | .argument i, text => (argumentSchemes text)[i]?

variable (genericVariables : Variables) (containers : List TLContainerSpec)

/-- Nothing takes the whole text before the step is made. -/
def Opens : Step → Text → Prop
  | .element, text => Composite genericVariables text ∧ isList text = true
  | .argument _, text =>
      Composite genericVariables text ∧ isList text = false ∧ findContainer u containers text = none

/-- Taken apart along the path, the text of a generic leads to the piece. -/
def ReachesBeyond : List Step → Text → Text → Prop
  | [], text, piece => piece = text
  | step :: path, text, piece =>
      genericVariables.get (u.uppercase text) = none ∧
        Opens u genericVariables containers step text ∧
        ∃ next, pieceOf u step text = some next ∧ ReachesBeyond path next piece

/-- Taken apart along the path, the text of a type leads to the piece. -/
def Reaches : List Step → Text → Text → Prop
  | [], text, piece => piece = text
  | step :: path, text, piece =>
      Opens u genericVariables containers step text ∧
        ∃ next, pieceOf u step text = some next ∧
          ReachesBeyond u genericVariables containers path next piece

/-- A use that is a whole type has to be written in upper case and be no primitive type; any other
use has to be reached, in whatever case. -/
def Resolvable (name : Text) : List Step → Text → Prop
  | [], _ => u.uppercase name = name ∧ primitiveTypes.lookup name = none
  | step :: path, text => ∃ piece,
      Reaches u genericVariables containers (step :: path) text piece ∧
        u.uppercase piece = u.uppercase name

/-- The variable that a declaration declares under a name, among all its variables, whose names are
distinct in upper case. -/
structure Declared (schemes : List Text) (name : Text) (v : Variable) : Prop where
  all : parseVariables u containers [] schemes = .ok genericVariables
  distinct : (schemes.map fun scheme => u.uppercase (before [':'] scheme)).Nodup
  own : ∃ earlier scheme later known, schemes = earlier ++ scheme :: later ∧
    before [':'] scheme = name ∧
    parseVariables u containers [] earlier = .ok known ∧
      parseGenericVariable u known containers scheme = .ok v

end

/-! ## Declared variables -/

section Declarations

variable {u : Unicode} {genericVariables vs : Variables} {containers : List TLContainerSpec}

theorem parseVariables_append (schemes schemes' : List Text) :
    parseVariables u containers vs (schemes ++ schemes') =
      parseVariables u containers vs schemes >>= fun vs =>
        parseVariables u containers vs schemes' := by
  induction schemes generalizing vs with
  | nil => rfl
  | cons scheme schemes ih =>
      rw [List.cons_append, parseVariables, parseVariables, bind_assoc]
      congr 1
      funext v
      exact ih

theorem name_of_parseGenericVariable {scheme : Text} {v : Variable}
    (parsed : parseGenericVariable u vs containers scheme = .ok v) :
    v.name = u.uppercase (before [':'] scheme) := by
  obtain ⟨superType, -, made⟩ := bind_eq_ok parsed
  obtain rfl := Except.ok.inj made
  rfl

/-- Variables of other names do not matter. -/
theorem get_parseVariables {schemes : List Text} {name : Text}
    (parsed : parseVariables u containers vs schemes = .ok genericVariables)
    (other : ∀ scheme ∈ schemes, u.uppercase (before [':'] scheme) ≠ name) :
    genericVariables.get name = vs.get name := by
  induction schemes generalizing vs with
  | nil =>
      obtain rfl := Except.ok.inj parsed
      rfl
  | cons scheme schemes ih =>
      rw [List.forall_mem_cons] at other
      obtain ⟨v, own, rest⟩ := bind_eq_ok parsed
      have different : name ≠ v.name := by
        rw [name_of_parseGenericVariable own]
        exact fun eq => other.1 eq.symm
      rw [ih rest other.2, Variables.get_put, if_neg different]

theorem Declared.name_eq {schemes : List Text} {name : Text} {v : Variable}
    (h : Declared u genericVariables containers schemes name v) : v.name = u.uppercase name := by
  obtain ⟨earlier, scheme, later, known, -, rfl, -, own⟩ := h.own
  exact name_of_parseGenericVariable own

/-- The variable is found under its name. -/
theorem Declared.get {schemes : List Text} {name : Text} {v : Variable}
    (h : Declared u genericVariables containers schemes name v) :
    genericVariables.get v.name = some v := by
  have all := h.all
  have distinct := h.distinct
  obtain ⟨earlier, scheme, later, known, rfl, -, before_ok, own⟩ := h.own
  rw [parseVariables_append, before_ok] at all
  have all : parseVariables u containers known (scheme :: later) = .ok genericVariables := all
  rw [parseVariables, own] at all
  have all : parseVariables u containers (known.put v) later = .ok genericVariables := all
  have other : ∀ s ∈ later, u.uppercase (before [':'] s) ≠ v.name := by
    intro s mem eq
    rw [name_of_parseGenericVariable own] at eq
    rw [List.map_append, List.map_cons] at distinct
    have behind := (List.nodup_cons.1 (List.nodup_append.1 distinct).2.1).1
    exact behind (List.mem_map.2 ⟨s, mem, eq⟩)
  rw [get_parseVariables all other, Variables.get_put, if_pos rfl]

end Declarations

/-! ## One step -/

section Steps

variable {u : Unicode} {genericVariables : Variables} {containers : List TLContainerSpec}

theorem TLTypeSpec.IsBasic.child_eq_none {t : TLTypeSpec} (h : t.IsBasic) (step : Step) :
    t.child step = none := by
  cases h <;> cases step <;> rfl

theorem getElem?_of_mapM {α β : Type} {f : α → Except Failure β} {as : List α} {bs : List β}
    (run : as.mapM f = .ok bs) (i : ℕ) (b : β) :
    bs[i]? = some b ↔ ∃ a, as[i]? = some a ∧ f a = .ok b := by
  have related := mapM_eq_ok_iff.1 run
  clear run
  induction related generalizing i with
  | nil => simp
  | @cons a b' as bs first _ ih =>
      cases i with
      | zero =>
          simp only [List.getElem?_cons_zero, Option.some.injEq, exists_eq_left', first,
            Except.ok.injEq]
      | succ i => exact ih i

theorem Opens.composite {step : Step} {text : Text}
    (h : Opens u genericVariables containers step text) :
    Composite genericVariables text := by
  cases step with
  | element => exact h.1
  | argument i => exact h.1

/-- A step comes to what the parser makes of the text that it leads to. -/
theorem child_eq_some_iff {text : Text} {t g : TLTypeSpec} (step : Step)
    (parsed : parseType u genericVariables containers text = .ok t) :
    t.child step = some g ↔ Opens u genericVariables containers step text ∧
      ∃ next, pieceOf u step text = some next ∧ parseGeneric u genericVariables containers next =
        .ok g := by
  by_cases composite : Composite genericVariables text
  · by_cases list : isList text = true
    · rw [parseType_list composite list] at parsed
      obtain ⟨element, element_ok, made⟩ := bind_eq_ok parsed
      obtain rfl := Except.ok.inj made
      cases step with
      | element =>
          refine ⟨?_, ?_⟩
          · intro found
            obtain rfl := Option.some.inj found
            exact ⟨⟨composite, list⟩, _, if_pos list, element_ok⟩
          · rintro ⟨-, next, piece, next_ok⟩
            rw [pieceOf, if_pos list] at piece
            obtain rfl := Option.some.inj piece
            rw [element_ok] at next_ok
            exact congrArg some (Except.ok.inj next_ok)
      | argument i =>
          refine iff_of_false (Option.some_ne_none g).symm ?_
          rintro ⟨⟨-, no_list, -⟩, -⟩
          rw [list] at no_list
          cases no_list
    · rw [Bool.not_eq_true] at list
      rw [parseType_name composite list] at parsed
      cases found : findContainer u containers text with
      | some c =>
          rw [found] at parsed
          obtain rfl := Except.ok.inj parsed
          refine iff_of_false ?_ ?_
          · cases step <;> exact (Option.some_ne_none g).symm
          · rintro ⟨opens, -⟩
            cases step with
            | element => exact Bool.false_ne_true (list.symm.trans opens.2)
            | argument i => exact Option.some_ne_none c (found.symm.trans opens.2.2)
      | none =>
          rw [found] at parsed
          obtain ⟨named, named_ok, made⟩ := bind_eq_ok parsed
          obtain rfl := Except.ok.inj made
          obtain ⟨generics, generics_ok, made⟩ := bind_eq_ok named_ok
          obtain ⟨formattedName, -, made⟩ := bind_eq_ok made
          obtain rfl := Except.ok.inj made
          cases step with
          | element =>
              refine iff_of_false (Option.some_ne_none g).symm ?_
              rintro ⟨opens, -⟩
              exact Bool.false_ne_true (list.symm.trans opens.2)
          | argument i =>
              have at_i : generics[i]? = some g ↔ ∃ next, (argumentSchemes text)[i]? = some next ∧
                  parseGeneric u genericVariables containers next = .ok g :=
                    getElem?_of_mapM generics_ok i g
              refine ⟨fun some => ⟨⟨composite, list, found⟩, at_i.1 some⟩, fun opens =>
                at_i.2 opens.2⟩
  · have basic :=
      ((composite_or_isBasic u genericVariables containers text).resolve_left composite) t parsed
    rw [basic.child_eq_none]
    refine iff_of_false (Option.some_ne_none g).symm ?_
    rintro ⟨opens, -⟩
    exact composite opens.composite

/-- Where the parser succeeds, it has parsed the text that a step leads to. -/
theorem exists_parseGeneric {text next : Text} {t : TLTypeSpec} {step : Step}
    (parsed : parseType u genericVariables containers text = .ok t)
    (opens : Opens u genericVariables containers step text)
    (piece : pieceOf u step text = some next) :
    ∃ g, parseGeneric u genericVariables containers next = .ok g := by
  cases step with
  | element =>
      rw [parseType_list opens.1 opens.2] at parsed
      obtain ⟨element, element_ok, -⟩ := bind_eq_ok parsed
      rw [pieceOf, if_pos opens.2] at piece
      obtain rfl := Option.some.inj piece
      exact ⟨element, element_ok⟩
  | argument i =>
      obtain ⟨composite, list, unfound⟩ := opens
      rw [parseType_name composite list, unfound] at parsed
      obtain ⟨named, named_ok, -⟩ := bind_eq_ok parsed
      obtain ⟨generics, generics_ok, -⟩ := bind_eq_ok named_ok
      exact exists_mapM_iff.1 ⟨generics, generics_ok⟩ next (List.mem_of_getElem? piece)

/-! ## Whole paths -/

theorem parseGeneric_of_get {text : Text} {v : Variable} {g : TLTypeSpec}
    (known : genericVariables.get (u.uppercase text) = some v)
    (parsed : parseGeneric u genericVariables containers text = .ok g) : g = v.spec := by
  rw [parseGeneric, parseGenericWith, known] at parsed
  exact (Except.ok.inj parsed).symm

theorem parseGeneric_of_get_eq_none {text : Text} {g : TLTypeSpec}
    (unknown : genericVariables.get (u.uppercase text) = none)
    (parsed : parseGeneric u genericVariables containers text = .ok g) :
    ∃ t, parseType u genericVariables containers text = .ok t ∧ g = .genericParameter t := by
  rw [parseGeneric, parseGenericWith, unknown] at parsed
  obtain ⟨t, type_ok, made⟩ := bind_eq_ok parsed
  exact ⟨t, type_ok, (Except.ok.inj made).symm⟩

theorem name_of_get {name : Text} {v : Variable} (h : genericVariables.get name = some v) :
    v.name = name := by
  have found := List.find?_some h
  simpa using found

/-- What is at the end of a path below a generic. -/
theorem beyond_eq_some_iff {v : Variable} (known : genericVariables.get v.name = some v)
    (path : List Step)
    {text : Text} {g : TLTypeSpec}
    (parsed : parseGeneric u genericVariables containers text = .ok g) :
    g.beyond path = some v.spec ↔
      ∃ piece, ReachesBeyond u genericVariables containers path text piece ∧
        u.uppercase piece = v.name := by
  induction path generalizing text g with
  | nil =>
      cases found : genericVariables.get (u.uppercase text) with
      | some w =>
          obtain rfl := parseGeneric_of_get found parsed
          refine ⟨?_, ?_⟩
          · intro same
            obtain rfl := Variable.spec_injective (Option.some.inj same)
            exact ⟨text, rfl, (name_of_get found).symm⟩
          · rintro ⟨_, rfl, upper⟩
            rw [upper, known] at found
            obtain rfl := Option.some.inj found
            rfl
      | none =>
          obtain ⟨t, -, rfl⟩ := parseGeneric_of_get_eq_none found parsed
          refine iff_of_false ?_ ?_
          · intro same
            cases Option.some.inj same
          · rintro ⟨_, rfl, upper⟩
            rw [upper, known] at found
            cases found
  | cons step path ih =>
      cases found : genericVariables.get (u.uppercase text) with
      | some w =>
          obtain rfl := parseGeneric_of_get found parsed
          refine iff_of_false (Option.some_ne_none v.spec).symm ?_
          rintro ⟨piece, ⟨unknown, -⟩, -⟩
          rw [found] at unknown
          cases unknown
      | none =>
          obtain ⟨t, type_ok, rfl⟩ := parseGeneric_of_get_eq_none found parsed
          change (t.child step).bind (TLTypeSpec.beyond path) = some v.spec ↔ _
          rw [Option.bind_eq_some_iff]
          refine ⟨?_, ?_⟩
          · rintro ⟨g, child, rest⟩
            obtain ⟨opens, next, piece_of, next_ok⟩ := (child_eq_some_iff step type_ok).1 child
            obtain ⟨piece, reaches, upper⟩ := (ih next_ok).1 rest
            exact ⟨piece, ⟨found, opens, next, piece_of, reaches⟩, upper⟩
          · rintro ⟨piece, ⟨-, opens, next, piece_of, reaches⟩, upper⟩
            obtain ⟨g, next_ok⟩ := exists_parseGeneric type_ok opens piece_of
            have child : t.child step = some g :=
              (child_eq_some_iff step type_ok).2 ⟨opens, next, piece_of, next_ok⟩
            exact ⟨g, child, (ih next_ok).2 ⟨piece, reaches, upper⟩⟩

theorem signatureType_ne_variable {text : Text} {v : Variable} :
    signatureType text ≠ some v.spec := by
  unfold signatureType
  split_ifs <;> intro same <;> cases same

/-- A whole type is a variable if it is written as the variable is kept and is no primitive type. -/
theorem parseType_eq_variable_iff {text : Text} {v : Variable} :
    parseType u genericVariables containers text = .ok v.spec ↔
      primitiveTypes.lookup text = none ∧ genericVariables.get text = some v := by
  rw [parseType_eq, parseTypeWith]
  cases primitive : primitiveTypes.lookup text with
  | some clazz =>
      refine iff_of_false ?_ ?_
      · intro same
        cases same
      · rintro ⟨no_primitive, -⟩
        cases no_primitive
  | none =>
      cases found : genericVariables.get text with
      | some w =>
          refine ⟨?_, ?_⟩
          · intro same
            obtain rfl := Variable.spec_injective (Except.ok.inj same)
            exact ⟨rfl, rfl⟩
          · rintro ⟨-, same⟩
            obtain rfl := Option.some.inj same
            rfl
      | none =>
          refine iff_of_false ?_ ?_
          · intro same
            cases signature : signatureType text with
            | some t =>
                rw [signature] at same
                obtain rfl := Except.ok.inj same
                exact signatureType_ne_variable signature
            | none =>
                rw [signature] at same
                by_cases fixed : isFixedBytes text = true
                · simp only [fixed, if_true] at same
                  obtain ⟨size, -, made⟩ := bind_eq_ok same
                  cases made
                by_cases list : isList text = true
                · simp only [fixed, list, if_true] at same
                  obtain ⟨element, -, made⟩ := bind_eq_ok same
                  cases made
                simp only [fixed, list] at same
                cases container : findContainer u containers text with
                | some c =>
                    rw [container] at same
                    cases same
                | none =>
                    rw [container] at same
                    obtain ⟨named, -, made⟩ := bind_eq_ok same
                    cases made
          · rintro ⟨-, known⟩
            cases known

/-- A use comes to the declared variable if and only if it is resolvable where it stands. -/
theorem parseType_resolves_iff {schemes : List Text} {name text : Text} {v : Variable}
    {path : List Step}
    {t : TLTypeSpec} (declared : Declared u genericVariables containers schemes name v)
    (use : UsedAt u name path text)
    (parsed : parseType u genericVariables containers text = .ok t) :
    t.along path = some v.spec ↔ Resolvable u genericVariables containers name path text := by
  have known := declared.get
  have upper := declared.name_eq
  cases path with
  | nil =>
      -- a whole type is looked up as it is written
      cases use
      have resolved : t.along [] = some v.spec ↔
          parseType u genericVariables containers name = .ok v.spec := by
        rw [parsed]
        exact ⟨fun same => congrArg _ (Option.some.inj same), fun same =>
          congrArg some (Except.ok.inj same)⟩
      rw [resolved, parseType_eq_variable_iff]
      refine ⟨?_, ?_⟩
      · rintro ⟨no_primitive, found⟩
        exact ⟨upper.symm.trans (name_of_get found), no_primitive⟩
      · rintro ⟨same, no_primitive⟩
        rw [upper, same] at known
        exact ⟨no_primitive, known⟩
  | cons step path =>
      change (t.child step).bind (TLTypeSpec.beyond path) = some v.spec ↔ _
      rw [Option.bind_eq_some_iff]
      refine ⟨?_, ?_⟩
      · rintro ⟨g, child, rest⟩
        obtain ⟨opens, next, piece_of, next_ok⟩ := (child_eq_some_iff step parsed).1 child
        obtain ⟨piece, reaches, same⟩ := (beyond_eq_some_iff known path next_ok).1 rest
        exact ⟨piece, ⟨opens, next, piece_of, reaches⟩, same.trans upper⟩
      · rintro ⟨piece, ⟨opens, next, piece_of, reaches⟩, same⟩
        obtain ⟨g, next_ok⟩ := exists_parseGeneric parsed opens piece_of
        have child : t.child step = some g :=
          (child_eq_some_iff step parsed).2 ⟨opens, next, piece_of, next_ok⟩
        exact ⟨g, child,
          (beyond_eq_some_iff known path next_ok).2 ⟨piece, reaches, same.trans upper.symm⟩⟩

end Steps

/-- The variable of `{t:Type}`. -/
def typeVariable : Variable := ⟨"T".toList, .type⟩

theorem declared_typeVariable :
    Declared .ascii [typeVariable] [] ["t:Type".toList] "t".toList typeVariable where
  all := by decide +kernel
  distinct := by decide +kernel
  own := ⟨[], "t:Type".toList, [], [], rfl, by decide +kernel, rfl, by decide +kernel⟩

/-- In `[t]` the variable is found. -/
theorem resolves_in_list :
    (TLTypeSpec.collection typeVariable.spec).along [.element] = some typeVariable.spec ↔
      Resolvable .ascii [typeVariable] [] "t".toList [.element] "[t]".toList :=
  parseType_resolves_iff declared_typeVariable (.element [] [] rfl .here) (by decide +kernel)

/-- A field of the type `t` has an object type. -/
theorem not_resolved_as_field :
    Declared .ascii [typeVariable] [] ["t:Type".toList] "t".toList typeVariable ∧
      UsedAt .ascii "t".toList [] "t".toList ∧
        parseType .ascii [typeVariable] [] "t".toList = .ok (.object none "T".toList []) :=
  ⟨declared_typeVariable, .here, by decide +kernel⟩

end Mtproto.Parsers
