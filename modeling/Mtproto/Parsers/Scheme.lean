import Mtproto.Parsers.Sensitivity

/-!
# Scheme files

`parseSchemeFromFile` of `TLGenerator`: one pass over the lines, which collects objects, methods and
containers.  Each line is parsed against the containers collected before it.  A file of a types
section and a functions section is read section by section (`parseSchemeFromFile_eq`).
-/

namespace Mtproto.Parsers

open Text

/-- `TYPES_KEYWORD`. -/
def typesKeyWord : Text := "---types---".toList

/-- `FUNCTIONS_KEYWORD`. -/
def functionsKeyWord : Text := "---functions---".toList

/-- The variables of `parseSchemeFromFile`. -/
structure Collected where
  generatingTypes : Bool
  methodSpecs : List TLMethodSpec
  objectSpecs : List TLObjectSpec
  containerSpecs : List TLContainerSpec
  deriving DecidableEq

section

variable (u : Unicode)

/-- The body of the loop over the lines. -/
def readLine (collected : Collected) (line : Text) : Except Failure Collected :=
  if line = typesKeyWord then .ok { collected with generatingTypes := true }
  else if line = functionsKeyWord then .ok { collected with generatingTypes := false }
  else if collected.generatingTypes && isValidObjectScheme line then do
    let tlObjectSpec ← parseObject u collected.containerSpecs line
    return { collected with objectSpecs := collected.objectSpecs ++ [tlObjectSpec] }
  else if isValidMethodScheme line then do
    let tlMethodSpec ← parseMethod u collected.containerSpecs line
    return { collected with methodSpecs := collected.methodSpecs ++ [tlMethodSpec] }
  else if isValidContainerScheme line then do
    let tlContainer ← parseContainer u collected.containerSpecs line
    return { collected with containerSpecs := collected.containerSpecs ++ [tlContainer] }
  else .ok collected

def parseSchemeFromFile (lines : List Text) : Except Failure Collected :=
  lines.foldlM (readLine u) ⟨true, [], [], []⟩

/-! ## Sections -/

/-- The parser of the lines of a section that declare no container. -/
structure LineParser (σ : Type) where
  parse : List TLContainerSpec → Text → Except Failure (Declaration σ)
  steady : ∀ {J : Type} {k : Comparison J} {containers : J → List TLContainerSpec},
    Contexts u k containers →
    ∀ line, k.Steady fun j => parse (containers j) line
  rawScheme : ∀ {containers : List TLContainerSpec} {line : Text} {d : Declaration σ},
    parse containers line = .ok d → d.rawScheme = line

theorem rawScheme_of_parseDeclaration {u : Unicode} {σ : Type} {containers : List TLContainerSpec}
    {blank : Except Failure (List TLPropertySpec)}
    {parseSuperType : Variables → Text → Except Failure σ}
    {line : Text} {d : Declaration σ}
    (h : parseDeclaration u containers blank parseSuperType line = .ok d) :
    d.rawScheme = line := by
  obtain ⟨genericVariables, -, h⟩ := bind_eq_ok h
  obtain ⟨properties, -, h⟩ := bind_eq_ok h
  obtain ⟨superType, -, h⟩ := bind_eq_ok h
  obtain ⟨name, -, h⟩ := bind_eq_ok h
  cases h
  rfl

/-- The types section. -/
def objectLines : LineParser u Named where
  parse := parseObject u
  steady := fun hc line => steady_parseObject hc line
  rawScheme := by
    intro containers line d h
    unfold parseObject at h
    split at h
    · exact rawScheme_of_parseDeclaration (eq_ok_of_rethrown h)
    · cases h

/-- The functions section. -/
def methodLines : LineParser u TLTypeSpec where
  parse := parseMethod u
  steady := fun hc line => steady_parseMethod hc line
  rawScheme := by
    intro containers line d h
    unfold parseMethod at h
    split at h
    · exact rawScheme_of_parseDeclaration (eq_ok_of_rethrown h)
    · cases h

variable {u} {σ : Type} (p : LineParser u σ)

/-- What a line declares. -/
def LineParser.declare (containers : List TLContainerSpec) (line : Text) :
    Except Failure (Declaration σ ⊕ TLContainerSpec) :=
  if isValidObjectScheme line then do
    let d ← p.parse containers line
    return .inl d
  else do
    let c ← parseContainer u containers line
    return .inr c

def declarationsOf (specs : List (Declaration σ ⊕ TLContainerSpec)) : List (Declaration σ) :=
  specs.filterMap Sum.getLeft?

def containersOf (specs : List (Declaration σ ⊕ TLContainerSpec)) : List TLContainerSpec :=
  specs.filterMap Sum.getRight?

theorem declarationsOf_cons (spec : Declaration σ ⊕ TLContainerSpec)
    (specs : List (Declaration σ ⊕ TLContainerSpec)) :
    declarationsOf (spec :: specs) = declarationsOf [spec] ++ declarationsOf specs :=
  List.filterMap_append (l := [spec])

theorem containersOf_cons (spec : Declaration σ ⊕ TLContainerSpec)
    (specs : List (Declaration σ ⊕ TLContainerSpec)) :
    containersOf (spec :: specs) = containersOf [spec] ++ containersOf specs :=
  List.filterMap_append (l := [spec])

/-- The declarations of a section, read one after the other. -/
def LineParser.readSection : List TLContainerSpec → List Text →
    Except Failure (List (Declaration σ ⊕ TLContainerSpec))
  | _, [] => .ok []
  | containers, line :: lines => do
      let spec ← p.declare containers line
      let specs ← LineParser.readSection (containers ++ containersOf [spec]) lines
      return spec :: specs

/-- A loop over the lines whose body reads the lines that declare something. -/
theorem LineParser.foldlM_eq {τ : Type} (step : τ → Text → Except Failure τ)
    (state : List (Declaration σ) → List TLContainerSpec → τ) (lines : List Text)
    (hstep : ∀ line ∈ lines, ∀ ds cs, step (state ds cs) line =
      if isValidContainerScheme line then
        p.declare cs line >>= fun spec =>
          .ok (state (ds ++ declarationsOf [spec]) (cs ++ containersOf [spec]))
      else .ok (state ds cs))
    (ds : List (Declaration σ)) (cs : List TLContainerSpec) :
    lines.foldlM step (state ds cs) =
      p.readSection cs (lines.filter isValidContainerScheme) >>= fun specs =>
        .ok (state (ds ++ declarationsOf specs) (cs ++ containersOf specs)) := by
  induction lines generalizing ds cs with
  | nil =>
      show Except.ok (state ds cs) = .ok (state (ds ++ []) (cs ++ []))
      rw [List.append_nil, List.append_nil]
  | cons line lines ih =>
      have hrest := ih fun l hl => hstep l (List.mem_cons_of_mem line hl)
      rw [List.foldlM_cons, hstep line List.mem_cons_self]
      by_cases hvalid : isValidContainerScheme line = true
      · rw [if_pos hvalid, List.filter_cons_of_pos hvalid, LineParser.readSection]
        rcases p.declare cs line with e | spec
        · rfl
        · show lines.foldlM step (state (ds ++ declarationsOf [spec]) (cs ++ containersOf [spec])) =
            (p.readSection (cs ++ containersOf [spec]) (lines.filter isValidContainerScheme) >>=
              fun specs => .ok (spec :: specs)) >>= fun specs =>
                .ok (state (ds ++ declarationsOf specs) (cs ++ containersOf specs))
          rw [hrest]
          rcases p.readSection (cs ++ containersOf [spec]) (lines.filter isValidContainerScheme)
            with e | specs
          · rfl
          · show Except.ok _ = Except.ok _
            rw [declarationsOf_cons spec specs, containersOf_cons spec specs, List.append_assoc,
              List.append_assoc]
      · rw [if_neg hvalid, List.filter_cons_of_neg hvalid]
        exact hrest ds cs

variable (u)

/-- A file of a types section and a functions section. -/
def schemeFile (types functions : List Text) : List Text := types ++ functionsKeyWord :: functions

theorem isValidContainerScheme_of_isValidObjectScheme {line : Text}
    (h : isValidObjectScheme line = true) :
    isValidContainerScheme line = true := by
  rw [isValidObjectScheme, Bool.and_eq_true] at h
  exact h.2

/-- A line of the types section. -/
theorem readLine_types {line : Text} (hline : line ≠ functionsKeyWord) (ds : List TLObjectSpec)
    (cs : List TLContainerSpec) :
    readLine u ⟨true, [], ds, cs⟩ line =
      if isValidContainerScheme line then
        (objectLines u).declare cs line >>= fun spec =>
          .ok ⟨true, [], ds ++ declarationsOf [spec], cs ++ containersOf [spec]⟩
      else .ok ⟨true, [], ds, cs⟩ := by
  unfold readLine LineParser.declare
  by_cases htypes : line = typesKeyWord
  · rw [if_pos htypes, if_neg (by rw [htypes]; decide)]
  · rw [if_neg htypes, if_neg hline]
    by_cases hobject : isValidObjectScheme line = true
    · rw [if_pos (by simpa using hobject),
        if_pos (isValidContainerScheme_of_isValidObjectScheme hobject), if_pos hobject]
      change (parseObject u cs line >>= fun _ => _) = (parseObject u cs line >>= fun _ => _) >>=
        fun _ => _
      rcases parseObject u cs line with e | d
      · rfl
      · show Except.ok _ = Except.ok _
        simp [declarationsOf, containersOf]
    · rw [if_neg (by simpa using hobject), if_neg (by simpa [isValidMethodScheme] using hobject),
        if_neg hobject]
      split
      · rcases parseContainer u cs line with e | c
        · rfl
        · show Except.ok _ = Except.ok _
          simp [declarationsOf, containersOf]
      · rfl

/-- A line of the functions section. -/
theorem readLine_functions {line : Text} (hline : line ≠ typesKeyWord) (objects : List TLObjectSpec)
    (ds : List TLMethodSpec) (cs : List TLContainerSpec) :
    readLine u ⟨false, ds, objects, cs⟩ line =
      if isValidContainerScheme line then
        (methodLines u).declare cs line >>= fun spec =>
          .ok ⟨false, ds ++ declarationsOf [spec], objects, cs ++ containersOf [spec]⟩
      else .ok ⟨false, ds, objects, cs⟩ := by
  unfold readLine LineParser.declare
  by_cases hfunctions : line = functionsKeyWord
  · rw [if_neg hline, if_pos hfunctions, if_neg (by rw [hfunctions]; decide)]
  · rw [if_neg hline, if_neg hfunctions, if_neg (by simp)]
    by_cases hmethod : isValidObjectScheme line = true
    · rw [if_pos (by simpa [isValidMethodScheme] using hmethod),
        if_pos (isValidContainerScheme_of_isValidObjectScheme hmethod), if_pos hmethod]
      change (parseMethod u cs line >>= fun _ => _) = (parseMethod u cs line >>= fun _ => _) >>=
        fun _ => _
      rcases parseMethod u cs line with e | d
      · rfl
      · show Except.ok _ = Except.ok _
        simp [declarationsOf, containersOf]
    · rw [if_neg (by simpa [isValidMethodScheme] using hmethod), if_neg hmethod]
      split
      · rcases parseContainer u cs line with e | c
        · rfl
        · show Except.ok _ = Except.ok _
          simp [declarationsOf, containersOf]
      · rfl

/-- A file is read section by section. -/
theorem parseSchemeFromFile_eq {types functions : List Text} (htypes : functionsKeyWord ∉ types)
    (hfunctions : typesKeyWord ∉ functions) :
    parseSchemeFromFile u (schemeFile types functions) = do
      let specs ← (objectLines u).readSection [] (types.filter isValidContainerScheme)
      let specs' ← (methodLines u).readSection (containersOf specs)
        (functions.filter isValidContainerScheme)
      return ⟨false, declarationsOf specs', declarationsOf specs,
        containersOf specs ++ containersOf specs'⟩ := by
  have hobjects := (objectLines u).foldlM_eq (readLine u) (fun ds cs => ⟨true, [], ds, cs⟩) types
    (fun line hline ds cs => readLine_types u (fun h => htypes (h ▸ hline)) ds cs) [] []
  rw [parseSchemeFromFile, schemeFile, List.foldlM_append, hobjects]
  rcases (objectLines u).readSection [] (types.filter isValidContainerScheme) with e | specs
  · rfl
  · have hmethods := (methodLines u).foldlM_eq (readLine u)
      (fun ds cs => ⟨false, ds, declarationsOf specs, cs⟩) functions
      (fun line hline ds cs => readLine_functions u (fun h => hfunctions (h ▸ hline)) _ ds cs) []
      (containersOf specs)
    have hkeyWord :
      readLine u ⟨true, [], declarationsOf specs, containersOf specs⟩ functionsKeyWord =
        .ok ⟨false, [], declarationsOf specs, containersOf specs⟩ := by
      rw [readLine, if_neg (by decide), if_pos rfl]
    show (functionsKeyWord :: functions).foldlM (readLine u) ⟨true, [], declarationsOf specs,
      containersOf specs⟩ = _
    rw [List.foldlM_cons, hkeyWord]
    exact hmethods

end

end Mtproto.Parsers
