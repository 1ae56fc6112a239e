import Mtproto.Parsers.Composition
import Mtproto.Lib.Family
import Mathlib.Data.List.Find

/-!
# How a declaration depends on the containers

The parsers look at the containers at one place, the lookup of a name, and what they find is a part
of what they return.  So parsing against a family of lists of containers is steady: a change of the
list that would show in a spec shows already where a single container is added.  Only the type of a
variable that is declared twice can be lost, which is why success of the base has to be carried
along.
-/

namespace Mtproto.Parsers

open Text

/-- The super type of the container that a name refers to. -/
def lookup (u : Unicode) (containers : List TLContainerSpec) (typeScheme : Text) : Option Named :=
  (findContainer u containers typeScheme).map TLContainerSpec.superType

section

variable {J : Type} (u : Unicode) (k : Comparison J) (containers : J → List TLContainerSpec)

/-- Lists of containers of which each has the names of the base, with tied lookups. -/
structure Contexts : Prop where
  more : ∀ typeScheme, (lookup u (containers k.base) typeScheme).isSome →
    ∀ j, (lookup u (containers j) typeScheme).isSome
  tied : ∀ typeScheme, k.Tied fun j => lookup u (containers j) typeScheme

/-- Maps with the same names and tied variables. -/
def TiedVariables (genericVariables : J → Variables) : Prop :=
  ∃ ws : List (J → Variable), (∀ j, genericVariables j = ws.map fun w => w j) ∧
    ∀ w ∈ ws, k.Tied w ∧ ∀ j, (w j).name = (w k.base).name

variable {u k containers}

/-! ## Variables -/

section

variable {genericVariables : J → Variables}

theorem tiedVariables_nil : TiedVariables k fun _ => [] := ⟨[], fun _ => rfl, by simp⟩

theorem TiedVariables.tied (h : TiedVariables k genericVariables) : k.Tied genericVariables := by
  obtain ⟨ws, hws, htied⟩ := h
  rw [show genericVariables = fun j => ws.map fun w => w j from funext hws]
  exact Comparison.tied_list fun w hw => (htied w hw).1

theorem TiedVariables.get (h : TiedVariables k genericVariables) (name : Text) :
    (∀ j, (genericVariables j).get name = none) ∨
      ∃ w, k.Tied w ∧ ∀ j, (genericVariables j).get name = some (w j) := by
  obtain ⟨ws, hws, htied⟩ := h
  have hfind : ∀ j, (genericVariables j).get name =
      (ws.find? fun w => (w k.base).name = name).map fun w => w j := by
    intro j
    rw [hws j, Variables.get, List.find?_map]
    congr 1
    apply List.find?_congr
    intro w hw
    simp [(htied w hw).2 j]
  rcases hsome : ws.find? (fun w => (w k.base).name = name) with - | w
  · left
    intro j
    rw [hfind j, hsome]
    rfl
  · right
    refine ⟨w, (htied w (List.mem_of_find?_eq_some hsome)).1, fun j => ?_⟩
    rw [hfind j, hsome]
    rfl

theorem TiedVariables.put (h : TiedVariables k genericVariables) {v : J → Variable} (hv : k.Tied v)
    (hname : ∀ j, (v j).name = (v k.base).name) :
    TiedVariables k fun j => (genericVariables j).put (v j) := by
  have hget := h.get (v k.base).name
  obtain ⟨ws, hws, htied⟩ := h
  rcases hget with hnone | ⟨w, -, hsome⟩
  · refine ⟨ws ++ [v], fun j => ?_, ?_⟩
    · change (genericVariables j).put (v j) = _
      rw [Variables.put, hname j, hnone j, hws j]
      simp
    · intro w hw
      rcases List.mem_append.1 hw with hw | hw
      · exact htied w hw
      · rw [List.mem_singleton.1 hw]
        exact ⟨hv, hname⟩
  · refine ⟨ws.map fun w => if (w k.base).name = (v k.base).name then v else w, fun j => ?_, ?_⟩
    · change (genericVariables j).put (v j) = _
      rw [Variables.put, hname j, hsome j, hws j]
      simp only [Option.isSome_some, if_true, List.map_map]
      apply List.map_congr_left
      intro w hw
      simp only [Function.comp_apply, (htied w hw).2 j]
      split <;> rfl
    · intro w' hw'
      obtain ⟨w, hw, rfl⟩ := List.mem_map.1 hw'
      split
      · exact ⟨hv, hname⟩
      · exact htied w hw

end

/-! ## Types -/

variable {genericVariables : J → Variables}

theorem Variable.spec_injective : Function.Injective Variable.spec := by
  rintro ⟨name, superType⟩ ⟨name', superType'⟩ h
  cases h
  rfl

theorem steady_parseGenericWith (hv : TiedVariables k genericVariables) {parse : J → TypeParser}
    {s : Text}
    (h : k.Steady fun j => parse j s) :
    k.Steady fun j => parseGenericWith u (genericVariables j) (parse j) s := by
  rcases hv.get (u.uppercase s) with hnone | ⟨w, hw, hsome⟩
  · simp only [parseGenericWith, hnone]
    exact h.map fun _ _ => TLTypeSpec.genericParameter.inj
  · simp only [parseGenericWith, hsome]
    exact Comparison.steady_ok (hw.map Variable.spec_injective)

theorem steady_parseNamedWith (hv : TiedVariables k genericVariables) {parse : J → TypeParser}
    {s : Text}
    (h : ∀ t, t.length < s.length → k.Steady fun j => parse j t) :
    k.Steady fun j => parseNamedWith u (genericVariables j) (parse j) s := by
  have hgenerics :=
    Comparison.steady_mapM (p := fun j => parseGenericWith u (genericVariables j) (parse j))
    (argumentSchemes s) fun argument hargument =>
      steady_parseGenericWith hv (h argument (length_argumentScheme_lt hargument))
  apply hgenerics.bind
  intro generics htied
  apply Comparison.steady_const_bind (snakeToTitleCase u (splitNamespace (plainName s)).2)
  intro name
  exact Comparison.steady_ok (htied.map fun _ _ h => (Named.mk.inj h).2.2)

theorem Named.object_injective {named named' : Named} (h : named.object = named'.object) :
    named = named' := by
  obtain ⟨nameSpace, name, generics⟩ := named
  cases h
  rfl

/-- The lookup of a name: what is found replaces the name. -/
theorem steady_name (hc : Contexts u k containers) {parse : J → Except Failure Named}
    (h : k.Steady parse)
    {s : Text} : k.Steady fun j =>
      (match findContainer u (containers j) s with
      | some c => .ok c.superType.container
      | none => parse j >>= fun named => .ok named.object : Except Failure TLTypeSpec) := by
  rintro ⟨t, ht⟩
  rcases hbase : findContainer u (containers k.base) s with - | c
  · simp only [hbase] at ht
    obtain ⟨named, hnamed, -⟩ := bind_eq_ok ht
    obtain ⟨r, hr, htied⟩ := h ⟨named, hnamed⟩
    refine ⟨fun j => match findContainer u (containers j) s with
      | some c => c.superType.container
      | none => (r j).object, fun j => ?_, fun hothers => ?_⟩
    · simp only [hr]
      rcases findContainer u (containers j) s with - | c <;> rfl
    · -- a name that is found by one of the others would show as a container
      have hnone : ∀ i ∈ k.others, findContainer u (containers i) s = none := by
        intro i hi
        have heq := hothers i hi
        rcases hi' : findContainer u (containers i) s with - | c
        · rfl
        · simp only [hbase, hi'] at heq
          cases heq
      have hlookup := hc.tied s fun i hi => by simp only [lookup, hnone i hi, hbase]
      simp only [lookup] at hlookup
      have hobject : r k.left = r k.right := by
        apply htied
        intro i hi
        have heq := hothers i hi
        simp only [hbase, hnone i hi] at heq
        exact Named.object_injective heq
      rcases hleft : findContainer u (containers k.left) s with - | c <;>
        rcases hright : findContainer u (containers k.right) s with - | c' <;>
        simp_all
  · have hall : ∀ j, ∃ c, findContainer u (containers j) s = some c := by
      intro j
      have hsome := hc.more s (by simp [lookup, hbase]) j
      rw [lookup, Option.isSome_map] at hsome
      exact Option.isSome_iff_exists.1 hsome
    choose x hx using hall
    refine ⟨fun j => (x j).superType.container, fun j => ?_, fun hothers => ?_⟩
    · simp only [hx]
    · have hlookup := hc.tied s fun i hi => by
        have heq := Named.container_injective (hothers i hi)
        simp only [lookup, hx, Option.map_some, heq]
      simp only [lookup, hx, Option.map_some, Option.some.injEq] at hlookup
      exact congrArg Named.container hlookup

theorem steady_parseType (hc : Contexts u k containers) (hv : TiedVariables k genericVariables)
    (s : Text) :
    k.Steady fun j => parseType u (genericVariables j) (containers j) s := by
  induction hlength : s.length using Nat.strong_induction_on generalizing s with
  | _ n ih =>
      have hparse : ∀ t, t.length < s.length →
          k.Steady fun j => parseType u (genericVariables j) (containers j) t :=
        fun t ht => ih t.length (hlength ▸ ht) t rfl
      simp only [parseType_eq u (genericVariables _) (containers _) s, parseTypeWith]
      rcases primitiveTypes.lookup s with - | clazz
      · rcases hv.get s with hnone | ⟨w, hw, hsome⟩
        · simp only [hnone]
          rcases signatureType s with - | typeSpec
          · by_cases hfixed : isFixedBytes s = true
            · simp only [hfixed, if_true]
              exact Comparison.steady_const _
            · by_cases hlist : isList s = true
              · simp only [hfixed, hlist, if_true]
                exact (steady_parseGenericWith hv (hparse _ (length_elementScheme_lt u hlist))).map
                  fun _ _ => TLTypeSpec.collection.inj
              · simp only [hfixed, hlist]
                exact steady_name hc (steady_parseNamedWith hv hparse)
          · exact Comparison.steady_const _
        · simp only [hsome]
          exact Comparison.steady_ok (hw.map Variable.spec_injective)
      · exact Comparison.steady_const _

/-! ## Declarations -/

theorem steady_parseProperty (hc : Contexts u k containers) (hv : TiedVariables k genericVariables)
    (s : Text) :
    k.Steady fun j => parseProperty u (genericVariables j) (containers j) s := by
  apply Comparison.steady_const_bind (parseFlagged u (after [':'] s))
  rintro ⟨flag, type⟩
  exact (steady_parseType hc hv type).map fun _ _ h => (TLPropertySpec.mk.inj h).2.2.2

/-- The loop over the variables. -/
theorem tiedVariables_parseVariables (hc : Contexts u k containers)
    (hv : TiedVariables k genericVariables)
    (schemes : List Text)
    (hbase : ∃ vs, parseVariables u (containers k.base) (genericVariables k.base) schemes =
        .ok vs) :
    ∃ vs, (∀ j, parseVariables u (containers j) (genericVariables j) schemes = .ok (vs j)) ∧
      TiedVariables k vs := by
  induction schemes generalizing genericVariables with
  | nil => exact ⟨genericVariables, fun _ => rfl, hv⟩
  | cons scheme rest ih =>
      obtain ⟨vs, hvs⟩ := hbase
      obtain ⟨v, hfirst, hrest⟩ := bind_eq_ok hvs
      obtain ⟨t, ht, -⟩ := bind_eq_ok hfirst
      obtain ⟨r, hr, htied⟩ := steady_parseType hc hv (after [':'] scheme) ⟨t, ht⟩
      let w : J → Variable := fun j => ⟨u.uppercase (before [':'] scheme), r j⟩
      have hw : ∀ j, parseGenericVariable u (genericVariables j) (containers j) scheme =
          .ok (w j) := by
        intro j
        have hj : parseType u (genericVariables j) (containers j) (after [':'] scheme) =
          .ok (r j) := hr j
        rw [parseGenericVariable, hj]
        rfl
      have hput := hv.put (v := w) (htied.map fun _ _ h => (Variable.mk.inj h).2) fun _ => rfl
      rw [hw k.base] at hfirst
      cases hfirst
      obtain ⟨vs', hvs', hvtied⟩ := ih hput ⟨vs, hrest⟩
      refine ⟨vs', fun j => ?_, hvtied⟩
      rw [parseVariables, hw j]
      exact hvs' j

theorem steady_parseDeclaration {σ : Type} (hc : Contexts u k containers)
    (blank : Except Failure (List TLPropertySpec))
    (parseSuperType : J → Variables → Text → Except Failure σ)
    (hsuper : ∀ (genericVariables : J → Variables), TiedVariables k genericVariables → ∀ s,
      k.Steady fun j => parseSuperType j (genericVariables j) s) (line : Text) :
    k.Steady fun j => parseDeclaration u (containers j) blank (parseSuperType j) line := by
  rintro ⟨d, hd⟩
  obtain ⟨vs, hvs, -⟩ := bind_eq_ok hd
  obtain ⟨genericVariables, hgenerics, htied⟩ :=
    tiedVariables_parseVariables hc tiedVariables_nil (variableSchemes line) ⟨vs, hvs⟩
  have hproperties : k.Steady fun j =>
      parseProperties u (containers j) blank (genericVariables j) line := by
    unfold parseProperties
    split
    · exact Comparison.steady_const blank
    · exact Comparison.steady_mapM _ fun s _ => steady_parseProperty hc htied s
  have hrest : k.Steady fun j => (do
      let tlPropertySpecs ← parseProperties u (containers j) blank (genericVariables j) line
      let superTypeSpec ← parseSuperType j (genericVariables j) (superTypeString u line)
      let formattedName ← snakeToTitleCase u (splitNamespace (constructorName line)).2
      .ok (Declaration.mk line formattedName (splitNamespace (constructorName line)).1 superTypeSpec
        (constructorHash u line) (hasFlags line) tlPropertySpecs (genericVariables j))) := by
    apply hproperties.bind
    intro properties hproperties
    apply (hsuper genericVariables htied (superTypeString u line)).bind
    intro superType hsuperType
    apply Comparison.steady_const_bind
    intro name
    apply Comparison.steady_ok
    intro hothers
    have hparts := fun i hi => Declaration.mk.inj (hothers i hi)
    have hp := hproperties fun i hi => (hparts i hi).2.2.2.2.2.2.1
    have hs := hsuperType fun i hi => (hparts i hi).2.2.2.1
    have hg := htied.tied fun i hi => (hparts i hi).2.2.2.2.2.2.2
    simp only [hp, hs, hg]
  have hline : (fun j => parseDeclaration u (containers j) blank (parseSuperType j) line) = fun j =>
    (do
      let tlPropertySpecs ← parseProperties u (containers j) blank (genericVariables j) line
      let superTypeSpec ← parseSuperType j (genericVariables j) (superTypeString u line)
      let formattedName ← snakeToTitleCase u (splitNamespace (constructorName line)).2
      .ok (Declaration.mk line formattedName (splitNamespace (constructorName line)).1 superTypeSpec
        (constructorHash u line) (hasFlags line) tlPropertySpecs (genericVariables j))) := by
    funext j
    rw [parseDeclaration, hgenerics j]
    rfl
  rw [hline]
  exact hrest ⟨d, by rw [← hd]; exact (congrFun hline k.base).symm⟩

theorem constructorHash_of_parseDeclaration {σ : Type} {containers : List TLContainerSpec}
    {blank : Except Failure (List TLPropertySpec)}
    {parseSuperType : Variables → Text → Except Failure σ}
    {line : Text} {d : Declaration σ}
    (h : parseDeclaration u containers blank parseSuperType line = .ok d) :
    d.constructorHash = constructorHash u line := by
  obtain ⟨genericVariables, -, h⟩ := bind_eq_ok h
  obtain ⟨properties, -, h⟩ := bind_eq_ok h
  obtain ⟨superType, -, h⟩ := bind_eq_ok h
  obtain ⟨name, -, h⟩ := bind_eq_ok h
  cases h
  rfl

theorem Declaration.eq_of_containerSpec {d d' : Declaration Named}
    (h : d.containerSpec = d'.containerSpec)
    (hhash : d.constructorHash = d'.constructorHash) : d = d' := by
  obtain ⟨rawScheme, name, nameSpace, superType, hash, hasFlags, properties, genericVariables⟩ := d
  cases h
  cases hhash
  rfl

theorem steady_rethrown {α : Type} {p : J → Except Failure α} (h : k.Steady p) (line : Text) :
    k.Steady fun j => Parsers.rethrown line (p j) := by
  rintro ⟨a, ha⟩
  obtain ⟨r, hr, htied⟩ := h ⟨a, eq_ok_of_rethrown ha⟩
  refine ⟨r, fun j => ?_, htied⟩
  change Parsers.rethrown line (p j) = _
  rw [hr j]
  rfl

/-! ## The parsers -/

section

variable (hc : Contexts u k containers)

include hc

theorem steady_parseTLObject (genericVariables : J → Variables)
    (hv : TiedVariables k genericVariables) (s : Text) :
    k.Steady fun j => parseTLObject u (genericVariables j) (containers j) s :=
  steady_parseNamedWith hv fun t _ => steady_parseType hc hv t

theorem steady_parseObject (line : Text) : k.Steady fun j => parseObject u (containers j) line := by
  unfold parseObject
  split
  · apply steady_rethrown
    exact steady_parseDeclaration hc (.ok []) (fun j genericVariables =>
      parseTLObject u genericVariables (containers j))
      (steady_parseTLObject hc) line
  · exact Comparison.steady_const _

theorem steady_parseMethod (line : Text) : k.Steady fun j => parseMethod u (containers j) line := by
  unfold parseMethod
  split
  · apply steady_rethrown
    exact steady_parseDeclaration hc (.ok []) (fun j genericVariables =>
      parseType u genericVariables (containers j))
      (fun _ hv => steady_parseType hc hv) line
  · exact Comparison.steady_const _

theorem steady_parseContainer (line : Text) :
    k.Steady fun j => parseContainer u (containers j) line := by
  unfold parseContainer
  split
  · apply steady_rethrown
    rintro ⟨c, hc'⟩
    obtain ⟨d, hd, -⟩ := map_eq_ok hc'
    obtain ⟨r, hr, htied⟩ := steady_parseDeclaration hc
      (.error (.scheme line "Containers must have at least on property"))
      (fun j genericVariables => parseTLContainer u genericVariables (containers j))
      (steady_parseTLObject hc) line ⟨d, hd⟩
    refine ⟨fun j => (r j).containerSpec, fun j => ?_, fun hothers => ?_⟩
    · exact congrArg (Functor.map Declaration.containerSpec) (hr j)
    · -- the hash, which a container does not keep, is the same for all
      have hhash : ∀ j, (r j).constructorHash = constructorHash u line := fun j =>
        constructorHash_of_parseDeclaration (hr j)
      apply congrArg Declaration.containerSpec
      apply htied
      intro i hi
      apply Declaration.eq_of_containerSpec (hothers i hi)
      rw [hhash i, hhash k.base]
  · exact Comparison.steady_const _

end

end

end Mtproto.Parsers
