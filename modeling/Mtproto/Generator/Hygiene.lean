import Mtproto.Generator.FromScheme
import Mtproto.Generator.Names

/-!
# Names that do not clash

In the `parse` of a variant every local is declared once in its scope, and every name in the code
means what the generator meant by it: a local of the field itself, the flags, or something from
outside of the function.  Nothing ensures this.  The locals are named after the fields, whose names
come from a lossy conversion, after the sizes of lists, and `flags` and `element`; lists in lists
reuse `element` and always go wrong (`hygienic_iff`).
-/

namespace Mtproto.Generator

open Scopes

/-! ## What a name means -/

section

variable (simpleName : ParserClass → String)

/-- The name in the text; `simpleName` are the names of the generated classes. -/
def Outside.name : Outside → String
  | .inputStream => "inputStream"
  | .outputStream => "outputStream"
  | .parser name => name
  | .companion type => simpleName type

/-- The local that a name refers to: the one in the innermost scope. -/
def resolve (scopes : List (List Local)) (name : String) : Option Local :=
  scopes.flatten.find? fun x => x.name = name

/-- A declared name is new in its scope, and a name does not refer to a local that is not meant. -/
def Clear (scopes : List (List Local)) : Event Local Outside → Prop
  | .declare x => ∀ y ∈ scopes.headD [], y.name ≠ x.name
  | .refer x => ∀ y, resolve scopes x.name = some y → y = x
  | .outside o => resolve scopes (o.name simpleName) = none
  | .enter => True
  | .leave => True

/-- No name in the `parse` of a variant clashes or is captured. -/
def TLObjectSpec.Hygienic (spec : TLObjectSpec) : Prop :=
  All (Clear simpleName) [[]] (functionEvents spec.hasFlags spec.propertiesSpecs)

/-! ## When names are apart -/

/-- The names that the code of a type uses are not those of the locals around it. -/
def Shape.Reads (hasFlags : Bool) (name : String) (index : Option ℤ) (outer : List String) : Shape →
    Prop
  | .value e =>
      (index.isSome → hasFlags ∨ flagsPropertyName ∉ name :: outer) ∧
        ∀ o ∈ e.outside, o.name simpleName ∉ (if index.isSome then name :: outer else outer)
  | .flag => index.isSome → hasFlags ∨ flagsPropertyName ∉ outer
  | .nothing => True
  | .list (.value e) =>
      "inputStream" ∉ outer ∧ name ≠ arrayElementName ∧
        ∀ o ∈ e.outside, o.name simpleName ∉ name :: sizeFieldName name :: outer
  | .list .flag => "inputStream" ∉ outer ∧ arrayElementName ∉ name :: sizeFieldName name :: outer
  | .list .nothing => "inputStream" ∉ outer ∧ arrayElementName ∉ name :: sizeFieldName name :: outer
  | .list (.list _) => False

/-- The locals have different names, and none of them has the name of something else that is used
where the local is known. -/
structure Tidy (hasFlags : Bool) (propertiesSpecs : List TLPropertySpec) : Prop where
  nodup : (functionNames hasFlags propertiesSpecs).Nodup
  reads : ∀ front p back, propertiesSpecs = front ++ p :: back →
    p.typeSpec.shape.Reads simpleName hasFlags p.name p.flag (functionNames hasFlags front)
  returned : ∀ p ∈ propertiesSpecs, p.declaredNames = [] →
    p.name ∉ functionNames hasFlags propertiesSpecs

end

/-! ## Resolving -/

section Resolve

variable {scope : List Local} {outer : List (List Local)} {x : Local} {name : String}

theorem resolve_eq_none_iff {scopes : List (List Local)} :
    resolve scopes name = none ↔ name ∉ scopes.flatten.map Local.name := by
  simp only [resolve, List.find?_eq_none, List.mem_map, decide_eq_true_eq]
  exact ⟨fun h ⟨y, hy, hname⟩ => h y hy hname, fun h y hy hname => h ⟨y, hy, hname⟩⟩

@[simp] theorem resolve_nil_cons : resolve ([] :: outer) name = resolve outer name := rfl

theorem resolve_cons_self : resolve ((x :: scope) :: outer) x.name = some x := by
  simp [resolve]

theorem resolve_cons_of_ne (h : x.name ≠ name) :
    resolve ((x :: scope) :: outer) name = resolve (scope :: outer) name := by
  simp [resolve, h]

theorem mem_of_resolve {scopes : List (List Local)} (h : resolve scopes name = some x) :
    x ∈ scopes.flatten ∧ x.name = name := by
  have hname := List.find?_some h
  exact ⟨List.mem_of_find?_eq_some h, by simpa using hname⟩

/-- A local that is not there is not meant by any name. -/
theorem resolve_ne_iff {scopes : List (List Local)} (h : x ∉ scopes.flatten) :
    (∀ y, resolve scopes name = some y → y = x) ↔ name ∉ scopes.flatten.map Local.name := by
  rw [← resolve_eq_none_iff]
  refine ⟨fun hname => ?_, fun hname y hy => by simp [hname] at hy⟩
  cases hresolve : resolve scopes name with
  | none => rfl
  | some y =>
      obtain rfl := hname y hresolve
      exact absurd (mem_of_resolve hresolve).1 h

/-- With one local of each name, a local is what its name refers to. -/
theorem resolve_of_mem (hnodup : (scope.map Local.name).Nodup) (hx : x ∈ scope) :
    resolve [scope] x.name = some x := by
  cases hresolve : resolve [scope] x.name with
  | none =>
      rw [resolve_eq_none_iff] at hresolve
      exact absurd (List.mem_map_of_mem (by simpa using hx)) hresolve
  | some y =>
      obtain ⟨hy, hname⟩ := mem_of_resolve hresolve
      rw [List.inj_on_of_nodup_map hnodup (by simpa using hy) hx hname]

end Resolve

/-! ## The scope of the function -/

/-- The locals of the function between two properties. -/
structure Settled (hasFlags : Bool) (scope : List Local) : Prop where
  nodup : (scope.map Local.name).Nodup
  flags_mem_iff : flagsLocal ∈ scope ↔ hasFlags = true
  element_not_mem : ∀ i depth, elementLocal i depth ∉ scope

section Settled

variable {simpleName : ParserClass → String} {hasFlags : Bool} {scope : List Local}

theorem Settled.cons {x : Local} (h : Settled hasFlags scope)
    (hname : x.name ∉ scope.map Local.name)
    (hflags : x ≠ flagsLocal) (helement : ∀ i depth, x ≠ elementLocal i depth) :
    Settled hasFlags (x :: scope) where
  nodup := by
    rw [List.map_cons, List.nodup_cons]
    exact ⟨hname, h.nodup⟩
  flags_mem_iff := by
    rw [List.mem_cons, or_iff_right hflags.symm]
    exact h.flags_mem_iff
  element_not_mem i depth := by
    rw [List.mem_cons, not_or]
    exact ⟨(helement i depth).symm, h.element_not_mem i depth⟩

/-- The flags are found if they are there, and nothing else is if not. -/
theorem clear_flags_iff (h : Settled hasFlags scope) :
    Clear simpleName [scope] (.refer flagsLocal) ↔
      hasFlags = true ∨ flagsPropertyName ∉ scope.map Local.name := by
  by_cases hflags : hasFlags = true
  · have hmem := h.flags_mem_iff.2 hflags
    have hresolve : resolve [scope] flagsLocal.name = some flagsLocal := resolve_of_mem h.nodup hmem
    refine ⟨fun _ => .inl hflags, fun _ y hy => ?_⟩
    rw [hresolve] at hy
    exact (Option.some.inj hy).symm
  · have hmem : flagsLocal ∉ [scope].flatten := by
      simpa using fun hmem => hflags (h.flags_mem_iff.1 hmem)
    rw [or_iff_right hflags, Clear, resolve_ne_iff hmem]
    simp [flagsLocal]

theorem clear_outside_iff {scopes : List (List Local)} {os : List Outside} :
    (∀ o ∈ os, Clear simpleName scopes (.outside o)) ↔
      ∀ o ∈ os, o.name simpleName ∉ scopes.flatten.map Local.name :=
  forall₂_congr fun _ _ => resolve_eq_none_iff

theorem clear_declare_iff {x : Local} {outer : List (List Local)} :
    Clear simpleName (scope :: outer) (.declare x) ↔ x.name ∉ scope.map Local.name := by
  simp only [Clear, List.headD_cons, List.mem_map]
  exact ⟨fun h ⟨y, hy, hname⟩ => h y hy hname, fun h y hy hname => h ⟨y, hy, hname⟩⟩

@[simp] theorem clear_enter {scopes : List (List Local)} : Clear simpleName scopes .enter ↔ True :=
  Iff.rfl

@[simp] theorem clear_leave {scopes : List (List Local)} : Clear simpleName scopes .leave ↔ True :=
  Iff.rfl

theorem clear_refer_self {x : Local} {scopes : List (List Local)}
    (h : resolve scopes x.name = some x) :
    Clear simpleName scopes (.refer x) := by
  intro y hy
  rw [h] at hy
  exact (Option.some.inj hy).symm

theorem sizeFieldName_ne (name : String) : sizeFieldName name ≠ name := by
  intro h
  have hlength := congrArg String.length h
  rw [sizeFieldName, String.length_append] at hlength
  simp at hlength

variable {i : ℕ} {self : Local}

theorem all_clear_value (h : Settled hasFlags scope) (hself : self.role = .field i) (e : Expr)
    (index : Option ℤ) :
    All (Clear simpleName) [scope] ((Shape.value e).events i 0 self index) ↔
      self.name ∉ scope.map Local.name ∧
        (Shape.value e).Reads simpleName hasFlags self.name index (scope.map Local.name) := by
  cases index with
  | none =>
      rw [all_value_none, clear_outside_iff, clear_declare_iff, and_comm]
      simp [Shape.Reads]
  | some index =>
      rw [all_value_some, clear_outside_iff, clear_declare_iff]
      refine and_congr_right fun hfresh => ?_
      have hsettled : Settled hasFlags (self :: scope) :=
        h.cons hfresh (by rintro rfl; cases hself) (by rintro i depth rfl; cases hself)
      have hrefer : Clear simpleName [[], self :: scope] (.refer self) :=
        clear_refer_self resolve_cons_self
      rw [clear_flags_iff hsettled]
      simp [Shape.Reads, hrefer]

theorem all_clear_flag (h : Settled hasFlags scope) (index : ℤ) :
    All (Clear simpleName) [scope] (Shape.flag.events i 0 self (some index)) ↔
      self.name ∉ scope.map Local.name ∧
        Shape.flag.Reads simpleName hasFlags self.name (some index) (scope.map Local.name) := by
  rw [all_flag_some, clear_flags_iff h, clear_declare_iff, and_comm]
  simp [Shape.Reads]

/-- What has to hold around the loop of a list, whatever its elements are. -/
theorem all_clear_list (element : Shape) (index : Option ℤ) (size : Local)
    (hsize : size = sizeLocal i 0 self)
    (inner : List Local) (hinner : inner = element.locals i 1 (elementLocal i 1) none) :
    All (Clear simpleName) [scope] ((Shape.list element).events i 0 self index) ↔
      (self.name ∉ scope.map Local.name ∧ size.name ∉ scope.map Local.name) ∧
        "inputStream" ∉ scope.map Local.name ∧
        All (Clear simpleName) [[],
          self :: size :: scope] (element.events i 1 (elementLocal i 1) none) ∧
        Clear simpleName [inner, self :: size :: scope] (.refer self) ∧
        Clear simpleName [inner, self :: size :: scope] (.refer (elementLocal i 1)) := by
  have hne : self.name ≠ size.name := by
    rw [hsize]
    exact (sizeFieldName_ne self.name).symm
  have hself : Clear simpleName [self :: size :: scope] (.refer self) :=
    clear_refer_self resolve_cons_self
  have hnew : Clear simpleName [size :: scope] (.refer size) := clear_refer_self resolve_cons_self
  have hold : Clear simpleName [self :: size :: scope] (.refer size) :=
    clear_refer_self ((resolve_cons_of_ne hne).trans resolve_cons_self)
  have hstream : Clear simpleName [scope] (.outside .inputStream) ↔
      "inputStream" ∉ scope.map Local.name := by
    have h : resolve [scope] "inputStream" = none ↔ _ := resolve_eq_none_iff
    rw [List.flatten_singleton] at h
    exact h
  have hdeclare : Clear simpleName [size :: scope] (.declare self) ↔
      self.name ∉ scope.map Local.name := by
    rw [clear_declare_iff, List.map_cons, List.mem_cons, not_or, and_iff_right hne]
  rw [all_list size hsize _ rfl inner hinner, clear_declare_iff, hstream, hdeclare]
  simp only [hself, hnew, hold, clear_enter, clear_leave, true_and, and_true]
  tauto

/-- The element hides a list of its name. -/
theorem clear_refer_list_iff (hself : self.role = .field i) (scopes : List (List Local)) :
    Clear simpleName ([elementLocal i 1] :: (self :: scope) :: scopes) (.refer self) ↔
      self.name ≠ arrayElementName := by
  refine ⟨fun h hname => ?_, fun hname => ?_⟩
  · have hresolve : resolve ([elementLocal i 1] :: (self :: scope) :: scopes) self.name =
        some (elementLocal i 1) := by
      rw [hname]
      exact resolve_cons_self
    obtain rfl := h _ hresolve
    cases hself
  · apply clear_refer_self
    rw [resolve_cons_of_ne (Ne.symm hname)]
    exact resolve_cons_self

/-- Without code for the elements, `element` should not mean anything. -/
theorem clear_refer_element_iff (h : Settled hasFlags scope) (hself : self.role = .field i) :
    Clear simpleName [[], self :: sizeLocal i 0 self :: scope] (.refer (elementLocal i 1)) ↔
      arrayElementName ∉ self.name :: sizeFieldName self.name :: scope.map Local.name := by
  have hmem : elementLocal i 1 ∉ [[], self :: sizeLocal i 0 self :: scope].flatten := by
    have hne : elementLocal i 1 ≠ self := by
      rintro rfl
      cases hself
    have hsize : elementLocal i 1 ≠ sizeLocal i 0 self := by simp [elementLocal, sizeLocal]
    simp [hne, hsize, h.element_not_mem]
  rw [Clear, resolve_ne_iff hmem]
  simp [elementLocal, sizeLocal]

/-- In a list of lists the element of the inner loop is added to itself. -/
theorem not_all_clear_nested (element : Shape) (body : List (List Local)) :
    ¬ All (Clear simpleName) ([] :: body)
      ((Shape.list element).events i 1 (elementLocal i 1) none) := by
  rw [all_list _ rfl _ rfl _ rfl]
  rintro ⟨-, -, -, hlist, helement, -⟩
  -- a name of the inner scope hides the list, and without one the list is taken for the element
  have hcaptured : ∀ rest, element.locals i 2 (elementLocal i 2) none = elementLocal i 2 :: rest →
      False := by
    intro rest hlocals
    rw [hlocals] at hlist
    have hne := hlist _ resolve_cons_self
    simp [elementLocal] at hne
  have hempty : element.locals i 2 (elementLocal i 2) none = [] → False := by
    intro hlocals
    rw [hlocals] at helement
    have hne := helement (elementLocal i 1) (resolve_cons_self (x := elementLocal i 1))
    simp [elementLocal] at hne
  cases element with
  | value e => exact hcaptured [] rfl
  | flag => exact hempty rfl
  | nothing => exact hempty rfl
  | list element => exact hcaptured _ rfl

theorem all_clear_list_iff (h : Settled hasFlags scope) (hself : self.role = .field i)
    (element : Shape)
    (index : Option ℤ) :
    All (Clear simpleName) [scope] ((Shape.list element).events i 0 self index) ↔
      (self.name ∉ scope.map Local.name ∧ sizeFieldName self.name ∉ scope.map Local.name) ∧
        (Shape.list element).Reads simpleName hasFlags self.name index (scope.map Local.name) := by
  rw [all_clear_list element index _ rfl _ rfl]
  refine and_congr_right fun hfresh => ?_
  cases element with
  | value e =>
      have helement : Clear simpleName [[elementLocal i 1], self :: sizeLocal i 0 self :: scope]
          (.refer (elementLocal i 1)) := clear_refer_self resolve_cons_self
      rw [all_value_none, clear_outside_iff, clear_declare_iff]
      simp only [Shape.locals, clear_refer_list_iff hself, helement]
      simp [Shape.Reads, sizeLocal]
      tauto
  | flag =>
      have hlist : Clear simpleName [[], self :: sizeLocal i 0 self :: scope] (.refer self) :=
        clear_refer_self resolve_cons_self
      simp [Shape.events, Shape.locals, Shape.Reads, hlist, clear_refer_element_iff h hself]
  | nothing =>
      have hlist : Clear simpleName [[], self :: sizeLocal i 0 self :: scope] (.refer self) :=
        clear_refer_self resolve_cons_self
      simp [Shape.events, Shape.locals, Shape.Reads, hlist, clear_refer_element_iff h hself]
  | list element => simp [Shape.Reads, not_all_clear_nested]

/-- The code of a property is clear if its locals are new and it does not use the names of the
locals around it. -/
theorem all_clear_shape (h : Settled hasFlags scope) (hself : self.role = .field i) (shape : Shape)
    (index : Option ℤ) :
    All (Clear simpleName) [scope] (shape.events i 0 self index) ↔
      ((shape.locals i 0 self index ++ scope).map Local.name).Nodup ∧
        shape.Reads simpleName hasFlags self.name index (scope.map Local.name) := by
  cases shape with
  | value e =>
      rw [all_clear_value h hself, Shape.locals, List.singleton_append, List.map_cons,
        List.nodup_cons, and_iff_left h.nodup]
  | flag =>
      cases index with
      | none => simp [Shape.events, Shape.locals, Shape.Reads, h.nodup]
      | some index =>
          rw [all_clear_flag h, Shape.locals, Option.isSome_some, if_pos rfl, List.singleton_append,
            List.map_cons, List.nodup_cons, and_iff_left h.nodup]
  | nothing => cases index <;> simp [Shape.events, Shape.locals, Shape.Reads, h.nodup]
  | list element =>
      have hne := (sizeFieldName_ne self.name).symm
      rw [all_clear_list_iff h hself]
      simp [Shape.locals, sizeLocal, h.nodup, hne]

theorem reads_congr {outer outer' : List String} (h : ∀ name, name ∈ outer ↔ name ∈ outer')
    (name : String)
    (index : Option ℤ) (shape : Shape) :
    shape.Reads simpleName hasFlags name index outer ↔
      shape.Reads simpleName hasFlags name index outer' := by
  rcases shape with e | _ | _ | (e | _ | _ | element) <;> cases index <;> simp [Shape.Reads, h]

end Settled

/-! ## The locals of a function -/

/-- The locals of the properties from the `i`-th on, the last one first. -/
def propertiesLocals : ℕ → List TLPropertySpec → List Local
  | _, [] => []
  | i, p :: ps => propertiesLocals (i + 1) ps ++ p.locals i

def flagsScope (hasFlags : Bool) : List Local := if hasFlags then [flagsLocal] else []

theorem after_propertiesEvents (i : ℕ) (ps : List TLPropertySpec) (scope : List Local) :
    after [scope] (propertiesEvents i ps) = [propertiesLocals i ps ++ scope] := by
  induction ps generalizing i scope with
  | nil => rfl
  | cons p ps ih =>
      rw [propertiesEvents, after_append, after_property, ih, propertiesLocals, List.append_assoc]

theorem perm_propertiesLocals (i : ℕ) (ps : List TLPropertySpec) :
    ((propertiesLocals i ps).map Local.name).Perm (ps.flatMap TLPropertySpec.declaredNames) := by
  induction ps generalizing i with
  | nil => exact .refl _
  | cons p ps ih =>
      rw [propertiesLocals, List.map_append, map_name_locals, List.flatMap_cons]
      exact (List.perm_append_comm).trans ((ih (i + 1)).append_left _)

theorem mem_propertiesLocals {i : ℕ} {ps : List TLPropertySpec} {x : Local} :
    x ∈ propertiesLocals i ps ↔ ∃ q ∈ ps.zipIdx i, x ∈ q.1.locals q.2 := by
  induction ps generalizing i with
  | nil => simp [propertiesLocals]
  | cons p ps ih =>
      rw [propertiesLocals, List.mem_append, ih, List.zipIdx_cons]
      simp [or_comm]

/-- The locals of a property carry its index. -/
theorem role_of_mem_locals {i : ℕ} {p : TLPropertySpec} {x : Local} (h : x ∈ p.locals i) :
    x = p.field i ∨ x = sizeLocal i 0 (p.field i) := by
  unfold TLPropertySpec.locals at h
  cases hshape : p.typeSpec.shape <;> cases hflag : p.flag <;> simp_all [Shape.locals]

theorem field_mem_locals_iff {i : ℕ} {p : TLPropertySpec} :
    p.field i ∈ p.locals i ↔ p.declaredNames ≠ [] := by
  rw [← map_name_locals i p]
  unfold TLPropertySpec.locals
  cases p.typeSpec.shape <;> cases p.flag <;> simp [Shape.locals]

section Function

variable {simpleName : ParserClass → String} {hasFlags : Bool} {scope : List Local}

theorem Settled.append (h : Settled hasFlags scope) {i : ℕ} {p : TLPropertySpec}
    (hnodup : ((p.locals i ++ scope).map Local.name).Nodup) :
    Settled hasFlags (p.locals i ++ scope) where
  nodup := hnodup
  flags_mem_iff := by
    have hnot : flagsLocal ∉ p.locals i := by
      intro hmem
      rcases role_of_mem_locals hmem with h | h <;> cases h
    rw [List.mem_append, or_iff_right hnot]
    exact h.flags_mem_iff
  element_not_mem j depth := by
    have hnot : elementLocal j depth ∉ p.locals i := by
      intro hmem
      rcases role_of_mem_locals hmem with h | h <;> cases h
    rw [List.mem_append, not_or]
    exact ⟨hnot, h.element_not_mem j depth⟩

theorem all_clear_properties (h : Settled hasFlags scope) (i : ℕ) (ps : List TLPropertySpec) :
    All (Clear simpleName) [scope] (propertiesEvents i ps) ↔
      ((propertiesLocals i ps ++ scope).map Local.name).Nodup ∧
        ∀ front p back, ps = front ++ p :: back →
          p.typeSpec.shape.Reads simpleName hasFlags p.name p.flag
          (scope.map Local.name ++ front.flatMap TLPropertySpec.declaredNames) := by
  induction ps generalizing i scope with
  | nil => simp [propertiesEvents, propertiesLocals, h.nodup]
  | cons p ps ih =>
      have hmem : ∀ front : List TLPropertySpec, ∀ name,
          name ∈ (p.locals i ++ scope).map Local.name ++
            front.flatMap TLPropertySpec.declaredNames ↔
            name ∈ scope.map Local.name ++ (p :: front).flatMap TLPropertySpec.declaredNames := by
        intro front name
        simp only [List.map_append, map_name_locals, List.flatMap_cons, List.mem_append]
        tauto
      rw [propertiesEvents, all_append, after_property, TLPropertySpec.events,
        all_clear_shape h rfl, forall_split_cons, propertiesLocals, List.append_assoc,
        List.flatMap_nil, List.append_nil]
      constructor
      · rintro ⟨⟨hnodup, hreads⟩, hrest⟩
        obtain ⟨hall, hback⟩ := (ih (h.append hnodup) (i + 1)).1 hrest
        exact ⟨hall, hreads, fun front q back hps =>
          (reads_congr (hmem front) _ _ _).1 (hback front q back hps)⟩
      · rintro ⟨hall, hreads, hback⟩
        have hnodup : ((p.locals i ++ scope).map Local.name).Nodup := by
          rw [List.map_append] at hall
          exact hall.of_append_right
        refine ⟨⟨hnodup, hreads⟩,
          (ih (h.append hnodup) (i + 1)).2 ⟨hall, fun front q back hps => ?_⟩⟩
        exact (reads_congr (hmem front) _ _ _).2 (hback front q back hps)

theorem all_returnEvents {P : List (List Local) → Event Local Outside → Prop}
    {scopes : List (List Local)} (i : ℕ)
    (ps : List TLPropertySpec) :
    All P scopes (returnEvents i ps) ↔ ∀ q ∈ ps.zipIdx i, P scopes (.refer (q.1.field q.2)) := by
  induction ps generalizing i with
  | nil => simp [returnEvents]
  | cons p ps ih =>
      rw [returnEvents, all_cons, List.zipIdx_cons, List.forall_mem_cons]
      exact and_congr_right fun _ => ih (i + 1)

/-- A field in the constructor call means its local, or nothing if it has none. -/
theorem clear_return_iff {ps : List TLPropertySpec} {i : ℕ} {p : TLPropertySpec}
    (hp : (p, i) ∈ ps.zipIdx)
    (h : ((propertiesLocals 0 ps ++ flagsScope hasFlags).map Local.name).Nodup) :
    Clear simpleName [propertiesLocals 0 ps ++ flagsScope hasFlags] (.refer (p.field i)) ↔
      (p.declaredNames = [] →
        p.name ∉ (propertiesLocals 0 ps ++ flagsScope hasFlags).map Local.name) := by
  by_cases hlocals : p.declaredNames = []
  · have hmem : p.field i ∉ propertiesLocals 0 ps ++ flagsScope hasFlags := by
      rw [List.mem_append, not_or]
      constructor
      · rw [mem_propertiesLocals]
        rintro ⟨⟨q, j⟩, hq, hfield⟩
        obtain rfl : i = j := by
          rcases role_of_mem_locals hfield with hrole | hrole
          · simpa [TLPropertySpec.field] using congrArg Local.role hrole
          · simp [TLPropertySpec.field, sizeLocal] at hrole
        obtain rfl : p = q := by
          rw [List.mk_mem_zipIdx_iff_getElem?] at hp hq
          exact Option.some.inj (hp.symm.trans hq)
        exact field_mem_locals_iff.1 hfield hlocals
      · cases hasFlags <;> simp [flagsScope, flagsLocal, TLPropertySpec.field]
    have hrefer : (∀ y, resolve [propertiesLocals 0 ps ++ flagsScope hasFlags] p.name = some y →
        y = p.field i) ↔ _ :=
      resolve_ne_iff (by rwa [List.flatten_singleton])
    rw [List.flatten_singleton] at hrefer
    exact hrefer.trans ⟨fun hname _ => hname, fun hname => hname hlocals⟩
  · have hmem : p.field i ∈ propertiesLocals 0 ps ++ flagsScope hasFlags :=
      List.mem_append_left _ (mem_propertiesLocals.2 ⟨(p, i), hp, field_mem_locals_iff.2 hlocals⟩)
    exact ⟨fun _ h' => absurd h' hlocals, fun _ => clear_refer_self (resolve_of_mem h hmem)⟩

end Function

/-- The names in the `parse` of an object are those of the emitted code, and none of them clashes or
is captured if and only if the names of the locals are apart from each other and from what is used
where they are known. -/
theorem hygienic_iff (simpleName : ParserClass → String) (spec : TLObjectSpec) :
    eraseNames (functionEvents spec.hasFlags spec.propertiesSpecs) =
        blockEvents (addObjectParseFunction spec.hasFlags spec.propertiesSpecs) ++
          spec.propertiesSpecs.map (fun p => .refer p.name) ∧
      (spec.Hygienic simpleName ↔ Tidy simpleName spec.hasFlags spec.propertiesSpecs) := by
  refine ⟨eraseNames_functionEvents _ _, ?_⟩
  obtain ⟨-, -, hasFlags, ps, -⟩ := spec
  have hsettled : Settled hasFlags (flagsScope hasFlags) := by
    cases hasFlags <;> refine ⟨?_, ?_, ?_⟩ <;> simp [flagsScope, flagsLocal, elementLocal]
  have hflags : All (Clear simpleName) [[]] (flagsEvents hasFlags) := by
    cases hasFlags <;> simp [flagsEvents, Clear, resolve, Event.next]
  have hafter : after [[]] (flagsEvents hasFlags) = [flagsScope hasFlags] := by
    cases hasFlags <;> rfl
  have hnames : (flagsScope hasFlags).map Local.name =
      if hasFlags then [flagsPropertyName] else [] := by
    cases hasFlags <;> rfl
  have hperm :
      ((propertiesLocals 0 ps ++ flagsScope hasFlags).map Local.name).Perm
        (functionNames hasFlags ps) := by
    rw [List.map_append, hnames, functionNames]
    exact ((perm_propertiesLocals 0 ps).append_right _).trans List.perm_append_comm
  rw [TLObjectSpec.Hygienic, functionEvents, all_append, and_iff_right hflags, hafter, all_append,
    after_propertiesEvents, all_clear_properties hsettled, all_returnEvents, hnames]
  constructor
  · rintro ⟨⟨hnodup, hreads⟩, hreturn⟩
    refine ⟨hperm.nodup_iff.1 hnodup, hreads, fun p hp hlocals hmem => ?_⟩
    obtain ⟨i, hi⟩ := List.mem_iff_getElem?.1 hp
    have hclear := hreturn (p, i) (List.mk_mem_zipIdx_iff_getElem?.2 hi)
    exact (clear_return_iff (List.mk_mem_zipIdx_iff_getElem?.2 hi) hnodup).1 hclear hlocals
      (hperm.mem_iff.2 hmem)
  · rintro ⟨hnodup, hreads, hreturned⟩
    have hnodup' := hperm.nodup_iff.2 hnodup
    refine ⟨⟨hnodup', hreads⟩, fun q hq => (clear_return_iff hq hnodup').2 fun hlocals hmem => ?_⟩
    exact hreturned q.1 (List.fst_mem_of_mem_zipIdx hq) hlocals (hperm.mem_iff.1 hmem)

/-- The fields `max_id` and `maxId` share one local. -/
theorem not_hygienic_camelCase :
    ∃ spec, Parsers.parseObject .ascii [] "foo#1 max_id:int maxId:int = Foo;".toList = .ok spec ∧
      (spec.propertiesSpecs.map fun p => Text.before [':'] p.rawScheme) =
        ["max_id".toList, "maxId".toList] ∧
      ∀ simpleName, ¬ (ofObjectSpec (fun _ => 1) spec).Hygienic simpleName := by
  refine ⟨⟨"foo#1 max_id:int maxId:int = Foo;".toList, "Foo".toList, none, ⟨none, "Foo".toList, []⟩,
    "1".toList, false,
    [⟨"max_id:int".toList, "maxId".toList, none, .primitive .int⟩,
      ⟨"maxId:int".toList, "maxId".toList, none, .primitive .int⟩],
        []⟩, by decide +kernel, by decide +kernel, ?_⟩
  rintro simpleName ⟨-, -, -, hdeclare, -⟩
  exact hdeclare _ (List.mem_singleton_self _) rfl

end Mtproto.Generator
