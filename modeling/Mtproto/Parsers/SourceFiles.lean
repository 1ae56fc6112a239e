import Mtproto.Parsers.Scheme
import Mtproto.Parsers.Canonical
import Mathlib.Data.List.Pairwise
import Mathlib.Data.List.Nodup

/-!
# The files of a scheme

`generateSourceCode` of `TLGenerator` with the class names of `TypeNameFactory`.  A file is known by
its path, which KotlinPoet makes of the package and the class name.  The specs are told apart by
their namespaces and names, the files by what is left of these after title-casing and after the
package is cut into directories, with `global` for a missing namespace; the main theorem says when
nothing is lost between the two.  What stands in the files is a parameter (`Factories`), and so is
where they are written (`Writer`).
-/

namespace Mtproto.Parsers

open Text

/-! ## Kotlin collections -/

section

variable {α κ : Type} [DecidableEq κ] (key : α → κ)

def insertGroup (a : α) : List (κ × List α) → List (κ × List α)
  | [] => [(key a, [a])]
  | (k, group) :: groups =>
      if k = key a then (k, group ++ [a]) :: groups else (k, group) :: insertGroup a groups

/-- `groupBy`: the groups in the order of their first elements. -/
def groupBy (l : List α) : List (κ × List α) :=
  l.foldl (fun groups a => insertGroup key a groups) []

variable {key}

theorem map_fst_insertGroup (a : α) (groups : List (κ × List α)) :
    (insertGroup key a groups).map Prod.fst =
      if key a ∈ groups.map Prod.fst then groups.map Prod.fst else groups.map Prod.fst ++
        [key a] := by
  induction groups with
  | nil => simp [insertGroup]
  | cons group groups ih =>
      obtain ⟨k, as⟩ := group
      rw [insertGroup]
      by_cases hk : k = key a
      · simp [hk]
      · have hk' : ¬ key a = k := fun h => hk h.symm
        rw [if_neg hk, List.map_cons, ih]
        by_cases hmem : key a ∈ groups.map Prod.fst
        · simp [hmem]
        · simp [hmem, hk']

/-- Each key has one group. -/
theorem nodup_groupBy (l : List α) : ((groupBy key l).map Prod.fst).Nodup := by
  have hfold : ∀ groups : List (κ × List α), (groups.map Prod.fst).Nodup →
      ((l.foldl (fun groups a => insertGroup key a groups) groups).map Prod.fst).Nodup := by
    induction l with
    | nil => exact fun groups h => h
    | cons a l ih =>
        intro groups h
        apply ih
        rw [map_fst_insertGroup]
        split
        · exact h
        · next hnew =>
            refine List.nodup_append.2 ⟨h, by simp, fun x hx y hy => ?_⟩
            rw [List.mem_singleton.1 hy]
            exact fun hxy => hnew (hxy ▸ hx)
  exact hfold [] List.nodup_nil

theorem mem_insertGroup {a : α} {groups : List (κ × List α)} {k : κ} :
    k ∈ (insertGroup key a groups).map Prod.fst ↔ k ∈ groups.map Prod.fst ∨ k = key a := by
  rw [map_fst_insertGroup]
  split
  · next hmem =>
      constructor
      · exact .inl
      · rintro (h | rfl)
        · exact h
        · exact hmem
  · rw [List.mem_append, List.mem_singleton]

theorem mem_groupBy {l : List α} {k : κ} :
    k ∈ (groupBy key l).map Prod.fst ↔ ∃ a ∈ l, key a = k := by
  have hfold : ∀ groups : List (κ × List α),
      k ∈ (l.foldl (fun groups a => insertGroup key a groups) groups).map Prod.fst ↔
        k ∈ groups.map Prod.fst ∨ ∃ a ∈ l, key a = k := by
    induction l with
    | nil => simp
    | cons a l ih =>
        intro groups
        rw [List.foldl_cons, ih, mem_insertGroup, or_assoc]
        simp [eq_comm]
  rw [groupBy, hfold]
  simp

end

/-! ## TypeNameFactory -/

structure ClassName where
  packageName : Text
  simpleName : Text
  deriving DecidableEq, Repr

/-- `TYPES_FOLDER_NAME`, `CONTAINERS_FOLDER_NAME` and `METHODS_FOLDER_NAME`. -/
inductive Folder where
  | types
  | containers
  | methods
  deriving DecidableEq, Repr

def Folder.folderName : Folder → Text
  | types => "types".toList
  | containers => "containers".toList
  | methods => "methods".toList

/-- `GLOBAL_NAMESPACE`. -/
def globalNamespace : Text := "global".toList

/-- `TYPES_PREFIX`. -/
def typesPrefix : Text := "TL".toList

section

variable (u : Unicode) (basePackage : Text)

def createPackageName (folder : Folder) (nameSpace : Option Text) : Text :=
  basePackage ++ '.' :: (folder.folderName ++ '.' :: nameSpace.getD globalNamespace)

/-- The title-cased namespace, or nothing. -/
def formattedNameSpace : Option Text → Except Failure Text
  | some nameSpace => snakeToTitleCase u nameSpace
  | none => .ok []

/-- The name of a class without `TYPES_PREFIX`. -/
def formattedName (nameSpace : Option Text) (name : Text) : Except Failure Text := do
  let formattedNameSpace ← formattedNameSpace u nameSpace
  let formattedClassName ← snakeToTitleCase u name
  return formattedNameSpace ++ formattedClassName

def createClassName (name : Text) (folder : Folder) (nameSpace : Option Text) :
    Except Failure ClassName := do
  let finalClassName ← formattedName u nameSpace name
  return ⟨createPackageName basePackage folder nameSpace, typesPrefix ++ finalClassName⟩

/-! ## Where a class is written -/

/-- The directories of a package.  An empty component is the directory it stands in. -/
def directories (packageName : Text) : List Text :=
  (packageName.splitOn '.').filter fun component => !component.isEmpty

/-- `FileSpec.writeTo` of KotlinPoet: the path a class is written to, or an exception for a name
that is not one of Kotlin.  A file stands in the directories of its package and has the name of its
class. -/
structure Writer (Path : Type) where
  writeTo : ClassName → Except Failure Path
  path_eq_iff : ∀ {a b : ClassName} {p q : Path}, writeTo a = .ok p → writeTo b = .ok q →
    (p = q ↔ directories a.packageName = directories b.packageName ∧ a.simpleName = b.simpleName)

/-- A writer that takes every name. -/
def Writer.resolving : Writer (List Text × Text) where
  writeTo className := .ok (directories className.packageName, className.simpleName)
  path_eq_iff := by
    rintro a b _ _ ⟨⟩ ⟨⟩
    exact Prod.mk.injEq .. ▸ Iff.rfl

theorem directories_append (a b : Text) :
    directories (a ++ '.' :: b) = directories a ++ directories b := by
  rw [directories, List.splitOn_append_cons_self, List.filter_append]
  rfl

/-! ## TLGenerator -/

/-- `mutateDuplicatesName`. -/
def mutateDuplicatesName (duplicateName : Text) (duplicates : List TLObjectSpec) :
    List TLObjectSpec :=
  duplicates.map fun tlObjectSpec =>
    { tlObjectSpec with name := duplicateName ++ '_' :: tlObjectSpec.constructorHash }

def cleanVariants (variants : List TLObjectSpec) : List TLObjectSpec :=
  if variants.length = 1 then variants
  else (groupBy Declaration.name variants).flatMap fun (name, duplicates) =>
    if duplicates.length = 1 then duplicates else mutateDuplicatesName name duplicates

/-- What the factories put into a file, which may fail. -/
structure Factories (Code : Type) where
  container : ClassName → TLContainerSpec → Except Failure Code
  object : ClassName → Named → List TLObjectSpec → Except Failure Code
  method : ClassName → TLMethodSpec → Except Failure Code

variable {Path Code : Type} (writer : Writer Path) (factories : Factories Code)

/-- A file: the path it is written to and its text. -/
def writeFileSpec (name : Text) (folder : Folder) (nameSpace : Option Text)
    (code : ClassName → Except Failure Code) : Except Failure (Path × Code) := do
  let className ← createClassName u basePackage name folder nameSpace
  let text ← code className
  let path ← writer.writeTo className
  return (path, text)

def containerFile (c : TLContainerSpec) : Except Failure (Path × Code) :=
  writeFileSpec u basePackage writer c.superType.name .containers c.superType.nameSpace
    fun className => factories.container className c

def objectFile (group : Named × List TLObjectSpec) : Except Failure (Path × Code) :=
  writeFileSpec u basePackage writer group.1.name .types group.1.nameSpace
    fun className => factories.object className group.1 (cleanVariants group.2)

def methodFile (m : TLMethodSpec) : Except Failure (Path × Code) :=
  writeFileSpec u basePackage writer m.name .methods m.nameSpace
    fun className => factories.method className m

/-- The files in the order in which they are written. -/
def generateSourceCode (collected : Collected) : Except Failure (List (Path × Code)) := do
  let containerFiles ← collected.containerSpecs.mapM (containerFile u basePackage writer factories)
  let objectFiles ← (groupBy Declaration.superType collected.objectSpecs).mapM
    (objectFile u basePackage writer factories)
  let methodFiles ← collected.methodSpecs.mapM (methodFile u basePackage writer factories)
  return containerFiles ++ objectFiles ++ methodFiles

/-- What is in a file after all writes: the last one counts. -/
def output [DecidableEq Path] (files : List (Path × Code)) (path : Path) : Option Code :=
  (files.reverse.find? fun file => file.1 = path).map Prod.snd

/-- All files are written, to different places, and stay as they were written. -/
def NothingLost [DecidableEq Path] (collected : Collected) : Prop :=
  ∃ files, generateSourceCode u basePackage writer factories collected = .ok files ∧
    (files.map Prod.fst).Nodup ∧ ∀ file ∈ files, output files file.1 = some file.2

/-! ## Clashes -/

/-- Two names, with their namespaces, that have one file: the directories of the namespaces are the
same, with `global` for a missing one, and so are the title-cased namespace and name together. -/
def Clash (a b : Option Text × Text) : Prop :=
  directories (a.1.getD globalNamespace) = directories (b.1.getD globalNamespace) ∧
    formattedName u a.1 a.2 = formattedName u b.1 b.2

variable {u} {basePackage} {writer}

theorem Clash.symm {a b : Option Text × Text} (h : Clash u a b) : Clash u b a :=
  ⟨h.1.symm, h.2.symm⟩

-- `a.foo` and `a..foo`
example : Clash .ascii (some "a".toList, "foo".toList) (some "a.".toList, "foo".toList) :=
  ⟨by decide, by decide +kernel⟩

theorem createClassName_eq_ok {name : Text} {folder : Folder} {nameSpace : Option Text}
    {className : ClassName}
    (h : createClassName u basePackage name folder nameSpace = .ok className) :
    ∃ t, formattedName u nameSpace name = .ok t ∧
      className = ⟨createPackageName basePackage folder nameSpace, typesPrefix ++ t⟩ := by
  obtain ⟨t, ht, h⟩ := bind_eq_ok h
  cases h
  exact ⟨t, ht, rfl⟩

theorem directories_folderName (folder : Folder) :
    directories folder.folderName = [folder.folderName] := by
  cases folder <;> decide

theorem directories_createPackageName (folder : Folder) (nameSpace : Option Text) :
    directories (createPackageName basePackage folder nameSpace) =
      directories basePackage ++ folder.folderName ::
        directories (nameSpace.getD globalNamespace) := by
  rw [createPackageName, directories_append, directories_append, directories_folderName]
  rfl

/-- The folder of a package can be told from its directories, and so can those of its namespace. -/
theorem directories_createPackageName_eq_iff {folder folder' : Folder}
    {nameSpace nameSpace' : Option Text} :
    directories (createPackageName basePackage folder nameSpace) =
        directories (createPackageName basePackage folder' nameSpace') ↔
      folder = folder' ∧
        directories (nameSpace.getD globalNamespace) =
          directories (nameSpace'.getD globalNamespace) := by
  rw [directories_createPackageName, directories_createPackageName, List.append_cancel_left_eq,
    List.cons.injEq]
  have hfolder : folder.folderName = folder'.folderName ↔ folder = folder' := by
    cases folder <;> cases folder' <;> decide
  rw [hfolder]

/-- What is written went through the factory and the writer. -/
theorem writeFileSpec_eq_ok {name : Text} {folder : Folder} {nameSpace : Option Text}
    {code : ClassName → Except Failure Code} {file : Path × Code}
    (h : writeFileSpec u basePackage writer name folder nameSpace code = .ok file) :
    ∃ t, formattedName u nameSpace name = .ok t ∧
      writer.writeTo ⟨createPackageName basePackage folder nameSpace, typesPrefix ++ t⟩ =
        .ok file.1 := by
  obtain ⟨className, hclass, h⟩ := bind_eq_ok h
  obtain ⟨text, -, h⟩ := bind_eq_ok h
  obtain ⟨path, hpath, h⟩ := bind_eq_ok h
  cases h
  obtain ⟨t, ht, rfl⟩ := createClassName_eq_ok hclass
  exact ⟨t, ht, hpath⟩

/-- Two files have one path if and only if they are of one kind and their names clash. -/
theorem path_eq_iff {name name' : Text} {folder folder' : Folder}
    {nameSpace nameSpace' : Option Text} {code code' : ClassName → Except Failure Code}
    {file file' : Path × Code}
    (h : writeFileSpec u basePackage writer name folder nameSpace code = .ok file)
    (h' : writeFileSpec u basePackage writer name' folder' nameSpace' code' = .ok file') :
    file.1 = file'.1 ↔ folder = folder' ∧ Clash u (nameSpace, name) (nameSpace', name') := by
  obtain ⟨t, ht, hpath⟩ := writeFileSpec_eq_ok h
  obtain ⟨t', ht', hpath'⟩ := writeFileSpec_eq_ok h'
  rw [writer.path_eq_iff hpath hpath', directories_createPackageName_eq_iff,
    List.append_cancel_left_eq, Clash, and_assoc]
  simp only [ht, ht', Except.ok.injEq]

/-! ## What is written -/

theorem mapM_eq_ok_iff {α β : Type} {f : α → Except Failure β} {as : List α} {bs : List β} :
    as.mapM f = .ok bs ↔ List.Forall₂ (fun a b => f a = .ok b) as bs := by
  refine ⟨fun h => ?_, mapM_of_forall₂⟩
  induction as generalizing bs with
  | nil =>
      cases h
      exact .nil
  | cons a as ih =>
      rw [List.mapM_cons] at h
      obtain ⟨b, hb, h⟩ := bind_eq_ok h
      obtain ⟨bs', hbs, h⟩ := bind_eq_ok h
      cases h
      exact .cons hb (ih hbs)

theorem exists_mapM_iff {α β : Type} {f : α → Except Failure β} {as : List α} :
    (∃ bs, as.mapM f = .ok bs) ↔ ∀ a ∈ as, ∃ b, f a = .ok b := by
  constructor
  · rintro ⟨bs, h⟩ a ha
    have hrel := mapM_eq_ok_iff.1 h
    obtain ⟨i, hi, rfl⟩ := List.getElem_of_mem ha
    exact ⟨_, hrel.get hi (hrel.length_eq ▸ hi)⟩
  · intro h
    induction as with
    | nil => exact ⟨[], rfl⟩
    | cons a as ih =>
        obtain ⟨b, hb⟩ := h a (by simp)
        obtain ⟨bs, hbs⟩ := ih fun a' ha' => h a' (by simp [ha'])
        exact ⟨b :: bs, mapM_eq_ok_iff.2 (.cons hb (mapM_eq_ok_iff.1 hbs))⟩

theorem exists_of_mem_mapM {α β : Type} {f : α → Except Failure β} {as : List α} {bs : List β}
    (h : as.mapM f = .ok bs) {b : β} (hb : b ∈ bs) : ∃ a ∈ as, f a = .ok b := by
  have hrel := mapM_eq_ok_iff.1 h
  obtain ⟨i, hi, rfl⟩ := List.getElem_of_mem hb
  have hi' : i < as.length := hrel.length_eq ▸ hi
  exact ⟨as[i], List.getElem_mem hi', hrel.get hi' hi⟩

theorem forall_mem_of_forall₂ {α β : Type} {R : α → β → Prop} {p : α → Prop} {q : β → Prop}
    {as : List α}
    {bs : List β} (h : List.Forall₂ R as bs) (hpq : ∀ a b, R a b → (p a ↔ q b)) :
    (∀ a ∈ as, p a) ↔ ∀ b ∈ bs, q b := by
  induction h with
  | nil => simp
  | cons hab _ ih => rw [List.forall_mem_cons, List.forall_mem_cons, ih, hpq _ _ hab]

section

variable {α β : Type} (folder folder' : Folder) (key : α → Option Text × Text)
  (key' : β → Option Text × Text) {code : α → ClassName → Except Failure Code}
  {code' : β → ClassName → Except Failure Code} {as : List α} {bs : List β}
  {files files' : List (Path × Code)}

/-- The files of a folder that come from the elements of a list. -/
theorem nodup_files_iff
    (h : as.mapM (fun a =>
      writeFileSpec u basePackage writer (key a).2 folder (key a).1 (code a)) = .ok files) :
    (files.map Prod.fst).Nodup ↔ as.Pairwise fun a a' => ¬ Clash u (key a) (key a') := by
  have hrel := mapM_eq_ok_iff.1 h
  clear h
  induction hrel with
  | nil => simp
  | @cons a file as files hfile htail ih =>
      have hhead : file.1 ∉ files.map Prod.fst ↔ ∀ a' ∈ as, ¬ Clash u (key a) (key a') := by
        rw [forall_mem_of_forall₂ (q := fun file' => ¬ file.1 = file'.1) htail]
        · simp only [List.mem_map, not_exists, not_and, eq_comm]
        · intro a' file' hfile'
          rw [not_iff_not, path_eq_iff hfile hfile', and_iff_right rfl]
      rw [List.map_cons, List.nodup_cons, List.pairwise_cons]
      exact and_congr hhead ih

/-- Files of different folders are different. -/
theorem disjoint_files (hne : folder ≠ folder')
    (h : as.mapM (fun a =>
      writeFileSpec u basePackage writer (key a).2 folder (key a).1 (code a)) = .ok files)
    (h' : bs.mapM (fun b =>
      writeFileSpec u basePackage writer (key' b).2 folder' (key' b).1 (code' b)) = .ok files') :
    (files.map Prod.fst).Disjoint (files'.map Prod.fst) := by
  rw [List.disjoint_left]
  intro path hmem hmem'
  obtain ⟨file, hfile, rfl⟩ := List.mem_map.1 hmem
  obtain ⟨file', hfile', heq⟩ := List.mem_map.1 hmem'
  obtain ⟨a, -, hwritten⟩ := exists_of_mem_mapM h hfile
  obtain ⟨b, -, hwritten'⟩ := exists_of_mem_mapM h' hfile'
  exact hne ((path_eq_iff hwritten hwritten').1 heq.symm).1

end

/-- A file that is written once is there in the end. -/
theorem output_eq_of_nodup [DecidableEq Path] {files : List (Path × Code)}
    (h : (files.map Prod.fst).Nodup)
    {file : Path × Code} (hfile : file ∈ files) : output files file.1 = some file.2 := by
  have hfound : (files.reverse.find? fun file' => file'.1 = file.1).isSome = true := by
    rw [List.find?_isSome]
    exact ⟨file, List.mem_reverse.2 hfile, by simp⟩
  obtain ⟨file', hfile'⟩ := Option.isSome_iff_exists.1 hfound
  have hclass : file'.1 = file.1 := by simpa using List.find?_some hfile'
  have hmem : file' ∈ files := List.mem_reverse.1 (List.mem_of_find?_eq_some hfile')
  rw [output, hfile', List.inj_on_of_nodup_map h hmem hfile hclass]
  rfl

variable (u) (basePackage) (writer)

/-- No file fails, and no two names of one kind clash. -/
structure Separate (collected : Collected) : Prop where
  containers_written : ∀ c ∈ collected.containerSpecs, ∃ file,
    containerFile u basePackage writer factories c = .ok file
  objects_written : ∀ group ∈ groupBy Declaration.superType collected.objectSpecs,
    ∃ file, objectFile u basePackage writer factories group = .ok file
  methods_written : ∀ m ∈ collected.methodSpecs, ∃ file,
    methodFile u basePackage writer factories m = .ok file
  containers : collected.containerSpecs.Pairwise fun c c' =>
    ¬ Clash u (c.superType.nameSpace, c.superType.name) (c'.superType.nameSpace, c'.superType.name)
  objects : ∀ o ∈ collected.objectSpecs, ∀ o' ∈ collected.objectSpecs, o.superType ≠ o'.superType →
    ¬ Clash u (o.superType.nameSpace, o.superType.name) (o'.superType.nameSpace, o'.superType.name)
  methods : collected.methodSpecs.Pairwise fun m m' =>
    ¬ Clash u (m.nameSpace, m.name) (m'.nameSpace, m'.name)

variable {u} {basePackage} {writer} {factories}

theorem pairwise_groupBy_iff {objects : List TLObjectSpec} :
    ((groupBy Declaration.superType objects).Pairwise fun group group' =>
        ¬ Clash u (group.1.nameSpace, group.1.name) (group'.1.nameSpace, group'.1.name)) ↔
      ∀ o ∈ objects, ∀ o' ∈ objects, o.superType ≠ o'.superType →
        ¬ Clash u (o.superType.nameSpace, o.superType.name) (o'.superType.nameSpace,
          o'.superType.name) := by
  rw [← List.pairwise_map (f := Prod.fst)
    (R := fun t t' : Named => ¬ Clash u (t.nameSpace, t.name) (t'.nameSpace, t'.name))]
  constructor
  · intro h o ho o' ho' hne
    have : Std.Symm fun t t' : Named => ¬ Clash u (t.nameSpace, t.name) (t'.nameSpace, t'.name) :=
      ⟨fun t t' hclash hclash' => hclash hclash'.symm⟩
    exact h.forall (mem_groupBy.2 ⟨o, ho, rfl⟩) (mem_groupBy.2 ⟨o', ho', rfl⟩) hne
  · intro h
    apply List.Nodup.pairwise_of_forall_ne (nodup_groupBy objects)
    intro t ht t' ht' hne
    obtain ⟨o, ho, rfl⟩ := mem_groupBy.1 ht
    obtain ⟨o', ho', rfl⟩ := mem_groupBy.1 ht'
    exact h o ho o' ho' hne

theorem generateSourceCode_eq_ok_iff {collected : Collected} {files : List (Path × Code)} :
    generateSourceCode u basePackage writer factories collected = .ok files ↔
      ∃ containerFiles objectFiles methodFiles,
      collected.containerSpecs.mapM (containerFile u basePackage writer factories) =
        .ok containerFiles ∧
      (groupBy Declaration.superType collected.objectSpecs).mapM
        (objectFile u basePackage writer factories) =
        .ok objectFiles ∧
      collected.methodSpecs.mapM (methodFile u basePackage writer factories) = .ok methodFiles ∧
      files = containerFiles ++ objectFiles ++ methodFiles := by
  constructor
  · intro h
    obtain ⟨containerFiles, hcontainers, h⟩ := bind_eq_ok h
    obtain ⟨objectFiles, hobjects, h⟩ := bind_eq_ok h
    obtain ⟨methodFiles, hmethods, h⟩ := bind_eq_ok h
    cases h
    exact ⟨containerFiles, objectFiles, methodFiles, hcontainers, hobjects, hmethods, rfl⟩
  · rintro ⟨containerFiles, objectFiles, methodFiles, hcontainers, hobjects, hmethods, rfl⟩
    rw [generateSourceCode, hcontainers, hobjects, hmethods]
    rfl

/-- The three kinds do not meet. -/
theorem nodup_generated_iff {collected : Collected}
    {containerFiles objectFiles methodFiles : List (Path × Code)}
    (hcontainers : collected.containerSpecs.mapM (containerFile u basePackage writer factories) =
      .ok containerFiles)
    (hobjects : (groupBy Declaration.superType collected.objectSpecs).mapM
      (objectFile u basePackage writer factories) =
      .ok objectFiles)
    (hmethods : collected.methodSpecs.mapM (methodFile u basePackage writer factories) =
      .ok methodFiles) :
    ((containerFiles ++ objectFiles ++ methodFiles).map Prod.fst).Nodup ↔
      (containerFiles.map Prod.fst).Nodup ∧ (objectFiles.map Prod.fst).Nodup ∧
        (methodFiles.map Prod.fst).Nodup := by
  have hco := disjoint_files .containers .types
    (fun c : TLContainerSpec => (c.superType.nameSpace, c.superType.name))
    (fun group : Named × List TLObjectSpec => (group.1.nameSpace, group.1.name)) (by decide)
    hcontainers hobjects
  have hcm := disjoint_files .containers .methods
    (fun c : TLContainerSpec => (c.superType.nameSpace, c.superType.name))
    (fun m : TLMethodSpec => (m.nameSpace, m.name)) (by decide) hcontainers hmethods
  have hom := disjoint_files .types .methods
    (fun group : Named × List TLObjectSpec => (group.1.nameSpace, group.1.name))
    (fun m : TLMethodSpec => (m.nameSpace, m.name)) (by decide) hobjects hmethods
  rw [List.map_append, List.map_append, List.nodup_append', List.nodup_append',
    List.disjoint_append_left]
  simp [hco, hcm, hom, and_assoc]

theorem NothingLost.separate [DecidableEq Path] {collected : Collected}
    (h : NothingLost u basePackage writer factories collected) :
    Separate u basePackage writer factories collected := by
  obtain ⟨files, hfiles, hnodup, -⟩ := h
  obtain ⟨containerFiles, objectFiles, methodFiles, hcontainers, hobjects, hmethods, rfl⟩ :=
    generateSourceCode_eq_ok_iff.1 hfiles
  rw [nodup_generated_iff hcontainers hobjects hmethods] at hnodup
  obtain ⟨hc, ho, hm⟩ := hnodup
  exact {
    containers_written := exists_mapM_iff.1 ⟨_, hcontainers⟩
    objects_written := exists_mapM_iff.1 ⟨_, hobjects⟩
    methods_written := exists_mapM_iff.1 ⟨_, hmethods⟩
    containers := (nodup_files_iff .containers
      (fun c : TLContainerSpec => (c.superType.nameSpace, c.superType.name)) hcontainers).1 hc
    objects := pairwise_groupBy_iff.1 ((nodup_files_iff .types
      (fun group : Named × List TLObjectSpec => (group.1.nameSpace, group.1.name)) hobjects).1 ho)
    methods :=
      (nodup_files_iff .methods (fun m : TLMethodSpec => (m.nameSpace, m.name)) hmethods).1 hm }

/-- Nothing is lost if and only if all files can be written and no two names of one kind clash. -/
theorem nothingLost_iff (u : Unicode) (basePackage : Text) {Path Code : Type} [DecidableEq Path]
    (writer : Writer Path) (factories : Factories Code) (collected : Collected) :
    NothingLost u basePackage writer factories collected ↔
      Separate u basePackage writer factories collected := by
  constructor
  · exact NothingLost.separate
  · intro h
    obtain ⟨containerFiles, hcontainers⟩ := exists_mapM_iff.2 h.containers_written
    obtain ⟨objectFiles, hobjects⟩ := exists_mapM_iff.2 h.objects_written
    obtain ⟨methodFiles, hmethods⟩ := exists_mapM_iff.2 h.methods_written
    have hnodup : ((containerFiles ++ objectFiles ++ methodFiles).map Prod.fst).Nodup := by
      rw [nodup_generated_iff hcontainers hobjects hmethods]
      refine ⟨?_, ?_, ?_⟩
      · exact (nodup_files_iff .containers
          (fun c : TLContainerSpec => (c.superType.nameSpace, c.superType.name)) hcontainers).2
            h.containers
      · exact (nodup_files_iff .types (fun group : Named × List TLObjectSpec =>
          (group.1.nameSpace, group.1.name))
          hobjects).2 (pairwise_groupBy_iff.2 h.objects)
      · exact (nodup_files_iff .methods (fun m : TLMethodSpec => (m.nameSpace, m.name)) hmethods).2
          h.methods
    refine ⟨_, generateSourceCode_eq_ok_iff.2 ⟨_, _, _, hcontainers, hobjects, hmethods, rfl⟩,
      hnodup, ?_⟩
    exact fun file hfile => output_eq_of_nodup hnodup hfile

/-- Two methods of one name in two namespaces. -/
theorem nothingLost_twoNamespaces :
    ∃ collected, parseSchemeFromFile .ascii
        (schemeFile [] ["a.foo#1 = Foo;".toList, "b.foo#2 = Foo;".toList]) = .ok collected ∧
      collected.methodSpecs.length = 2 ∧
      NothingLost .ascii "tl".toList .resolving
        (⟨fun _ _ => .ok (), fun _ _ _ => .ok (), fun _ _ => .ok ()⟩ : Factories Unit)
          collected := by
  have hread : (parseSchemeFromFile .ascii
      (schemeFile [] ["a.foo#1 = Foo;".toList, "b.foo#2 = Foo;".toList])).map
        (fun collected => (collected.objectSpecs.isEmpty && collected.containerSpecs.isEmpty,
          collected.methodSpecs.map fun m => (m.nameSpace, m.name))) =
      .ok (true, [(some "a".toList, "Foo".toList), (some "b".toList, "Foo".toList)]) := by
    decide +kernel
  obtain ⟨collected, hcollected, hparts⟩ := map_eq_ok hread
  obtain ⟨⟨hobjects, hcontainers⟩, hmethods⟩ : (_ ∧ _) ∧ _ := by
    simpa only [Prod.mk.injEq, Bool.and_eq_true, List.isEmpty_iff] using hparts
  have hlength : collected.methodSpecs.length = 2 := by
    rw [← List.length_map fun m : TLMethodSpec => (m.nameSpace, m.name), hmethods]
    rfl
  refine ⟨collected, hcollected, hlength, (nothingLost_iff ..).2 ?_⟩
  exact {
    containers_written := by simp [hcontainers]
    objects_written := by simp [hobjects, groupBy]
    methods_written := by
      intro m hm
      have hmem := List.mem_map_of_mem (f := fun m : TLMethodSpec => (m.nameSpace, m.name)) hm
      rw [hmethods, List.mem_cons, List.mem_singleton, Prod.mk.injEq, Prod.mk.injEq] at hmem
      unfold methodFile writeFileSpec createClassName
      obtain ⟨hnameSpace, hname⟩ | ⟨hnameSpace, hname⟩ := hmem
      all_goals
        rw [hnameSpace, hname]
        exact ⟨_, rfl⟩
    containers := by simp [hcontainers]
    objects := by simp [hobjects]
    methods := by
      rw [← List.pairwise_map (f := fun m : TLMethodSpec => (m.nameSpace, m.name))
        (R := fun a b => ¬ Clash .ascii a b), hmethods]
      apply List.pairwise_pair.2
      exact fun hclash => absurd hclash.1 (by decide) }

/-- The method `globalFoo` and the method `foo` of the namespace `global` are written to one
file. -/
theorem not_nothingLost_global :
    ∃ collected, parseSchemeFromFile .ascii
        (schemeFile [] ["globalFoo#1 = Foo;".toList, "global.foo#2 = Foo;".toList]) =
          .ok collected ∧
      collected.objectSpecs = [] ∧ collected.containerSpecs = [] ∧
      collected.methodSpecs.map (fun m => (m.nameSpace, m.name)) =
        [(none, "GlobalFoo".toList), (some "global".toList, "Foo".toList)] ∧
      ∀ (basePackage : Text) (Path Code : Type) [DecidableEq Path] (writer : Writer Path)
        (factories : Factories Code),
        ¬ NothingLost .ascii basePackage writer factories collected := by
  have hread : (parseSchemeFromFile .ascii
      (schemeFile [] ["globalFoo#1 = Foo;".toList, "global.foo#2 = Foo;".toList])).map
        (fun collected => (collected.objectSpecs.isEmpty && collected.containerSpecs.isEmpty,
          collected.methodSpecs.map fun m => (m.nameSpace, m.name))) =
      .ok (true, [(none, "GlobalFoo".toList), (some "global".toList, "Foo".toList)]) := by
    decide +kernel
  obtain ⟨collected, hcollected, hparts⟩ := map_eq_ok hread
  obtain ⟨⟨hobjects, hcontainers⟩, hmethods⟩ : (_ ∧ _) ∧ _ := by
    simpa only [Prod.mk.injEq, Bool.and_eq_true, List.isEmpty_iff] using hparts
  refine ⟨collected, hcollected, hobjects, hcontainers, hmethods, ?_⟩
  intro basePackage Path Code _ writer factories hlost
  have hpairwise : (collected.methodSpecs.map fun m => (m.nameSpace, m.name)).Pairwise
      fun a b => ¬ Clash .ascii a b := List.pairwise_map.2 hlost.separate.methods
  rw [hmethods] at hpairwise
  apply (List.pairwise_cons.1 hpairwise).1 _ (List.mem_singleton.2 rfl)
  exact ⟨rfl, by decide +kernel⟩

end

end Mtproto.Parsers
