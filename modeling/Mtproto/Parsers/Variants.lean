import Mtproto.Parsers.SourceFiles
import Mathlib.Data.List.Perm.Basic

/-!
# The variants of a super type

`cleanVariants` gives the variants of one super type that share a name the names `name_hash`.
Nothing else of a spec changes and none is lost; the names that it makes are distinct, because the
hashes are and because no `_` can be mistaken for the one that stands between a name and a hash.
-/

namespace Mtproto.Parsers

open Text

/-! ## Groups -/

section Groups

variable {α κ : Type} [DecidableEq κ] {key : α → κ}

theorem flatMap_insertGroup (a : α) (groups : List (κ × List α)) :
    ((insertGroup key a groups).flatMap Prod.snd).Perm (groups.flatMap Prod.snd ++ [a]) := by
  induction groups with
  | nil => exact .refl _
  | cons group groups ih =>
      obtain ⟨k, as⟩ := group
      rw [insertGroup]
      split
      · rw [List.flatMap_cons, List.flatMap_cons, List.append_assoc, List.append_assoc]
        exact List.perm_append_comm.append_left as
      · rw [List.flatMap_cons, List.flatMap_cons, List.append_assoc]
        exact ih.append_left as

/-- The groups together are the list again, in another order. -/
theorem flatMap_groupBy (key : α → κ) (l : List α) : ((groupBy key l).flatMap Prod.snd).Perm l := by
  have fold : ∀ groups : List (κ × List α),
      ((l.foldl (fun groups a => insertGroup key a groups) groups).flatMap Prod.snd).Perm
        (groups.flatMap Prod.snd ++ l) := by
    induction l with
    | nil =>
        intro groups
        rw [List.append_nil]
        rfl
    | cons a l ih =>
        intro groups
        apply (ih (insertGroup key a groups)).trans
        rw [← List.singleton_append, ← List.append_assoc]
        exact (flatMap_insertGroup a groups).append_right l
  exact fold []

theorem key_of_mem_insertGroup {a : α} {groups : List (κ × List α)}
    (keyed : ∀ group ∈ groups, ∀ b ∈ group.2, key b = group.1) :
    ∀ group ∈ insertGroup key a groups, ∀ b ∈ group.2, key b = group.1 := by
  induction groups with
  | nil => simp [insertGroup]
  | cons group groups ih =>
      obtain ⟨k, as⟩ := group
      rw [List.forall_mem_cons] at keyed
      rw [insertGroup]
      split
      · rename_i same
        apply List.forall_mem_cons.2 ⟨?_, keyed.2⟩
        intro b mem
        rcases List.mem_append.1 mem with old | new
        · exact keyed.1 b old
        · rw [List.mem_singleton.1 new]
          exact same.symm
      · exact List.forall_mem_cons.2 ⟨keyed.1, ih keyed.2⟩

/-- The elements of a group have its key. -/
theorem key_of_mem_groupBy (l : List α) :
    ∀ group ∈ groupBy key l, ∀ b ∈ group.2, key b = group.1 := by
  have fold : ∀ groups : List (κ × List α), (∀ group ∈ groups, ∀ b ∈ group.2, key b = group.1) →
      ∀ group ∈ l.foldl (fun groups a => insertGroup key a groups) groups, ∀ b ∈ group.2,
        key b = group.1 := by
    induction l with
    | nil => exact fun _ keyed => keyed
    | cons a l ih => exact fun groups keyed => ih _ (key_of_mem_insertGroup keyed)
  exact fold [] (fun _ mem => absurd mem List.not_mem_nil)

theorem mem_of_mem_groupBy {l : List α} {group : κ × List α} (mem : group ∈ groupBy key l) {a : α}
    (ha : a ∈ group.2) : a ∈ l :=
  (flatMap_groupBy key l).mem_iff.1 (List.mem_flatMap.2 ⟨group, mem, ha⟩)

theorem exists_group (key : α → κ) {l : List α} {a : α} (ha : a ∈ l) :
    ∃ group ∈ groupBy key l, a ∈ group.2 :=
  List.mem_flatMap.1 ((flatMap_groupBy key l).mem_iff.2 ha)

end Groups

/-! ## Names with a hash behind them -/

/-- The name of a spec that shares its name. -/
def hashedName (spec : TLObjectSpec) : Text := spec.name ++ '_' :: spec.constructorHash

/-- What is left of a group. -/
def cleanGroup (group : Text × List TLObjectSpec) : List TLObjectSpec :=
  if group.2.length = 1 then group.2 else mutateDuplicatesName group.1 group.2

/-- The names that are made are taken for no other name. -/
structure Separated (variants : List TLObjectSpec) : Prop where
  hashes : (variants.map Declaration.constructorHash).Nodup
  unlike : ∀ a ∈ variants, ∀ b ∈ variants, a.name ≠ hashedName b
  apart : ∀ a ∈ variants, ∀ b ∈ variants, hashedName a = hashedName b → a.name = b.name

section Clean

variable {variants : List TLObjectSpec}

theorem cleanVariants_eq (variants : List TLObjectSpec) :
    cleanVariants variants = (groupBy Declaration.name variants).flatMap cleanGroup := by
  rw [cleanVariants]
  split
  · rename_i single
    obtain ⟨a, rfl⟩ := List.length_eq_one_iff.1 single
    rfl
  · rfl

theorem map_cleanGroup (group : Text × List TLObjectSpec) :
    (cleanGroup group).map (fun spec => (spec.constructorHash, spec.propertiesSpecs)) =
      group.2.map fun spec => (spec.constructorHash, spec.propertiesSpecs) := by
  rw [cleanGroup]
  split
  · rfl
  · rw [mutateDuplicatesName, List.map_map]
    rfl

/-- The hashes and the fields stay. -/
theorem map_cleanVariants (variants : List TLObjectSpec) :
    ((cleanVariants variants).map fun spec => (spec.constructorHash, spec.propertiesSpecs)).Perm
      (variants.map fun spec => (spec.constructorHash, spec.propertiesSpecs)) := by
  rw [cleanVariants_eq, List.map_flatMap]
  simp only [map_cleanGroup]
  rw [← List.map_flatMap]
  exact (flatMap_groupBy Declaration.name variants).map _

theorem hashes_of_group (hashes : (variants.map Declaration.constructorHash).Nodup)
    {group : Text × List TLObjectSpec} (mem : group ∈ groupBy Declaration.name variants) :
    (group.2.map Declaration.constructorHash).Nodup := by
  have all :=
    ((flatMap_groupBy Declaration.name variants).map Declaration.constructorHash).nodup_iff.2 hashes
  rw [List.map_flatMap] at all
  exact (List.nodup_flatMap.1 all).1 group mem

/-- The names of a group that is cleaned are its own or hashed ones. -/
theorem name_of_mem_cleanGroup {group : Text × List TLObjectSpec}
    (mem : group ∈ groupBy Declaration.name variants)
    {name : Text} (made : name ∈ (cleanGroup group).map Declaration.name) :
    name = group.1 ∨ ∃ a ∈ group.2, name = hashedName a := by
  obtain ⟨spec, spec_mem, rfl⟩ := List.mem_map.1 made
  rw [cleanGroup] at spec_mem
  split at spec_mem
  · exact .inl (key_of_mem_groupBy variants group mem spec spec_mem)
  · obtain ⟨a, ha, rfl⟩ := List.mem_map.1 spec_mem
    refine .inr ⟨a, ha, ?_⟩
    rw [hashedName, key_of_mem_groupBy variants group mem a ha]

theorem nodup_cleanGroup (hashes : (variants.map Declaration.constructorHash).Nodup)
    {group : Text × List TLObjectSpec} (mem : group ∈ groupBy Declaration.name variants) :
    ((cleanGroup group).map Declaration.name).Nodup := by
  rw [cleanGroup]
  split
  · rename_i single
    obtain ⟨a, eq⟩ := List.length_eq_one_iff.1 single
    rw [eq]
    exact List.nodup_singleton _
  · have names : (mutateDuplicatesName group.1 group.2).map Declaration.name =
        (group.2.map Declaration.constructorHash).map fun hash => group.1 ++ '_' :: hash := by
      rw [mutateDuplicatesName, List.map_map, List.map_map]
      rfl
    rw [names]
    apply (hashes_of_group hashes mem).map
    intro hash hash' eq
    exact List.cons_injective (List.append_cancel_left eq)

/-- Two groups share no name after they have been cleaned. -/
theorem Separated.disjoint (h : Separated variants) {group group' : Text × List TLObjectSpec}
    (mem : group ∈ groupBy Declaration.name variants)
    (mem' : group' ∈ groupBy Declaration.name variants)
    (differ : group.1 ≠ group'.1) :
    ((cleanGroup group).map Declaration.name).Disjoint
      ((cleanGroup group').map Declaration.name) := by
  -- a group's own name is the name of one of its specs
  have own : ∀ {group : Text × List TLObjectSpec}, group ∈ groupBy Declaration.name variants →
      ∃ a ∈ variants, a.name = group.1 := fun mem => mem_groupBy.1 (List.mem_map_of_mem mem)
  intro name made made'
  rcases name_of_mem_cleanGroup mem made with rfl | ⟨a, ha, rfl⟩
  · rcases name_of_mem_cleanGroup mem' made' with same | ⟨b, hb, hashed⟩
    · exact differ same
    · obtain ⟨a, ha, eq⟩ := own mem
      exact h.unlike a ha b (mem_of_mem_groupBy mem' hb) (eq.trans hashed)
  · rcases name_of_mem_cleanGroup mem' made' with hashed | ⟨b, hb, eq⟩
    · obtain ⟨b, hb, eq⟩ := own mem'
      exact h.unlike b hb a (mem_of_mem_groupBy mem ha) (eq.trans hashed.symm)
    · have same := h.apart a (mem_of_mem_groupBy mem ha) b (mem_of_mem_groupBy mem' hb) eq
      rw [key_of_mem_groupBy variants group mem a ha, key_of_mem_groupBy variants group' mem' b hb]
        at same
      exact differ same

theorem Separated.nodup (h : Separated variants) :
    ((cleanVariants variants).map Declaration.name).Nodup := by
  rw [cleanVariants_eq, List.map_flatMap, List.nodup_flatMap]
  refine ⟨fun group mem => nodup_cleanGroup h.hashes mem, ?_⟩
  have differ : (groupBy Declaration.name variants).Pairwise fun group group' =>
      group.1 ≠ group'.1 :=
    List.pairwise_map.1 (nodup_groupBy variants)
  apply differ.imp_of_mem
  exact fun mem mem' ne => h.disjoint mem mem' ne

/-- A spec whose name is its own stays as it is. -/
theorem mem_cleanVariants (hashes : (variants.map Declaration.constructorHash).Nodup)
    {a : TLObjectSpec}
    (ha : a ∈ variants) (unique : ∀ b ∈ variants, b.name = a.name → b = a) :
    a ∈ cleanVariants variants := by
  rw [cleanVariants_eq]
  obtain ⟨group, mem, in_group⟩ := exists_group Declaration.name ha
  have all : ∀ b ∈ group.2, b = a := by
    intro b hb
    apply unique b (mem_of_mem_groupBy mem hb)
    rw [key_of_mem_groupBy variants group mem b hb,
      key_of_mem_groupBy variants group mem a in_group]
  have single : group.2.length = 1 := by
    have copies := List.eq_replicate_of_mem all
    have nodup := (hashes_of_group hashes mem).of_map
    rw [copies] at nodup
    have le := List.nodup_replicate.1 nodup
    have pos := List.length_pos_of_mem in_group
    omega
  refine List.mem_flatMap.2 ⟨group, mem, ?_⟩
  rw [cleanGroup, if_pos single]
  exact in_group

end Clean

/-! ## The separating underscore -/

section Underscore

variable {u : Unicode} {variants : List TLObjectSpec}

/-- A letter or a digit is no underscore. -/
theorem ne_underscore {c : Char} (h : (u.isLetter c || u.isDigit c) = true) : c ≠ '_' := by
  rintro rfl
  rw [u.isLetter_ascii _ (by decide), u.isDigit_ascii _ (by decide)] at h
  exact absurd h (by decide)

theorem camelCaseLoop_no_underscore (upper : ∀ c, u.toUpperCase c = '_' → c = '_')
    (hadWhiteSpace : Bool)
    (s : Text) : '_' ∉ camelCaseLoop u hadWhiteSpace s := by
  induction s generalizing hadWhiteSpace with
  | nil => exact List.not_mem_nil
  | cons c s ih =>
      rw [camelCaseLoop]
      split
      · split
        · rename_i kept
          rw [List.mem_cons, not_or]
          exact ⟨fun eq => ne_underscore kept (upper c eq.symm), ih false⟩
        · exact ih true
      · split
        · exact ih true
        · rename_i kept
          rw [List.mem_cons, not_or]
          refine ⟨fun eq => ne_underscore (u := u) (c := c) ?_ eq.symm, ih false⟩
          cases letter : u.isLetter c <;> cases digit : u.isDigit c <;> simp_all

theorem snakeToTitleCase_no_underscore (upper : ∀ c, u.toUpperCase c = '_' → c = '_')
    {s name : Text}
    (made : snakeToTitleCase u s = .ok name) : '_' ∉ name := by
  have camel := camelCaseLoop_no_underscore upper false s
  rw [snakeToTitleCase, snakeToCamelCase] at made
  unfold camelToTitleCase at made
  split at made
  · cases made
  · split at made
    · cases made
      exact List.not_mem_nil
    · rename_i c t eq
      cases made
      rw [eq, List.mem_cons, not_or] at camel
      rw [List.mem_cons, not_or]
      exact ⟨fun h => camel.1 (upper c h.symm).symm, camel.2⟩

/-- The names of the parser have no underscore. -/
theorem parseObject_no_underscore (upper : ∀ c, u.toUpperCase c = '_' → c = '_')
    {containers : List TLContainerSpec} {line : Text} {spec : TLObjectSpec}
    (parsed : parseObject u containers line = .ok spec) : '_' ∉ spec.name := by
  rw [parseObject] at parsed
  split at parsed
  · have parsed := eq_ok_of_rethrown parsed
    unfold parseDeclaration at parsed
    dsimp only at parsed
    obtain ⟨genericVariables, -, parsed⟩ := bind_eq_ok parsed
    obtain ⟨properties, -, parsed⟩ := bind_eq_ok parsed
    obtain ⟨superType, -, parsed⟩ := bind_eq_ok parsed
    obtain ⟨name, made, parsed⟩ := bind_eq_ok parsed
    obtain rfl := Except.ok.inj parsed
    exact snakeToTitleCase_no_underscore upper made
  · cases parsed

theorem hashedName_of_names {a b : TLObjectSpec} (ha : '_' ∉ a.name) (hb : '_' ∉ b.name)
    (eq : hashedName a = hashedName b) : a.name = b.name := by
  have before := congrArg (before ['_']) eq
  rwa [hashedName, hashedName, before_single ha, before_single hb] at before

theorem hashedName_of_hashes {a b : TLObjectSpec} (ha : '_' ∉ a.constructorHash)
    (hb : '_' ∉ b.constructorHash)
    (eq : hashedName a = hashedName b) : a.name = b.name := by
  have before := congrArg (beforeLast '_') eq
  rwa [hashedName, hashedName, beforeLast_single ha, beforeLast_single hb] at before

/-- The variants come from the parser, or their hashes have no underscore and none of their names is
that of another with its hash. -/
def Proper (u : Unicode) (variants : List TLObjectSpec) : Prop :=
  (∀ a ∈ variants, ∃ containers line, parseObject u containers line = .ok a) ∨
    (∀ a ∈ variants, '_' ∉ a.constructorHash) ∧ ∀ a ∈ variants, ∀ b ∈ variants, a ≠ b →
      a.name ≠ hashedName b

theorem Proper.separated (upper : ∀ c, u.toUpperCase c = '_' → c = '_')
    (hashes : (variants.map Declaration.constructorHash).Nodup) (h : Proper u variants) :
    Separated variants := by
  rcases h with parsed | ⟨plain, unlike⟩
  · have names : ∀ a ∈ variants, '_' ∉ a.name := by
      intro a ha
      obtain ⟨containers, line, eq⟩ := parsed a ha
      exact parseObject_no_underscore upper eq
    refine ⟨hashes, ?_, fun a ha b hb => hashedName_of_names (names a ha) (names b hb)⟩
    intro a ha b _ eq
    apply names a ha
    rw [eq, hashedName]
    exact List.mem_append_right _ List.mem_cons_self
  · refine ⟨hashes, ?_, fun a ha b hb => hashedName_of_hashes (plain a ha) (plain b hb)⟩
    intro a ha b hb eq
    by_cases same : a = b
    · rw [same, hashedName] at eq
      have length := congrArg List.length eq
      rw [List.length_append, List.length_cons] at length
      omega
    · exact unlike a ha b hb same eq

theorem toUpper_ne_underscore {c : Char} (h : c.toUpper = '_') : c = '_' := by
  by_cases lower : 'a'.val ≤ c.val ∧ c.val ≤ 'z'.val
  · exfalso
    have made : c.toUpper.val = c.val + ('A'.val - 'a'.val) :=
      (congrArg Char.val (dif_pos lower) : _)
    rw [h] at made
    have value := congrArg UInt32.toNat made
    have low := UInt32.le_iff_toNat_le.1 lower.1
    have high := UInt32.le_iff_toNat_le.1 lower.2
    rw [UInt32.toNat_add] at value
    have a : ('a'.val).toNat = 97 := by decide
    have z : ('z'.val).toNat = 122 := by decide
    have difference : ('A'.val - 'a'.val).toNat = 2 ^ 32 - 32 := by decide
    have underscore : ('_'.val).toNat = 95 := by decide
    omega
  · have same : c.toUpper = c := dif_neg lower
    exact same.symm.trans h

/-- Cleaning keeps the hashes with their fields, makes the names distinct and leaves a spec alone
whose name is its own. -/
theorem cleanVariants_keeps (upper : ∀ c, u.toUpperCase c = '_' → c = '_')
    (variants : List TLObjectSpec)
    (hashes : (variants.map Declaration.constructorHash).Nodup) (proper : Proper u variants) :
    ((cleanVariants variants).map fun spec => (spec.constructorHash, spec.propertiesSpecs)).Perm
        (variants.map fun spec => (spec.constructorHash, spec.propertiesSpecs)) ∧
      ((cleanVariants variants).map Declaration.name).Nodup ∧
        ∀ a ∈ variants, (∀ b ∈ variants, b.name = a.name → b = a) → a ∈ cleanVariants variants :=
  ⟨map_cleanVariants variants, (proper.separated upper hashes).nodup, fun _ ha =>
    mem_cleanVariants hashes ha⟩

/-- A variant of `User` without fields. -/
def userVariant (name hash : String) : TLObjectSpec where
  rawScheme := []
  name := name.toList
  nameSpace := none
  superType := ⟨none, "User".toList, []⟩
  constructorHash := hash.toList
  hasFlags := false
  propertiesSpecs := []
  genericVariables := []

/-- Two variants share a name, the third has its own. -/
def userVariants : List TLObjectSpec :=
  [userVariant "User" "1a", userVariant "UserEmpty" "3c", userVariant "User" "2b"]

theorem cleanVariants_keeps_user :
    (cleanVariants userVariants).map Declaration.name =
        ["User_1a".toList, "User_2b".toList, "UserEmpty".toList] ∧
      ((cleanVariants userVariants).map Declaration.name).Nodup ∧
        userVariant "UserEmpty" "3c" ∈ cleanVariants userVariants := by
  have hashes : (userVariants.map Declaration.constructorHash).Nodup := by decide +kernel
  have proper : Proper .ascii userVariants := .inr ⟨by decide +kernel, by decide +kernel⟩
  have keeps :=
    cleanVariants_keeps (u := .ascii) (fun _ => toUpper_ne_underscore) userVariants hashes proper
  refine ⟨by decide +kernel, keeps.2.1, ?_⟩
  apply keeps.2.2 _ (by decide +kernel)
  decide +kernel

end Underscore

end Mtproto.Parsers
