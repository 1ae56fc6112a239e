import Mathlib.Data.List.Induction
import Mathlib.Data.List.Sort
import Mtproto.Persistence.State

/-!
# Server salts

`getServerSalt`, `mergeServerSalts`, `addServerSalt` and `clearServerSalts` of `Datacenter.cpp`.
The date is what `getCurrentTime` returns.  `std::sort` may order entries with one `valid_since`
either way, so the sort is any function that sorts (`Sorting`).
-/

namespace Mtproto.Datacenter

open Persistence

/-! ## Choosing a salt -/

/-- The locals of the first loop. -/
structure Scan where
  cleanupNeeded : Bool := false
  result : BitVec 64 := 0
  maxRemainingInterval : ℕ := 0

/-- `abs(salt->valid_until - date)`. -/
def remaining (date : BitVec 32) (salt : FutureSalt) : ℕ := (salt.validUntil - date).toInt.natAbs

def Scan.visit (date : BitVec 32) (scan : Scan) (salt : FutureSalt) : Scan :=
  if salt.validUntil.toInt < date.toInt then { scan with cleanupNeeded := true }
  else if salt.validSince.toInt ≤ date.toInt ∧ date.toInt < salt.validUntil.toInt then
    if scan.maxRemainingInterval = 0 ∨ scan.maxRemainingInterval < remaining date salt then
      { scan with maxRemainingInterval := remaining date salt, result := salt.salt }
    else scan
  else scan

/-- The clean-up from index `i` on. -/
def cleanup (date : BitVec 32) (serverSalts : List FutureSalt) (i : ℕ) : List FutureSalt :=
  if h : i < serverSalts.length then
    -- `i--` takes the unsigned index below zero at the front,
    -- and the `i++` of the loop takes it back
    if serverSalts[i].validUntil.toInt < date.toInt then cleanup date (serverSalts.eraseIdx i) i
    else cleanup date serverSalts (i + 1)
  else serverSalts
termination_by serverSalts.length - i
decreasing_by
  · rw [List.length_eraseIdx_of_lt h]
    omega
  · omega

/-- The salt, and the list that is left. -/
def getServerSalt (date : BitVec 32) (serverSalts : List FutureSalt) :
    BitVec 64 × List FutureSalt :=
  let scan := serverSalts.foldl (Scan.visit date) {}
  (scan.result, if scan.cleanupNeeded then cleanup date serverSalts 0 else serverSalts)

/-! ### The salt -/

/-- The entry is valid at the date. -/
def Valid (date : BitVec 32) (salt : FutureSalt) : Prop :=
  salt.validSince.toInt ≤ date.toInt ∧ date.toInt < salt.validUntil.toInt

/-- The salt of the first entry among the valid ones that last longest, 0 where none is valid. -/
def Selects (date : BitVec 32) (serverSalts : List FutureSalt) (result : BitVec 64) : Prop :=
  (∃ before salt after, serverSalts = before ++ salt :: after ∧ Valid date salt ∧
    result = salt.salt ∧
    (∀ other ∈ before, Valid date other → other.validUntil.toInt < salt.validUntil.toInt) ∧
    ∀ other ∈ after, Valid date other → other.validUntil.toInt ≤ salt.validUntil.toInt) ∨
  (∀ salt ∈ serverSalts, ¬ Valid date salt) ∧ result = 0

/-- What the loop knows after the entries `visited`. -/
inductive Scanned (date : BitVec 32) (visited : List FutureSalt) (scan : Scan) : Prop
  | found (before : List FutureSalt) (salt : FutureSalt) (after : List FutureSalt)
      (split : visited = before ++ salt :: after) (valid : Valid date salt)
        (result : scan.result = salt.salt)
      (interval : scan.maxRemainingInterval = remaining date salt)
      (shorter : ∀ other ∈ before, Valid date other →
        other.validUntil.toInt < salt.validUntil.toInt)
      (longest : ∀ other ∈ after, Valid date other → other.validUntil.toInt ≤ salt.validUntil.toInt)
  | none (invalid : ∀ salt ∈ visited, ¬ Valid date salt) (result : scan.result = 0)
      (interval : scan.maxRemainingInterval = 0)

section Select

variable {date : BitVec 32} {visited serverSalts : List FutureSalt} {scan : Scan}
  {salt : FutureSalt}

/-- A date that is not negative leaves no room for an overflow. -/
theorem remaining_eq (nonneg : 0 ≤ date.toInt) (valid : Valid date salt) :
    (remaining date salt : ℤ) = salt.validUntil.toInt - date.toInt := by
  obtain ⟨-, later⟩ := valid
  have bound : salt.validUntil.toInt < 2 ^ 31 := BitVec.toInt_lt
  have exact_difference : (salt.validUntil - date).toInt = salt.validUntil.toInt - date.toInt := by
    rw [BitVec.toInt_sub, Int.bmod_eq_of_le (by omega) (by omega)]
  rw [remaining, exact_difference, Int.natAbs_of_nonneg (by omega)]

theorem Scan.visit_valid (valid : Valid date salt) :
    scan.visit date salt =
      if scan.maxRemainingInterval = 0 ∨ scan.maxRemainingInterval < remaining date salt then
        { scan with maxRemainingInterval := remaining date salt, result := salt.salt }
      else scan := by
  have fresh : ¬ salt.validUntil.toInt < date.toInt := Int.not_lt.2 (Int.le_of_lt valid.2)
  rw [Scan.visit, if_neg fresh]
  exact if_pos valid

theorem Scan.visit_invalid (scan : Scan) (invalid : ¬ Valid date salt) :
    (scan.visit date salt).result = scan.result ∧
      (scan.visit date salt).maxRemainingInterval = scan.maxRemainingInterval := by
  rw [Scan.visit]
  split_ifs with expired current
  · exact ⟨rfl, rfl⟩
  · exact absurd current invalid
  · exact absurd current invalid
  · exact ⟨rfl, rfl⟩

/-- An entry that is not valid or does not last longer leaves the choice as it is. -/
theorem Scanned.kept (nonneg : 0 ≤ date.toInt) (scanned : Scanned date visited scan) {next : Scan}
    (same : next.result = scan.result)
    (same_interval : next.maxRemainingInterval = scan.maxRemainingInterval)
    (within : Valid date salt → scan.maxRemainingInterval ≠ 0 ∧
      remaining date salt ≤ scan.maxRemainingInterval) :
    Scanned date (visited ++ [salt]) next := by
  cases scanned with
  | none invalid result interval =>
    refine .none ?_ (same.trans result) (same_interval.trans interval)
    rw [List.forall_mem_append, List.forall_mem_singleton]
    exact ⟨invalid, fun valid => (within valid).1 interval⟩
  | found before best after split now result interval shorter longest =>
    refine .found before best (after ++ [salt]) ?_ now (same.trans result)
      (same_interval.trans interval) shorter ?_
    · rw [split, List.append_assoc, List.cons_append]
    · rw [List.forall_mem_append, List.forall_mem_singleton]
      refine ⟨longest, fun valid => ?_⟩
      have interval_best := remaining_eq nonneg now
      have interval_salt := remaining_eq nonneg valid
      have least := (within valid).2
      rw [interval] at least
      omega

/-- A valid entry that lasts longer takes its place. -/
theorem Scanned.replaced (nonneg : 0 ≤ date.toInt) (scanned : Scanned date visited scan)
    (valid : Valid date salt)
    (larger : scan.maxRemainingInterval = 0 ∨ scan.maxRemainingInterval < remaining date salt) :
    Scanned date (visited ++ [salt])
      { scan with maxRemainingInterval := remaining date salt, result := salt.salt } := by
  refine .found visited salt [] rfl valid rfl rfl ?_ fun other mem => absurd mem List.not_mem_nil
  cases scanned with
  | none invalid result interval => exact fun other mem now => absurd now (invalid other mem)
  | found before best after split now result interval shorter longest =>
    have longer : best.validUntil.toInt < salt.validUntil.toInt := by
      have interval_best := remaining_eq nonneg now
      have interval_salt := remaining_eq nonneg valid
      have positive := now.2
      rw [interval] at larger
      omega
    rw [split, List.forall_mem_append, List.forall_mem_cons]
    refine ⟨?_, fun _ => longer, ?_⟩
    · exact fun other mem current => Int.lt_trans (shorter other mem current) longer
    · exact fun other mem current => Int.lt_of_le_of_lt (longest other mem current) longer

theorem Scanned.visit (nonneg : 0 ≤ date.toInt) (scanned : Scanned date visited scan)
    (salt : FutureSalt) :
    Scanned date (visited ++ [salt]) (scan.visit date salt) := by
  by_cases valid : Valid date salt
  · rw [Scan.visit_valid valid]
    split_ifs with larger
    · exact scanned.replaced nonneg valid larger
    · rw [not_or, not_lt] at larger
      exact scanned.kept nonneg rfl rfl fun _ => larger
  · obtain ⟨same, same_interval⟩ := scan.visit_invalid valid
    exact scanned.kept nonneg same same_interval fun now => absurd now valid

theorem scanned_foldl (nonneg : 0 ≤ date.toInt) (serverSalts : List FutureSalt) :
    Scanned date serverSalts (serverSalts.foldl (Scan.visit date) {}) := by
  induction serverSalts using List.reverseRecOn with
  | nil => exact .none (fun _ mem => absurd mem List.not_mem_nil) rfl rfl
  | append_singleton visited salt ih =>
    rw [List.foldl_append]
    exact ih.visit nonneg salt

theorem Scanned.selects (scanned : Scanned date serverSalts scan) :
    Selects date serverSalts scan.result := by
  cases scanned with
  | none invalid result _ => exact .inr ⟨invalid, result⟩
  | found before salt after split valid result _ shorter longest =>
    exact .inl ⟨before, salt, after, split, valid, result, shorter, longest⟩

/-! ### The list -/

/-- The entries that the clean-up keeps. -/
def unexpired (date : BitVec 32) (serverSalts : List FutureSalt) : List FutureSalt :=
  serverSalts.filter fun salt => date.toInt ≤ salt.validUntil.toInt

theorem cleanup_eq (date : BitVec 32) (serverSalts : List FutureSalt) (i : ℕ) :
    cleanup date serverSalts i = serverSalts.take i ++ unexpired date (serverSalts.drop i) := by
  fun_induction cleanup date serverSalts i with
  | case1 serverSalts i h expired ih =>
    have gone : ¬ date.toInt ≤ serverSalts[i].validUntil.toInt := by omega
    have length : (serverSalts.take i).length = i := by
      rw [List.length_take]
      omega
    rw [ih, List.eraseIdx_eq_take_drop_succ, List.take_left' length, List.drop_left' length,
      List.drop_eq_getElem_cons h, unexpired, unexpired,
        List.filter_cons_of_neg (by simpa using gone)]
  | case2 serverSalts i h expired ih =>
    have kept : date.toInt ≤ serverSalts[i].validUntil.toInt := by omega
    rw [ih, List.drop_eq_getElem_cons h, unexpired, unexpired,
      List.filter_cons_of_pos (by simpa using kept), List.take_succ_eq_append_getElem h,
      List.append_assoc, List.singleton_append]
  | case3 serverSalts i h =>
    rw [List.take_of_length_le (by omega), List.drop_of_length_le (by omega), unexpired,
      List.filter_nil, List.append_nil]

theorem Scan.cleanupNeeded_visit (scan : Scan) :
    (scan.visit date salt).cleanupNeeded =
      (scan.cleanupNeeded || salt.validUntil.toInt < date.toInt) := by
  rw [Scan.visit]
  split_ifs <;> simp_all

theorem cleanupNeeded_foldl (serverSalts : List FutureSalt) (scan : Scan) :
    (serverSalts.foldl (Scan.visit date) scan).cleanupNeeded =
      (scan.cleanupNeeded || serverSalts.any fun salt => salt.validUntil.toInt < date.toInt) := by
  induction serverSalts generalizing scan with
  | nil => simp
  | cons salt rest ih =>
      rw [List.foldl_cons, ih, Scan.cleanupNeeded_visit, List.any_cons, Bool.or_assoc]

theorem getServerSalt_snd (date : BitVec 32) (serverSalts : List FutureSalt) :
    (getServerSalt date serverSalts).2 = unexpired date serverSalts := by
  rw [getServerSalt]
  by_cases needed : (serverSalts.foldl (Scan.visit date) {}).cleanupNeeded = true
  · simp only [needed, if_true]
    rw [cleanup_eq, List.take_zero, List.drop_zero, List.nil_append]
  · simp only [needed]
    rw [cleanupNeeded_foldl] at needed
    refine (List.filter_eq_self.2 fun salt mem => ?_).symm
    simp only [Bool.false_or, Bool.not_eq_true, List.any_eq_false, decide_eq_true_eq] at needed
    simpa using needed salt mem

end Select

/-- The salt is that of the valid entry that lasts longest, and the expired entries are gone. -/
theorem getServerSalt_spec (date : BitVec 32) (nonneg : 0 ≤ date.toInt)
    (serverSalts : List FutureSalt) :
    Selects date serverSalts (getServerSalt date serverSalts).1 ∧
      (getServerSalt date serverSalts).2 =
        serverSalts.filter fun salt => date.toInt ≤ salt.validUntil.toInt :=
  ⟨(scanned_foldl nonneg serverSalts).selects, getServerSalt_snd date serverSalts⟩

/-- Two expired entries in a row, then one that has ended just now and two that are valid. -/
def agedSalts : List FutureSalt :=
  [⟨0, 10, 1⟩, ⟨0, 20, 2⟩, ⟨0, 30, 3⟩, ⟨0, 40, 4⟩, ⟨5, 40, 5⟩]

theorem getServerSalt_agedSalts :
    Selects 30 agedSalts (getServerSalt 30 agedSalts).1 ∧
      (getServerSalt 30 agedSalts).2 =
        agedSalts.filter fun salt => (30 : BitVec 32).toInt ≤ salt.validUntil.toInt :=
  getServerSalt_spec 30 (by decide) agedSalts

/-! ## Adding salts -/

/-- `std::sort` by `valid_since`. -/
structure Sorting where
  sort : List FutureSalt → List FutureSalt
  perm : ∀ salts, (sort salts).Perm salts
  sorted : ∀ salts, (sort salts).Pairwise fun x y => x.validSince.toInt ≤ y.validSince.toInt

/-- A sort that keeps the order of entries with one `valid_since`. -/
def Sorting.stable : Sorting where
  sort salts := salts.mergeSort fun x y => x.validSince.toInt ≤ y.validSince.toInt
  perm salts := List.mergeSort_perm salts _
  sorted salts := by
    have ordered : (salts.mergeSort fun x y => x.validSince.toInt ≤ y.validSince.toInt).Pairwise
        fun x y => decide (x.validSince.toInt ≤ y.validSince.toInt) = true :=
      List.pairwise_mergeSort
        (fun x y z first
          second => by simpa using Int.le_trans (by simpa using first) (by simpa using second))
        (fun x y => by simpa using Int.le_total _ _) salts
    exact ordered.imp fun le => by simpa using le

/-- The salt values of a list. -/
def values (salts : List FutureSalt) : List (BitVec 64) := salts.map (·.salt)

variable (sorting : Sorting)

def addServerSalt (serverSalts : List FutureSalt) (serverSalt : FutureSalt) : List FutureSalt :=
  if serverSalt.salt ∈ values serverSalts then serverSalts
  else sorting.sort (serverSalts ++ [serverSalt])

/-- `existingSalts` is built with as many zeros as there are salts, and the values come behind
them. -/
def existingSalts (serverSalts : List FutureSalt) : List (BitVec 64) :=
  List.replicate serverSalts.length 0 ++ values serverSalts

/-- The offered entries that the loop moves into `serverSalts`. -/
def added (date : BitVec 32) (serverSalts salts : List FutureSalt) : List FutureSalt :=
  salts.filter fun salt => salt.salt ∉ existingSalts serverSalts ∧
    date.toInt < salt.validUntil.toInt

def mergeServerSalts (date : BitVec 32) (serverSalts salts : List FutureSalt) : List FutureSalt :=
  if salts = [] then serverSalts
  else if added date serverSalts salts = [] then serverSalts
  else sorting.sort (serverSalts ++ added date serverSalts salts)

/-- Sorted by `valid_since`, and no value twice. -/
structure Tidy (serverSalts : List FutureSalt) : Prop where
  sorted : serverSalts.Pairwise fun x y => x.validSince.toInt ≤ y.validSince.toInt
  distinct : (values serverSalts).Nodup

/-- Every offered salt that lasts beyond the date is there under its value. -/
def Merged (date : BitVec 32) (salts serverSalts : List FutureSalt) : Prop :=
  ∀ salt ∈ salts, date.toInt < salt.validUntil.toInt → salt.salt ∈ values serverSalts

/-- The values of the offered salts that last beyond the date. -/
def offeredValues (date : BitVec 32) (salts : List FutureSalt) : List (BitVec 64) :=
  values (salts.filter fun salt => date.toInt < salt.validUntil.toInt)

/-- The new values of the offer are distinct, and 0 is not among them unless there are no salts
yet. -/
def CleanOffer (date : BitVec 32) (serverSalts salts : List FutureSalt) : Prop :=
  ((offeredValues date salts).filter (· ∉ values serverSalts)).Nodup ∧
    (serverSalts = [] ∨ 0 ∈ values serverSalts ∨ 0 ∉ offeredValues date salts)

section Merge

variable {sorting} {date : BitVec 32} {serverSalts salts : List FutureSalt}

theorem Tidy.nil : Tidy [] := ⟨List.Pairwise.nil, List.nodup_nil⟩

theorem mem_values_iff {value : BitVec 64} :
    value ∈ values salts ↔ ∃ salt ∈ salts, salt.salt = value :=
  List.mem_map

theorem filter_values (p : BitVec 64 → Bool) (salts : List FutureSalt) :
    (values salts).filter p = values (salts.filter fun salt => p salt.salt) := List.filter_map

theorem perm_values_sort (added : List FutureSalt) :
    (values (sorting.sort (serverSalts ++ added))).Perm (values serverSalts ++ values added) := by
  have moved := (sorting.perm (serverSalts ++ added)).map (·.salt)
  rwa [List.map_append] at moved

/-- New entries keep the list tidy exactly if their values are new and distinct. -/
theorem tidy_sort_iff (tidy : Tidy serverSalts) {added : List FutureSalt}
    (fresh : ∀ salt ∈ added, salt.salt ∉ values serverSalts) :
    Tidy (sorting.sort (serverSalts ++ added)) ↔ (values added).Nodup := by
  have distinct : (values (sorting.sort (serverSalts ++ added))).Nodup ↔ (values added).Nodup := by
    rw [(perm_values_sort added).nodup_iff, List.nodup_append]
    refine ⟨fun nodup => nodup.2.1, fun nodup => ⟨tidy.distinct, nodup, ?_⟩⟩
    intro value old other new same
    obtain ⟨salt, mem, rfl⟩ := mem_values_iff.1 new
    exact fresh salt mem (same ▸ old)
  exact ⟨fun sorted => distinct.1 sorted.distinct, fun nodup =>
    ⟨sorting.sorted _, distinct.2 nodup⟩⟩

theorem Tidy.addServerSalt (tidy : Tidy serverSalts) (serverSalt : FutureSalt) :
    Tidy (addServerSalt sorting serverSalts serverSalt) := by
  rw [Datacenter.addServerSalt]
  split_ifs with known
  · exact tidy
  · apply (tidy_sort_iff tidy _).2
    · exact List.nodup_singleton _
    · intro salt mem
      rw [List.mem_singleton.1 mem]
      exact known

theorem Tidy.unexpired (tidy : Tidy serverSalts) (date : BitVec 32) :
    Tidy (unexpired date serverSalts) :=
  ⟨tidy.sorted.sublist List.filter_sublist, tidy.distinct.sublist (List.filter_sublist.map _)⟩

theorem mem_existingSalts_iff {value : BitVec 64} :
    value ∈ existingSalts serverSalts ↔ value ∈ values serverSalts ∨
      (value = 0 ∧ serverSalts ≠ []) := by
  rw [existingSalts, List.mem_append, List.mem_replicate, or_comm]
  have nonempty : serverSalts.length ≠ 0 ↔ serverSalts ≠ [] := not_congr List.length_eq_zero_iff
  rw [nonempty, and_comm]

theorem mem_offeredValues_iff {value : BitVec 64} :
    value ∈ offeredValues date salts ↔ ∃ salt ∈ salts, date.toInt < salt.validUntil.toInt ∧
      salt.salt = value := by
  simp only [offeredValues, mem_values_iff, List.mem_filter, decide_eq_true_eq, and_assoc]

theorem mem_values_added_iff {value : BitVec 64} :
    value ∈ values (added date serverSalts salts) ↔
      value ∈ offeredValues date salts ∧ value ∉ existingSalts serverSalts := by
  simp only [mem_offeredValues_iff, mem_values_iff, added, List.mem_filter, decide_eq_true_eq]
  constructor
  · rintro ⟨salt, ⟨mem, new, live⟩, rfl⟩
    exact ⟨⟨salt, mem, live, rfl⟩, new⟩
  · rintro ⟨⟨salt, mem, live, rfl⟩, new⟩
    exact ⟨salt, ⟨mem, new, live⟩, rfl⟩

theorem mergeServerSalts_eq :
    mergeServerSalts sorting date serverSalts salts =
      if added date serverSalts salts = [] then serverSalts
      else sorting.sort (serverSalts ++ added date serverSalts salts) := by
  rw [mergeServerSalts]
  split_ifs with empty nothing
  · rfl
  · rw [empty] at nothing
    exact absurd rfl nothing
  · rfl
  · rfl

theorem tidy_merge_iff (tidy : Tidy serverSalts) :
    Tidy (mergeServerSalts sorting date serverSalts salts) ↔
      (values (added date serverSalts salts)).Nodup := by
  rw [mergeServerSalts_eq]
  split_ifs with nothing
  · rw [nothing]
    exact ⟨fun _ => List.nodup_nil, fun _ => tidy⟩
  · apply tidy_sort_iff tidy
    intro salt mem known
    have new := (mem_values_added_iff.1 (mem_values_iff.2 ⟨salt, mem, rfl⟩)).2
    exact new (mem_existingSalts_iff.2 (.inl known))

theorem mem_values_merge_iff {value : BitVec 64} :
    value ∈ values (mergeServerSalts sorting date serverSalts salts) ↔
      value ∈ values serverSalts ∨ value ∈ values (added date serverSalts salts) := by
  rw [mergeServerSalts_eq]
  split_ifs with nothing
  · rw [nothing]
    exact ⟨.inl, fun known => known.resolve_right List.not_mem_nil⟩
  · rw [(perm_values_sort _).mem_iff, List.mem_append]

/-- Without an offered 0 that the zeros in front of `existingSalts` hide, only known values are left
out. -/
theorem values_added_eq
    (zero : serverSalts = [] ∨ 0 ∈ values serverSalts ∨ 0 ∉ offeredValues date salts) :
    values (added date serverSalts salts) =
      (offeredValues date salts).filter (· ∉ values serverSalts) := by
  have same : added date serverSalts salts =
      (salts.filter fun salt => date.toInt < salt.validUntil.toInt).filter fun salt =>
        salt.salt ∉ values serverSalts := by
    rw [List.filter_filter]
    apply List.filter_congr
    intro salt mem
    rw [← Bool.decide_and, decide_eq_decide]
    refine and_congr_left fun live => not_congr ?_
    rw [mem_existingSalts_iff, or_iff_left_iff_imp]
    rintro ⟨null, nonempty⟩
    rcases zero with empty | known | hidden
    · exact absurd empty nonempty
    · rwa [null]
    · exact absurd (mem_offeredValues_iff.2 ⟨salt, mem, live, null⟩) hidden
  rw [same, offeredValues, filter_values]

theorem merged_iff :
    Merged date salts (mergeServerSalts sorting date serverSalts salts) ↔
      (serverSalts = [] ∨ 0 ∈ values serverSalts ∨ 0 ∉ offeredValues date salts) := by
  constructor
  · intro merged
    by_contra hidden
    simp only [not_or, not_not] at hidden
    obtain ⟨nonempty, unknown, offered⟩ := hidden
    obtain ⟨salt, mem, live, null⟩ := mem_offeredValues_iff.1 offered
    have there := merged salt mem live
    rw [null, mem_values_merge_iff] at there
    have new := (mem_values_added_iff.1 (there.resolve_left unknown)).2
    exact new (mem_existingSalts_iff.2 (.inr ⟨rfl, nonempty⟩))
  · intro zero salt mem live
    rw [mem_values_merge_iff, values_added_eq zero, List.mem_filter]
    by_cases known : salt.salt ∈ values serverSalts
    · exact .inl known
    · exact .inr ⟨mem_offeredValues_iff.2 ⟨salt, mem, live, rfl⟩, by simpa using known⟩

variable (sorting) in
/-- A merge is right exactly for a clean offer. -/
theorem merge_right_iff (tidy : Tidy serverSalts) :
    (Tidy (mergeServerSalts sorting date serverSalts salts) ∧
      Merged date salts (mergeServerSalts sorting date serverSalts salts)) ↔
        CleanOffer date serverSalts salts := by
  rw [merged_iff, tidy_merge_iff tidy, CleanOffer]
  apply and_congr_left
  intro zero
  rw [values_added_eq zero]

end Merge

/-! ## Runs -/

/-- The salts of a datacenter, and those in the configuration that was saved last. -/
structure SaltStore where
  serverSalts : List FutureSalt := []
  saved : List FutureSalt := []

inductive SaltOperation where
  | addServerSalt (serverSalt : FutureSalt)
  | mergeServerSalts (date : BitVec 32) (salts : List FutureSalt)
  | getServerSalt (date : BitVec 32)
  | clearServerSalts
  | save
  | load

namespace SaltOperation

/-- What an operation leaves.  A saved list is read back as it was (`parses_salts`). -/
def run (store : SaltStore) : SaltOperation → SaltStore
  | .addServerSalt serverSalt =>
      { store with serverSalts := Datacenter.addServerSalt sorting store.serverSalts serverSalt }
  | .mergeServerSalts date salts =>
      { store with serverSalts := Datacenter.mergeServerSalts sorting date store.serverSalts salts }
  | .getServerSalt date =>
      { store with serverSalts := (Datacenter.getServerSalt date store.serverSalts).2 }
  | .clearServerSalts => { store with serverSalts := [] }
  | .save => { store with saved := store.serverSalts }
  | .load => { store with serverSalts := store.saved }

/-- The salts are tidy after the operation, and after a merge every offered salt is there. -/
def Right (store : SaltStore) (operation : SaltOperation) : Prop :=
  Tidy (operation.run sorting store).serverSalts ∧
    ∀ date salts, operation = .mergeServerSalts date salts →
      Merged date salts (operation.run sorting store).serverSalts

/-- A merge has a clean offer. -/
def Clean (store : SaltStore) (operation : SaltOperation) : Prop :=
  ∀ date salts, operation = .mergeServerSalts date salts → CleanOffer date store.serverSalts salts

/-- The property holds of every step of the run. -/
def Throughout (property : SaltStore → SaltOperation → Prop) : SaltStore → List SaltOperation → Prop
  | _, [] => True
  | store, operation :: rest => property store operation ∧
      Throughout property (operation.run sorting store) rest

variable {sorting} {store : SaltStore}

theorem right_iff_clean_of_tidy {operation : SaltOperation}
    (other : ∀ date salts, operation ≠ .mergeServerSalts date salts)
    (tidy : Tidy (operation.run sorting store).serverSalts) :
    Right sorting store operation ↔ Clean store operation :=
  iff_of_true ⟨tidy, fun date salts same => absurd same (other date salts)⟩
    fun date salts same => absurd same (other date salts)

variable (sorting) in
theorem right_iff_clean (tidy : Tidy store.serverSalts) (saved : Tidy store.saved)
    (operation : SaltOperation) :
    Right sorting store operation ↔ Clean store operation := by
  cases operation with
  | mergeServerSalts date salts =>
    have merge : _ ↔ CleanOffer date store.serverSalts salts := merge_right_iff sorting tidy
    constructor
    · rintro ⟨tidy', merged⟩ _ _ ⟨⟩
      exact merge.1 ⟨tidy', merged date salts rfl⟩
    · intro clean
      obtain ⟨tidy', merged⟩ := merge.2 (clean date salts rfl)
      refine ⟨tidy', ?_⟩
      rintro _ _ ⟨⟩
      exact merged
  | addServerSalt serverSalt =>
      exact right_iff_clean_of_tidy (by simp) (tidy.addServerSalt serverSalt)
  | getServerSalt date =>
    apply right_iff_clean_of_tidy (by simp)
    change Tidy (Datacenter.getServerSalt date store.serverSalts).2
    rw [getServerSalt_snd]
    exact tidy.unexpired date
  | clearServerSalts => exact right_iff_clean_of_tidy (by simp) .nil
  | save => exact right_iff_clean_of_tidy (by simp) tidy
  | load => exact right_iff_clean_of_tidy (by simp) saved

theorem tidy_saved_run (tidy : Tidy store.serverSalts) (saved : Tidy store.saved)
    (operation : SaltOperation) :
    Tidy (operation.run sorting store).saved := by
  cases operation with
  | save => exact tidy
  | _ => exact saved

theorem throughout_iff (tidy : Tidy store.serverSalts) (saved : Tidy store.saved)
    (operations : List SaltOperation) :
    Throughout sorting (Right sorting) store operations ↔
      Throughout sorting Clean store operations := by
  induction operations generalizing store with
  | nil => exact Iff.rfl
  | cons operation rest ih =>
    rw [Throughout, Throughout, right_iff_clean sorting tidy saved]
    apply and_congr_right
    intro clean
    have right := (right_iff_clean sorting tidy saved operation).2 clean
    exact ih right.1 (tidy_saved_run tidy saved operation)

end SaltOperation

/-- In a run the salts stay tidy and every merge takes what it is offered exactly if every merge has
a clean offer. -/
theorem salts_tidy_iff (sorting : Sorting) (operations : List SaltOperation) :
    SaltOperation.Throughout sorting (SaltOperation.Right sorting) {} operations ↔
      SaltOperation.Throughout sorting SaltOperation.Clean {} operations :=
  SaltOperation.throughout_iff .nil .nil operations

/-- One offer with a value twice. -/
theorem salts_not_tidy_twice :
    ¬ SaltOperation.Throughout .stable (SaltOperation.Right .stable) {}
      [.mergeServerSalts 1 [⟨0, 10, 5⟩, ⟨0, 10, 5⟩]] := by
  rintro ⟨right, -⟩
  have clean := (SaltOperation.right_iff_clean .stable .nil .nil _).1 right 1 _ rfl
  exact absurd clean.1 (by decide)

end Mtproto.Datacenter
