import Mathlib.Data.List.Basic

/-!
# UTF-16 strings and their UTF-8 bytes

A string of a virtual machine is a list of 16-bit code units, in which a surrogate may stand alone.
`encode` writes it as UTF-8 with a question mark for every unpaired surrogate, `decode?`
reads UTF-8 and refuses what is malformed.  Exactly the strings without an unpaired surrogate
survive both.
-/

namespace Mtproto.Utf16

/-! ## Code units -/

/-- The code units of a character. -/
def units (c : Char) : List UInt16 :=
  if c.toNat < 0x10000 then [UInt16.ofNat c.toNat]
  else
    [UInt16.ofNat (0xd800 + (c.toNat - 0x10000) / 0x400),
     UInt16.ofNat (0xdc00 + (c.toNat - 0x10000) % 0x400)]

def isHighSurrogate (u : UInt16) : Bool := 0xd800 ≤ u.toNat ∧ u.toNat < 0xdc00

def isLowSurrogate (u : UInt16) : Bool := 0xdc00 ≤ u.toNat ∧ u.toNat < 0xe000

/-- The character of a single code unit, if it is no surrogate. -/
def single (u : UInt16) : Option Char :=
  if isHighSurrogate u ∨ isLowSurrogate u then none else some (Char.ofNat u.toNat)

/-- The character of a surrogate pair. -/
def pair (high low : UInt16) : Char :=
  Char.ofNat (0x10000 + (high.toNat - 0xd800) * 0x400 + (low.toNat - 0xdc00))

/-- The characters of a list of code units, `none` for every unpaired surrogate. -/
def chars : List UInt16 → List (Option Char)
  | [] => []
  | [u] => [single u]
  | u :: v :: us =>
    if isHighSurrogate u ∧ isLowSurrogate v then some (pair u v) :: chars us
    else single u :: chars (v :: us)

/-- No surrogate is unpaired. -/
def WellFormed (us : List UInt16) : Prop := none ∉ chars us

instance (us : List UInt16) : Decidable (WellFormed us) :=
  inferInstanceAs (Decidable (none ∉ chars us))

/-! ## Characters and their units -/

theorem toNat_ofNat_of_valid {n : ℕ} (h : n.isValidChar) : (Char.ofNat n).toNat = n := by
  rw [Char.ofNat, dif_pos h]
  rfl

theorem units_single {u : UInt16} {c : Char} (h : single u = some c) : units c = [u] := by
  have hu : u.toNat < 65536 := u.toNat_lt
  unfold single at h
  split_ifs at h with hsurrogate
  simp only [isHighSurrogate, isLowSurrogate, decide_eq_true_eq] at hsurrogate
  obtain rfl := Option.some.inj h
  have hvalid : u.toNat.isValidChar := by
    simp only [Nat.isValidChar]
    omega
  rw [units, toNat_ofNat_of_valid hvalid, if_pos (by omega)]
  simp

theorem units_pair {u v : UInt16} (high : isHighSurrogate u) (low : isLowSurrogate v) :
    units (pair u v) = [u, v] := by
  simp only [isHighSurrogate, isLowSurrogate, decide_eq_true_eq] at high low
  have hvalid : (0x10000 + (u.toNat - 0xd800) * 0x400 + (v.toNat - 0xdc00)).isValidChar := by
    simp only [Nat.isValidChar]
    omega
  rw [pair, units, toNat_ofNat_of_valid hvalid, if_neg (by omega)]
  have hhigh :
      0xd800 + (0x10000 + (u.toNat - 0xd800) * 0x400 + (v.toNat - 0xdc00) - 0x10000) / 0x400 =
      u.toNat := by omega
  have hlow :
      0xdc00 + (0x10000 + (u.toNat - 0xd800) * 0x400 + (v.toNat - 0xdc00) - 0x10000) % 0x400 =
      v.toNat := by omega
  rw [hhigh, hlow]
  simp

/-- The units of one character are read as that character. -/
theorem chars_units_append (c : Char) (us : List UInt16) :
    chars (units c ++ us) = some c :: chars us := by
  have hvalid : c.toNat.isValidChar := c.valid
  simp only [Nat.isValidChar] at hvalid
  unfold units
  split_ifs with hsmall
  · have hu : (UInt16.ofNat c.toNat).toNat = c.toNat := by
      rw [UInt16.toNat_ofNat']
      omega
    have hsingle : single (UInt16.ofNat c.toNat) = some c := by
      rw [single, if_neg, hu, Char.ofNat_toNat]
      simp only [isHighSurrogate, isLowSurrogate, decide_eq_true_eq, hu]
      omega
    have hhigh : ¬ isHighSurrogate (UInt16.ofNat c.toNat) := by
      simp only [isHighSurrogate, decide_eq_true_eq, hu]
      omega
    cases us with
    | nil => simp only [List.append_nil, chars, hsingle]
    | cons v us => rw [List.singleton_append, chars, if_neg (fun h => hhigh h.1), hsingle]
  · have hu : (UInt16.ofNat (0xd800 + (c.toNat - 0x10000) / 0x400)).toNat =
        0xd800 + (c.toNat - 0x10000) / 0x400 := by
      rw [UInt16.toNat_ofNat']
      omega
    have hv : (UInt16.ofNat (0xdc00 + (c.toNat - 0x10000) % 0x400)).toNat =
        0xdc00 + (c.toNat - 0x10000) % 0x400 := by
      rw [UInt16.toNat_ofNat']
      omega
    have hcode : 0x10000 + (0xd800 + (c.toNat - 0x10000) / 0x400 - 0xd800) * 0x400 +
        (0xdc00 + (c.toNat - 0x10000) % 0x400 - 0xdc00) = c.toNat := by omega
    rw [List.cons_append, List.singleton_append, chars, if_pos]
    · rw [pair, hu, hv, hcode, Char.ofNat_toNat]
    · simp only [isHighSurrogate, isLowSurrogate, decide_eq_true_eq, hu, hv]
      omega

theorem chars_flatMap_units (cs : List Char) : chars (cs.flatMap units) = cs.map some := by
  induction cs with
  | nil => rfl
  | cons c cs ih => rw [List.flatMap_cons, chars_units_append, ih, List.map_cons]

/-- A well-formed string is the units of its characters. -/
theorem flatMap_units_chars {us : List UInt16} (h : WellFormed us) (d : Char) :
    ((chars us).map (·.getD d)).flatMap units = us := by
  induction us using chars.induct with
  | case1 => rfl
  | case2 u =>
    rw [WellFormed, chars, List.mem_singleton] at h
    obtain ⟨c, hc⟩ := Option.ne_none_iff_exists'.1 (Ne.symm h)
    rw [chars, hc, List.map_singleton, List.flatMap_singleton, Option.getD_some, units_single hc]
  | case3 u v us hpair ih =>
    rw [WellFormed, chars, if_pos hpair, List.mem_cons, not_or] at h
    rw [chars, if_pos hpair, List.map_cons, List.flatMap_cons, ih h.2, Option.getD_some,
      units_pair hpair.1 hpair.2, List.cons_append, List.singleton_append]
  | case4 u v us hpair ih =>
    rw [WellFormed, chars, if_neg hpair, List.mem_cons, not_or] at h
    obtain ⟨c, hc⟩ := Option.ne_none_iff_exists'.1 (Ne.symm h.1)
    rw [chars, if_neg hpair, List.map_cons, List.flatMap_cons, ih h.2, hc, Option.getD_some,
      units_single hc, List.singleton_append]

/-! ## UTF-8 -/

/-- The UTF-8 bytes of a string, `?` for every unpaired surrogate. -/
def encode (us : List UInt16) : List UInt8 :=
  ((chars us).map (·.getD '?')).flatMap String.utf8EncodeChar

/-- The string with these UTF-8 bytes, if they are well formed. -/
def decode? (bytes : List UInt8) : Option (List UInt16) :=
  bytes.toByteArray.utf8Decode?.map fun cs => cs.toList.flatMap units

theorem decode?_encode (us : List UInt16) :
    decode? (encode us) = some (((chars us).map (·.getD '?')).flatMap units) := by
  have h : (encode us).toByteArray.utf8Decode? = some ((chars us).map (·.getD '?')).toArray :=
    List.utf8Decode?_utf8Encode
  rw [decode?, h]
  rfl

/-- Exactly the well-formed strings are read back from their bytes. -/
theorem decode?_encode_eq_iff (us : List UInt16) :
    decode? (encode us) = some us ↔ WellFormed us := by
  rw [decode?_encode, Option.some_inj]
  constructor
  · intro h hmem
    have hchars := chars_flatMap_units ((chars us).map (·.getD '?'))
    rw [h] at hchars
    rw [hchars] at hmem
    simp at hmem
  · intro h
    exact flatMap_units_chars h '?'

/-- What decodes is encoded to the same bytes. -/
theorem encode_of_decode? {bytes : List UInt8} {us : List UInt16} (h : decode? bytes = some us) :
    encode us = bytes := by
  obtain ⟨cs, hcs, rfl⟩ := Option.map_eq_some_iff.1 h
  have hbytes : cs.toList.utf8Encode = bytes.toByteArray := by
    have hget := ByteArray.utf8Encode_get_utf8Decode? (b := bytes.toByteArray)
      (h := by rw [hcs]; rfl)
    simpa [hcs] using hget
  have hlist : cs.toList.flatMap String.utf8EncodeChar = bytes := by
    have hdata := congrArg (fun b => b.data.toList) hbytes
    simpa [List.utf8Encode] using hdata
  have hchars : (cs.toList.map some).map (·.getD '?') = cs.toList := by
    rw [List.map_map]
    exact List.map_id _
  rw [encode, chars_flatMap_units, hchars, hlist]

end Mtproto.Utf16
