import Mtproto.Java.NativeByteBuffer

/-!
# The spellings of a primitive value

`Spells` lists the bytes that stand for a primitive value: those the writers produce, and those
with other padding bytes, a longer length prefix or invalid UTF-8.  A reader that finds a spelling
returns the value and leaves what follows (`read_of_spells`), and what is written is read
back exactly for the values of `Fits` (`roundTrips_iff`).
-/

namespace Mtproto.Java

open Bytes
open Generator (Prim PrimitiveClass Failure Codec)

/-! ## Reads that succeed -/

namespace Buffer

section

variable {α β : Type} {x : Buffer α} {f : α → Buffer β} {input mid rest : List UInt8}

theorem bind_some {a : α} (h : x input = (some a, mid)) : (x >>= f) input = f a mid := by
  simp only [bind, h]

theorem bind_eq_some {b : β} (h : (x >>= f) input = (some b, rest)) :
    ∃ a mid, x input = (some a, mid) ∧ f a mid = (some b, rest) := by
  rcases hx : x input with ⟨_ | a, mid⟩
  · simp [bind, hx] at h
  · rw [bind_some hx] at h
    exact ⟨a, mid, rfl, h⟩

end

variable {input rest : List UInt8}

theorem get_eq_some {b : UInt8} : get input = (some b, rest) ↔ input = b :: rest := by
  cases input with
  | nil => simp [get]
  | cons c input => simp [get]

theorem getBytes_eq_some {n : ℕ} {v : List UInt8} :
    getBytes n input = (some v, rest) ↔ v.length = n ∧ input = v ++ rest := by
  unfold getBytes
  constructor
  · intro h
    by_cases hlength : n ≤ input.length
    · rw [if_pos hlength] at h
      obtain ⟨hv, rfl⟩ := Prod.mk.inj h
      obtain rfl := Option.some.inj hv
      exact ⟨List.length_take_of_le hlength, (List.take_append_drop n input).symm⟩
    · rw [if_neg hlength] at h
      cases h
  · rintro ⟨rfl, rfl⟩
    rw [if_pos (by simp), List.take_left, List.drop_left]

theorem getWord_eq {width : ℕ} {word : List UInt8} (h : word.length = width) :
    getWord width (word ++ rest) = (some (leNat word), rest) := by
  have hbytes : getBytes width (word ++ rest) = (some word, rest) := getBytes_eq_some.2 ⟨h, rfl⟩
  change (getBytes width >>= fun bytes => pure (leNat bytes)) (word ++ rest) = _
  rw [bind_some hbytes]
  rfl

end Buffer

theorem skip_eq_some {n : ℕ} {input rest : List UInt8} :
    skip n input = (some (), rest) ↔ ∃ padding, padding.length = n ∧ input = padding ++ rest := by
  induction n generalizing input with
  | zero =>
    constructor
    · intro h
      cases h
      exact ⟨[], rfl, rfl⟩
    · rintro ⟨padding, hlength, rfl⟩
      rw [List.length_eq_zero_iff.1 hlength]
      rfl
  | succ n ih =>
    constructor
    · intro h
      obtain ⟨b, mid, hget, hskip⟩ := Buffer.bind_eq_some h
      obtain rfl := Buffer.get_eq_some.1 hget
      obtain ⟨padding, rfl, rfl⟩ := ih.1 hskip
      exact ⟨b :: padding, rfl, rfl⟩
    · rintro ⟨padding, hlength, rfl⟩
      cases padding with
      | nil => simp at hlength
      | cons b padding =>
        have hget : Buffer.get (b :: padding ++ rest) = (some b, padding ++ rest) := rfl
        rw [skip, Buffer.bind_some hget]
        exact ih.2 ⟨padding, by simpa using hlength, rfl⟩

/-! ## Framed bytes -/

/-- The prefixes that spell a length: one byte up to `253`, or a marker and three bytes. -/
def SpellsLength (l : ℕ) (header : List UInt8) : Prop :=
  (l ≤ 253 ∧ header = [UInt8.ofNat l]) ∨
    ∃ marker b0 b1 b2 : UInt8, 254 ≤ marker.toNat ∧ leNat [b0, b1, b2] = l ∧
      header = [marker, b0, b1, b2]

theorem readLength_eq_some {l sl : ℕ} {input rest : List UInt8} :
    readLength input = (some (l, sl), rest) ↔
      ∃ header, SpellsLength l header ∧ header.length = sl ∧ input = header ++ rest := by
  constructor
  · intro h
    obtain ⟨marker, mid, hget, hbody⟩ := Buffer.bind_eq_some h
    obtain rfl := Buffer.get_eq_some.1 hget
    by_cases hmarker : marker.toNat ≥ 254
    · rw [if_pos hmarker] at hbody
      obtain ⟨b0, mid0, hget0, hbody0⟩ := Buffer.bind_eq_some hbody
      obtain ⟨b1, mid1, hget1, hbody1⟩ := Buffer.bind_eq_some hbody0
      obtain ⟨b2, mid2, hget2, hbody2⟩ := Buffer.bind_eq_some hbody1
      obtain rfl := Buffer.get_eq_some.1 hget0
      obtain rfl := Buffer.get_eq_some.1 hget1
      obtain rfl := Buffer.get_eq_some.1 hget2
      cases hbody2
      exact ⟨[marker, b0, b1, b2], .inr ⟨marker, b0, b1, b2, hmarker, rfl, rfl⟩, rfl, rfl⟩
    · rw [if_neg hmarker] at hbody
      cases hbody
      exact ⟨[marker], .inl ⟨by omega, by simp⟩, rfl, rfl⟩
  · rintro ⟨header, ⟨hl, rfl⟩ | ⟨marker, b0, b1, b2, hmarker, rfl, rfl⟩, rfl, rfl⟩
    · have hget : Buffer.get ([UInt8.ofNat l] ++ rest) = (some (UInt8.ofNat l), rest) := rfl
      have hnat : (UInt8.ofNat l).toNat = l := by
        rw [UInt8.toNat_ofNat']
        omega
      rw [readLength, Buffer.bind_some hget, if_neg (by omega), hnat]
      rfl
    · have hget : Buffer.get ([marker, b0, b1, b2] ++ rest) = (some marker, [b0, b1, b2] ++ rest) :=
        rfl
      rw [readLength, Buffer.bind_some hget, if_pos hmarker]
      rfl

/-- The frames of a byte array, with any padding bytes. -/
def Framed (v frame : List UInt8) : Prop :=
  ∃ header padding, SpellsLength v.length header ∧
    padding.length = paddingLength (v.length + header.length) ∧ frame = header ++ v ++ padding

/-- A framed read succeeds exactly on a frame. -/
theorem readFramed_eq_some {v input rest : List UInt8} :
    readFramed input = (some v, rest) ↔ ∃ frame, Framed v frame ∧ input = frame ++ rest := by
  constructor
  · intro h
    obtain ⟨⟨l, sl⟩, mid, hlength, hbody⟩ := Buffer.bind_eq_some h
    obtain ⟨b, mid', hbytes, hpad⟩ := Buffer.bind_eq_some hbody
    obtain ⟨_, rest', hskip, hpure⟩ := Buffer.bind_eq_some hpad
    obtain ⟨header, hheader, rfl, rfl⟩ := readLength_eq_some.1 hlength
    obtain ⟨rfl, rfl⟩ := Buffer.getBytes_eq_some.1 hbytes
    obtain ⟨padding, hpadding, rfl⟩ := skip_eq_some.1 hskip
    cases hpure
    exact ⟨header ++ v ++ padding, ⟨header, padding, hheader, hpadding, rfl⟩, by simp⟩
  · rintro ⟨frame, ⟨header, padding, hheader, hpadding, rfl⟩, rfl⟩
    have hlength : readLength (header ++ v ++ padding ++ rest) =
        (some (v.length, header.length), v ++ (padding ++ rest)) :=
      readLength_eq_some.2 ⟨header, hheader, rfl, by simp⟩
    have hbytes : Buffer.getBytes v.length (v ++ (padding ++ rest)) = (some v, padding ++ rest) :=
      Buffer.getBytes_eq_some.2 ⟨rfl, rfl⟩
    have hskip : skip (paddingLength (v.length + header.length)) (padding ++ rest) =
        (some (), rest) :=
      skip_eq_some.2 ⟨padding, hpadding, rfl⟩
    rw [readFramed, Buffer.bind_some hlength]
    change (Buffer.getBytes v.length >>= fun b =>
      skip (paddingLength (v.length + header.length)) >>= fun _ => pure b) _ = _
    rw [Buffer.bind_some hbytes, Buffer.bind_some hskip]
    rfl

/-- What `writeByteArray` writes is a frame, as long as the length fits its three bytes. -/
theorem framed_writeByteArray {v : List UInt8} (h : v.length < 2 ^ 24) :
    Framed v (writeByteArray v) := by
  unfold writeByteArray
  split_ifs with hshort
  · exact ⟨[UInt8.ofNat v.length], _, .inl ⟨hshort, rfl⟩, List.length_replicate, rfl⟩
  · refine ⟨254 :: toLE 3 v.length, _, .inr ⟨254, _, _, _, by decide, ?_, rfl⟩,
      List.length_replicate, rfl⟩
    have hbound : v.length < 256 ^ 3 := by omega
    exact leNat_toLE_of_lt hbound

/-! ## Primitives -/

section Spells

variable (malformed : List UInt8 → List UInt16)

/-- The bytes that stand for a primitive value. -/
def Spells : Prim → List UInt8 → Prop
  | .boolean value, bytes => bytes = writeBoolean value
  | .byte value, bytes => bytes = [UInt8.ofBitVec value]
  | .int value, bytes => bytes = writeInt value
  | .long value, bytes => bytes = writeLong value
  | .double bits, bytes => bytes = writeLong bits
  | .string units, bytes => ∃ b, Framed b bytes ∧ newString malformed b = units
  | .byteArray value, bytes => Framed value bytes

variable {malformed} {rest : List UInt8}

theorem readInt_writeInt (x : BitVec 32) : readInt (writeInt x ++ rest) = (x, rest) := by
  have hword : Buffer.getWord 4 (writeInt x ++ rest) = (some x.toNat, rest) := by
    rw [writeInt, Buffer.getWord_eq (length_toLE 4 _), leNat_toLE_of_lt (by simpa using x.isLt)]
  have hread : (BitVec.ofNat 32 <$> Buffer.getWord 4) (writeInt x ++ rest) = (some x, rest) := by
    change (Buffer.getWord 4 >>= fun n => pure (BitVec.ofNat 32 n)) (writeInt x ++ rest) = _
    rw [Buffer.bind_some hword, BitVec.ofNat_toNat, BitVec.setWidth_eq]
    rfl
  rw [readInt, Buffer.catching, hread]

theorem readLong_writeLong (x : BitVec 64) : readLong (writeLong x ++ rest) = (x, rest) := by
  have hword : Buffer.getWord 8 (writeLong x ++ rest) = (some x.toNat, rest) := by
    rw [writeLong, Buffer.getWord_eq (length_toLE 8 _), leNat_toLE_of_lt (by simpa using x.isLt)]
  have hread : (BitVec.ofNat 64 <$> Buffer.getWord 8) (writeLong x ++ rest) = (some x, rest) := by
    change (Buffer.getWord 8 >>= fun n => pure (BitVec.ofNat 64 n)) (writeLong x ++ rest) = _
    rw [Buffer.bind_some hword, BitVec.ofNat_toNat, BitVec.setWidth_eq]
    rfl
  rw [readLong, Buffer.catching, hread]

theorem readBoolean_writeBoolean (value : Bool) :
    readBoolean (writeBoolean value ++ rest) = (value, rest) := by
  rw [readBoolean, writeBoolean, readInt_writeInt]
  cases value <;> rfl

theorem readFramed_of_framed {v frame : List UInt8} (h : Framed v frame) :
    readFramed (frame ++ rest) = (some v, rest) :=
  readFramed_eq_some.2 ⟨frame, h, rfl⟩

/-- A reader that finds a spelling returns the value and leaves what follows. -/
theorem read_of_spells {p : Prim} {bytes : List UInt8} (h : Spells malformed p bytes)
    (rest : List UInt8) :
    (codec malformed).read p.clazz (bytes ++ rest) = .ok (p, rest) := by
  cases p with
  | boolean value =>
    obtain rfl := h
    simp only [codec, Prim.clazz, readBoolean_writeBoolean]
  | byte value =>
    obtain rfl := h
    rfl
  | int value =>
    obtain rfl := h
    simp only [codec, Prim.clazz, readInt_writeInt]
  | long value =>
    obtain rfl := h
    simp only [codec, Prim.clazz, readLong_writeLong]
  | double bits =>
    obtain rfl := h
    simp only [codec, Prim.clazz, readLong_writeLong]
  | string units =>
    obtain ⟨b, hframed, rfl⟩ := h
    simp only [codec, Prim.clazz, readString, readFramed_of_framed hframed]
  | byteArray value =>
    simp only [codec, Prim.clazz, readByteArray, Buffer.catching, readFramed_of_framed h]

end Spells

/-! ## Written values -/

/-- The values whose length fits the three bytes of a length prefix; a string also needs to
survive UTF-8. -/
def Fits : Prim → Prop
  | .string units => Utf16.WellFormed units ∧ (Utf16.encode units).length < 2 ^ 24
  | .byteArray value => value.length < 2 ^ 24
  | _ => True

section Fits

variable {malformed : List UInt8 → List UInt16}

theorem write_eq_ok (p : Prim) : ∃ bytes, (codec malformed).write p = .ok bytes := by
  cases p <;> exact ⟨_, rfl⟩

/-- What is written for a value that fits is one of its spellings. -/
theorem spells_write {p : Prim} {bytes : List UInt8} (fits : Fits p)
    (write : (codec malformed).write p = .ok bytes) : Spells malformed p bytes := by
  cases p with
  | boolean value | byte value | int value | long value | double bits =>
    cases write
    rfl
  | string units =>
    cases write
    refine ⟨Utf16.encode units, framed_writeByteArray fits.2, ?_⟩
    rw [newString, (Utf16.decode?_encode_eq_iff units).2 fits.1]
    rfl
  | byteArray value =>
    cases write
    exact framed_writeByteArray fits

theorem roundTrips_of_fits {p : Prim} (fits : Fits p) : (codec malformed).RoundTrips p := by
  obtain ⟨bytes, hwrite⟩ := write_eq_ok p
  exact ⟨bytes, hwrite, read_of_spells (spells_write fits hwrite)⟩

theorem length_lt_of_framed {v frame : List UInt8} (h : Framed v frame) : v.length < 2 ^ 24 := by
  obtain ⟨header, padding, ⟨hle, -⟩ | ⟨marker, b0, b1, b2, -, hlength, -⟩, -, -⟩ := h
  · omega
  · have hlt := leNat_lt [b0, b1, b2]
    rw [hlength] at hlt
    simpa using hlt

theorem length_readByteArray_lt (input : List UInt8) :
    (readByteArray input).1.length < 2 ^ 24 := by
  rw [readByteArray, Buffer.catching]
  rcases hread : readFramed input with ⟨_ | v, rest⟩
  · simp
  · obtain ⟨frame, hframed, -⟩ := readFramed_eq_some.1 hread
    exact length_lt_of_framed hframed

/-- On a platform that drops malformed strings, what `readString` returns has short UTF-8. -/
theorem length_encode_readString_lt (input : List UInt8) :
    (Utf16.encode (readString (fun _ => []) input).1).length < 2 ^ 24 := by
  rw [readString]
  rcases hread : readFramed input with ⟨_ | b, rest⟩
  · simp [Utf16.encode, Utf16.chars]
  · obtain ⟨frame, hframed, -⟩ := readFramed_eq_some.1 hread
    simp only [newString]
    cases hdecode : Utf16.decode? b with
    | none => simp [Utf16.encode, Utf16.chars]
    | some units =>
      rw [Option.getD_some, Utf16.encode_of_decode? hdecode]
      exact length_lt_of_framed hframed

/-- A value that does not fit is read back as another value. -/
theorem read_ne_of_not_fits {p : Prim} {bytes : List UInt8} (fits : ¬ Fits p)
    (write : (codec fun _ => []).write p = .ok bytes) (rest rest' : List UInt8) :
    (codec fun _ => []).read p.clazz (bytes ++ rest) ≠ .ok (p, rest') := by
  intro h
  cases p with
  | boolean value | byte value | int value | long value | double bits => exact fits trivial
  | byteArray value =>
    simp only [codec, Prim.clazz, Except.ok.injEq, Prod.mk.injEq, Prim.byteArray.injEq] at h
    apply fits
    rw [← h.1]
    exact length_readByteArray_lt _
  | string units =>
    simp only [codec, Prim.clazz, Except.ok.injEq, Prod.mk.injEq, Prim.string.injEq] at h
    have hshort : (Utf16.encode units).length < 2 ^ 24 := by
      rw [← h.1]
      exact length_encode_readString_lt _
    cases write
    have hread : readFramed (writeByteArray (Utf16.encode units) ++ rest) =
        (some (Utf16.encode units), rest) :=
      readFramed_of_framed (framed_writeByteArray hshort)
    simp only [readString, hread, newString, Utf16.decode?_encode, Option.getD_some] at h
    refine fits ⟨(Utf16.decode?_encode_eq_iff units).1 ?_, hshort⟩
    rw [Utf16.decode?_encode, h.1]

end Fits

end Mtproto.Java
