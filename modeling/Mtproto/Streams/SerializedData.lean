import Mathlib.Data.List.Induction
import Mtproto.Lib.Overwrite
import Mtproto.Streams.Java

/-!
# `SerializedData`

The second stream of the Java side: a growing array for the writers, and for the readers an array
whose `read` returns `-1` at the end.  The readers here are those with an exception flag; the others
return constants.
-/

namespace Mtproto.Java

open Bytes

namespace SerializedData

/-! ## Writers -/

/-- The stream under a writer: `outbuf`, or the size in `len`. -/
structure Out where
  outbuf : List UInt8 := []
  justCalc : Bool := false
  len : BitVec 32 := 0
deriving DecidableEq, Repr

/-- A program over the stream. -/
abbrev Writer := StateM Out

/-- `out.write(…)`, or `len += …` when only the size is wanted. -/
def emit (data : List UInt8) : Writer Unit := fun o =>
  if !o.justCalc then ((), { o with outbuf := o.outbuf ++ data })
  else ((), { o with len := o.len + BitVec.ofNat 32 data.length })

/-- `out.write(x >> (i * 8))` for each byte of a word. -/
def shifted (width : ℕ) (x : ℕ) : List UInt8 :=
  (List.range width).map fun i => UInt8.ofNat (x >>> (i * 8))

def writeInt (x : BitVec 32) : Writer Unit := emit (shifted 4 x.toNat)

def writeLong (x : BitVec 64) : Writer Unit := emit (shifted 8 x.toNat)

def writeBoolean (value : Bool) : Writer Unit := fun o =>
  if !o.justCalc then
    if value then writeInt 0x997275b5 o else writeInt 0xbc799737 o
  else ((), { o with len := o.len + 4 })

def writeBytes (b : List UInt8) : Writer Unit := emit b

/-- `writeBytes(b, offset, count)`; the exception of a range outside of the array is swallowed. -/
def writeRange (b : List UInt8) (offset count : ℕ) : Writer Unit :=
  if offset + count ≤ b.length then emit (slice b offset count) else pure ()

/-- `toByteArray` on a stream that `w` has written. -/
def toByteArray (w : Writer Unit) : List UInt8 := (w {}).2.outbuf

/-- The bytes in front of `count` bytes. -/
def lengthBytes (count : ℕ) : List UInt8 :=
  if count ≤ 253 then [UInt8.ofNat count]
  else [254, UInt8.ofNat count, UInt8.ofNat (count >>> 8), UInt8.ofNat (count >>> 16)]

/-- `writeByteArray`, of a whole array or of a range of one. -/
def writeByteArray (b : List UInt8) : Writer Unit := do
  emit (lengthBytes b.length)
  emit b
  whileUnaligned (emit [0]) b.length (if b.length ≤ 253 then 1 else 4)

def writeString (s : List UInt16) : Writer Unit := writeByteArray (Utf16.encode s)

/-! ## Readers -/

/-- The stream under a reader: what is left of `inbuf`, and the counter behind `getPosition`. -/
structure In where
  inbuf : List UInt8
  len : BitVec 32 := 0
deriving DecidableEq, Repr

/-- A reader; a call that throws ends with no value. -/
abbrev Reader (α : Type) := In → Option α × In

/-- `in.read()`. -/
def read (s : In) : BitVec 32 × In :=
  match s.inbuf with
  | [] => (-1, s)
  | b :: rest => (BitVec.ofNat 32 b.toNat, { s with inbuf := rest })

/-- `len += n`. -/
def counted (s : In) (n : ℕ) : In := { s with len := s.len + BitVec.ofNat 32 n }

/-- The rounds `j < n` of the loop of `readInt` and `readLong`, on `w` bits. -/
def readWord (w : ℕ) : ℕ → In → BitVec w × In
  | 0, s => (0, s)
  | n + 1, s =>
      let (i, s) := readWord w n s
      let (b, s) := read s
      (i ||| (b.signExtend w <<< (n * 8)), counted s 1)

def readInt (s : In) : BitVec 32 × In := readWord 32 4 s

def readLong (s : In) : BitVec 64 × In := readWord 64 8 s

/-- `readBoolean(exception)`. -/
def readBoolean (exception : Bool) : Reader Bool := fun s =>
  let (constructor, s) := readInt s
  if constructor = 0x997275b5 then (some true, s)
  else if constructor = 0xbc799737 then (some false, s)
  else if exception then (none, s)
  else (some false, s)

/-- `in.read(b)` into a new array of `count` bytes. -/
def fill (count : ℕ) (s : In) : List UInt8 × In :=
  let taken := s.inbuf.take count
  (taken ++ List.replicate (count - taken.length) 0, { s with inbuf := s.inbuf.drop count })

/-- `readData(count, exception)`. -/
def readData (count : ℕ) (s : In) : List UInt8 × In :=
  let (b, s) := fill count s
  (b, counted s count)

/-- `in.read(); len++;`, the value dropped. -/
def skipOne : StateM In Unit := fun s => ((), counted (read s).2 1)

/-- The length of a byte array and the number of bytes that spell it. -/
def readLength (s : In) : (BitVec 32 × ℕ) × In :=
  let (l, s) := read s
  let s := counted s 1
  if (254 : BitVec 32).sle l then
    let (b0, s) := read s
    let (b1, s) := read s
    let (b2, s) := read s
    ((b0 ||| (b1 <<< 8) ||| (b2 <<< 16), 4), counted s 3)
  else ((l, 1), s)

/-- The common body of `readString` and `readByteArray`: nothing is a `NegativeArraySizeException`.
The bytes of the array are counted as one. -/
def readFramed (s : In) : Option (List UInt8) × In :=
  let ((l, sl), s) := readLength s
  if l.slt 0 then (none, s)
  else
    let (b, s) := fill l.toNat s
    let ((), s) := whileUnaligned skipOne l.toNat sl (counted s 1)
    (some b, s)

/-- What a call returns: an exception goes through as one or is swallowed for a null. -/
def orThrow {α : Type} (exception : Bool) (result : Option α × In) : Option (Option α) × In :=
  match result with
  | (some a, s) => (some (some a), s)
  | (none, s) => (if exception then none else some none, s)

/-- `readByteArray(exception)`; the inner nothing is a null. -/
def readByteArray (exception : Bool) : Reader (Option (List UInt8)) := fun s =>
  orThrow exception (readFramed s)

/-- `readString(exception)`. -/
def readString (malformed : List UInt8 → List UInt16) (exception : Bool) :
    Reader (Option (List UInt16)) := fun s =>
  let (b, s) := readFramed s
  orThrow exception (b.map (newString malformed), s)

/-! ## What is written -/

section Writing

variable {o : Out} {data : List UInt8}

/-- The stream with `data` written. -/
def Out.wrote (o : Out) (data : List UInt8) : Out := { o with outbuf := o.outbuf ++ data }

theorem Out.wrote_wrote (more : List UInt8) :
    (o.wrote data).wrote more = o.wrote (data ++ more) := by
  simp only [Out.wrote, List.append_assoc]

theorem emit_wrote (h : o.justCalc = false) : emit data o = ((), o.wrote data) := by
  unfold emit
  exact if_pos (by rw [h]; rfl)

/-- The program writes `data`. -/
def Emits (w : Writer Unit) (data : List UInt8) : Prop := ∀ o : Out, o.justCalc = false →
    w o = ((), o.wrote data)

theorem emits_writeRange {b : List UInt8} {offset count : ℕ} (within : offset + count ≤ b.length) :
    Emits (writeRange b offset count) (slice b offset count) := by
  intro o real
  rw [writeRange, if_pos within, emit_wrote real]

theorem Emits.bind {w w' : Writer Unit} {data more : List UInt8} (first : Emits w data)
    (second : Emits w' more) :
    Emits (w >>= fun _ => w') (data ++ more) := by
  intro o real
  show w' (w o).2 = _
  rw [first o real, second (o.wrote data) real, Out.wrote_wrote]

theorem Emits.toByteArray {w : Writer Unit} {data : List UInt8} (emits : Emits w data) :
    toByteArray w = data := by
  rw [SerializedData.toByteArray, emits {} rfl]
  rfl

theorem shifted_eq (width x : ℕ) : shifted width x = toLE width x := by
  induction width generalizing x with
  | zero => rfl
  | succ width ih =>
    rw [toLE, ← ih, shifted, List.range_succ_eq_map, List.map_cons, List.map_map]
    congr 1
    apply List.map_congr_left
    intro i _
    simp only [Function.comp_apply, Nat.shiftRight_eq_div_pow, Nat.div_div_eq_div_mul]
    congr 2
    rw [Nat.succ_mul, Nat.pow_add, Nat.mul_comm]

theorem lengthBytes_eq (count : ℕ) :
    lengthBytes count = (OutputBuffer.lengthPuts count).flatten := by
  unfold lengthBytes OutputBuffer.lengthPuts
  split_ifs <;> rfl

theorem rounds_emit_zero (n : ℕ) (h : o.justCalc = false) :
    rounds (emit [0]) n o = ((), o.wrote (List.replicate n 0)) := by
  induction n generalizing o with
  | zero => simp [rounds, Out.wrote]; rfl
  | succ n ih =>
    show rounds (emit [0]) n (emit [0] o).2 = _
    rw [emit_wrote h, ih (show (o.wrote [0]).justCalc = false from h), Out.wrote_wrote]
    rfl

theorem writeInt_wrote {x : BitVec 32} (h : o.justCalc = false) :
    writeInt x o = ((), o.wrote (Java.writeInt x)) := by
  rw [writeInt, emit_wrote h, shifted_eq]
  rfl

theorem writeLong_wrote {x : BitVec 64} (h : o.justCalc = false) :
    writeLong x o = ((), o.wrote (Java.writeLong x)) := by
  rw [writeLong, emit_wrote h, shifted_eq]
  rfl

theorem writeBoolean_wrote {value : Bool} (h : o.justCalc = false) :
    writeBoolean value o = ((), o.wrote (Java.writeBoolean value)) := by
  rw [writeBoolean, h]
  cases value
  · exact writeInt_wrote h
  · exact writeInt_wrote h

theorem writeByteArray_wrote (h : o.justCalc = false) :
    writeByteArray data o = ((), o.wrote (Java.writeByteArray data)) := by
  rw [OutputBuffer.writeByteArray_eq, ← lengthBytes_eq]
  generalize hi : (if data.length ≤ 253 then 1 else 4) = i
  show whileUnaligned (emit [0]) data.length (if data.length ≤ 253 then 1 else 4)
    (emit data (emit (lengthBytes data.length) o).2).2 = _
  rw [hi, whileUnaligned_eq, emit_wrote h, emit_wrote (show (o.wrote _).justCalc = false from h),
    rounds_emit_zero _ (show ((o.wrote _).wrote _).justCalc = false from h), Out.wrote_wrote,
    Out.wrote_wrote, List.append_assoc]

end Writing

/-! ## What is read -/

section Reading

variable {s : In} {rest : List UInt8} {n : ℕ}

/-- The stream with `rest` left and the counter moved. -/
def In.left (s : In) (rest : List UInt8) (n : ℕ) : In :=
  { inbuf := rest, len := s.len + BitVec.ofNat 32 n }

theorem read_cons (b : UInt8) (len : BitVec 32) :
    read ⟨b :: rest, len⟩ = (BitVec.ofNat 32 b.toNat, ⟨rest, len⟩) := rfl

theorem ofNat_or_shiftLeft {w n a : ℕ} {b : UInt8} (ha : a < 256 ^ n) (hw : n * 8 + 8 ≤ w) :
    BitVec.ofNat w a ||| (BitVec.ofNat 32 b.toNat).signExtend w <<< (n * 8) =
      BitVec.ofNat w (a + 256 ^ n * b.toNat) := by
  have hb : b.toNat < 256 := b.toNat_lt
  have hpow : (256 : ℕ) ^ n = 2 ^ (n * 8) := by
    rw [Nat.mul_comm, Nat.pow_mul]
  have hext : (BitVec.ofNat 32 b.toNat).signExtend w = BitVec.ofNat w b.toNat := by
    rw [BitVec.signExtend_eq_setWidth_of_msb_false]
    · apply BitVec.eq_of_toNat_eq
      simp only [BitVec.toNat_setWidth, BitVec.toNat_ofNat]
      rw [Nat.mod_eq_of_lt (a := b.toNat) (b := 2 ^ 32) (by omega)]
    · rw [BitVec.msb_eq_decide]
      simp
      omega
  have hle : (b.toNat + 1) * 2 ^ (n * 8) ≤ 2 ^ w := by
    calc (b.toNat + 1) * 2 ^ (n * 8) ≤ 2 ^ 8 * 2 ^ (n * 8) := Nat.mul_le_mul_right _ (by omega)
      _ = 2 ^ (n * 8 + 8) := by rw [Nat.mul_comm, ← Nat.pow_add]
      _ ≤ 2 ^ w := Nat.pow_le_pow_right (by omega) hw
  rw [hpow] at ha ⊢
  rw [Nat.add_mul, Nat.one_mul] at hle
  have hone : b.toNat ≤ b.toNat * 2 ^ (n * 8) := Nat.le_mul_of_pos_right _ (Nat.two_pow_pos _)
  apply BitVec.eq_of_toNat_eq
  rw [hext, BitVec.toNat_or, BitVec.toNat_shiftLeft, BitVec.toNat_ofNat, BitVec.toNat_ofNat,
    BitVec.toNat_ofNat, Nat.mod_eq_of_lt (by omega : a < 2 ^ w),
    Nat.mod_eq_of_lt (by omega : b.toNat < 2 ^ w), Nat.shiftLeft_eq,
    Nat.mod_eq_of_lt (by omega : b.toNat * 2 ^ (n * 8) < 2 ^ w), ← Nat.shiftLeft_eq, Nat.or_comm,
    ← Nat.shiftLeft_add_eq_or_of_lt ha, Nat.shiftLeft_eq, Nat.mul_comm (2 ^ (n * 8)), Nat.add_comm,
    Nat.mod_eq_of_lt (by omega)]

theorem readWord_append {w : ℕ} (bs : List UInt8) (hw : bs.length * 8 ≤ w)
    (h : s.inbuf = bs ++ rest) :
    readWord w bs.length s = (BitVec.ofNat w (leNat bs), s.left rest bs.length) := by
  induction bs using List.reverseRecOn generalizing rest with
  | nil =>
    simp only [List.nil_append] at h
    simp [readWord, leNat, In.left, ← h]
  | append_singleton bs b ih =>
    rw [List.length_append, List.length_singleton] at hw ⊢
    rw [readWord, ih (by omega) (by rw [h, List.append_assoc])]
    simp only [In.left, List.singleton_append, read_cons]
    rw [ofNat_or_shiftLeft (leNat_lt bs) (by omega), leNat_append]
    simp [leNat, counted, BitVec.add_assoc, BitVec.ofNat_add]

theorem or_shiftLeft_bytes (b0 b1 b2 : UInt8) :
    BitVec.ofNat 32 b0.toNat ||| (BitVec.ofNat 32 b1.toNat <<< 8) |||
      (BitVec.ofNat 32 b2.toNat <<< 16) =
      BitVec.ofNat 32 (leNat [b0, b1, b2]) := by
  have h0 : b0.toNat < 256 := b0.toNat_lt
  have h1 : b1.toNat < 256 := b1.toNat_lt
  have htwo := ofNat_or_shiftLeft (w := 32) (n := 1) (a := b0.toNat) (b := b1) (by omega) (by omega)
  have hthree :=
    ofNat_or_shiftLeft (w := 32) (n := 2) (a := b0.toNat + 256 ^ 1 * b1.toNat) (b := b2)
    (by omega) (by omega)
  rw [BitVec.signExtend_eq] at htwo hthree
  rw [htwo, hthree]
  congr 1
  simp only [leNat]
  omega

theorem toInt_ofNat_of_lt {n : ℕ} (h : n < 2 ^ 31) : (BitVec.ofNat 32 n).toInt = n := by
  have hnat : (BitVec.ofNat 32 n).toNat = n := by
    rw [BitVec.toNat_ofNat, Nat.mod_eq_of_lt (by omega)]
  rw [BitVec.toInt_eq_toNat_of_lt (by omega), hnat]

theorem readLength_of_lengthBytes {count : ℕ} (hcount : count < 2 ^ 24)
    (h : s.inbuf = lengthBytes count ++ rest) :
    readLength s = ((BitVec.ofNat 32 count, if count ≤ 253 then 1 else 4),
      s.left rest (if count ≤ 253 then 1 else 4)) := by
  obtain ⟨inbuf, len⟩ := s
  obtain rfl := h
  unfold readLength
  by_cases hshort : count ≤ 253
  · have hnat : (UInt8.ofNat count).toNat = count := by
      rw [UInt8.toNat_ofNat']
      omega
    have hsmall : (254 : BitVec 32).sle (BitVec.ofNat 32 count) = false := by
      rw [BitVec.sle, toInt_ofNat_of_lt (by omega)]
      simp
      omega
    simp only [lengthBytes, if_pos hshort, List.singleton_append, read_cons, hnat, hsmall]
    rfl
  · have hthree : leNat [UInt8.ofNat count, UInt8.ofNat (count >>> 8), UInt8.ofNat (count >>> 16)] =
        count := by
      rw [← toLE_three, leNat_toLE_of_lt (by omega)]
    simp only [lengthBytes, if_neg hshort, List.cons_append, List.nil_append, read_cons, counted,
      or_shiftLeft_bytes, hthree]
    rw [if_pos (by decide)]
    simp [In.left, BitVec.add_assoc]

theorem fill_append (data : List UInt8) (len : BitVec 32) :
    fill data.length ⟨data ++ rest, len⟩ = (data, ⟨rest, len⟩) := by
  simp [fill]

theorem rounds_skipOne (padding : List UInt8) (len : BitVec 32) :
    rounds skipOne padding.length ⟨padding ++ rest, len⟩ =
      ((), ⟨rest, len + BitVec.ofNat 32 padding.length⟩) := by
  induction padding generalizing len with
  | nil => simp [rounds]; rfl
  | cons b padding ih =>
    show rounds skipOne padding.length (skipOne ⟨b :: (padding ++ rest), len⟩).2 = _
    simp only [skipOne, read_cons, counted, ih]
    rw [List.length_cons, Nat.add_comm padding.length, BitVec.ofNat_add, BitVec.add_assoc]

/-- A framed read of what `writeByteArray` wrote.  The counter behind `getPosition` misses the bytes
of the array. -/
theorem readFramed_writeByteArray {data : List UInt8} (hdata : data.length < 2 ^ 24)
    (h : s.inbuf = Java.writeByteArray data ++ rest) :
    ∃ n, readFramed s = (some data, s.left rest n) := by
  rw [OutputBuffer.writeByteArray_eq, ← lengthBytes_eq, List.append_assoc, List.append_assoc] at h
  generalize hi : (if data.length ≤ 253 then 1 else 4) = i at h
  have hnat : (BitVec.ofNat 32 data.length).toNat = data.length := by
    rw [BitVec.toNat_ofNat, Nat.mod_eq_of_lt (by omega)]
  have hpos : (BitVec.ofNat 32 data.length).slt 0 = false := by
    rw [BitVec.slt, toInt_ofNat_of_lt (by omega)]
    simp
  have hrounds := fun len => @rounds_skipOne rest
    (List.replicate (paddingLength (data.length + i)) 0) len
  simp only [List.length_replicate] at hrounds
  refine ⟨i + 1 + paddingLength (data.length + i), ?_⟩
  unfold readFramed
  rw [readLength_of_lengthBytes hdata h]
  simp only [hi, hpos, hnat, In.left, fill_append, counted, whileUnaligned_eq, hrounds]
  simp only [Bool.false_eq_true, if_false, BitVec.ofNat_add, BitVec.add_assoc]

end Reading

end SerializedData

end Mtproto.Java
