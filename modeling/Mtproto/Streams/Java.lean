import Mtproto.Lib.Crash
import Mtproto.Java.Spelling

/-!
# Writing to the Java buffer

The writers of `NativeByteBuffer.java` on a `java.nio.ByteBuffer`, with the `justCalc` mode in which
they only count.  An overflow ends a writer where it stands, and the writer swallows the exception.
-/

namespace Mtproto.Java

open Bytes Lib Lib.Interruptible

/-- A `java.nio.ByteBuffer` in little-endian order: the array, the position and the limit. -/
structure ByteBuffer where
  array : List UInt8
  position : ℕ
  limit : ℕ
deriving DecidableEq, Repr

namespace ByteBuffer

/-- The invariant of a buffer; its capacity is an `int`. -/
structure Wf (b : ByteBuffer) : Prop where
  position_le : b.position ≤ b.limit
  limit_le : b.limit ≤ b.array.length
  length_lt : b.array.length < 2 ^ 31

/-- The bytes before the position. -/
def filled (b : ByteBuffer) : List UInt8 := b.array.take b.position

/-- The buffer with `data` put at its position. -/
def putting (b : ByteBuffer) (data : List UInt8) : ByteBuffer :=
  { b with array := splice b.array b.position data, position := b.position + data.length }

/-- A relative `put`, `putInt` or `putLong`: all or nothing. -/
def put (data : List UInt8) : Interruptible ByteBuffer Unit := do
  let b ← get
  if data.length > b.limit - b.position then crash else modify fun b => b.putting data

end ByteBuffer

/-- A `NativeByteBuffer` that is written to. -/
structure OutputBuffer where
  buffer : ByteBuffer
  justCalc : Bool := false
  len : BitVec 32 := 0
deriving DecidableEq, Repr

namespace OutputBuffer

/-- Runs a `put` on the buffer. -/
def onBuffer (m : Interruptible ByteBuffer Unit) : Interruptible OutputBuffer Unit := fun o =>
  let (done, buffer) := m o.buffer
  (done, { o with buffer := buffer })

/-- `buffer.put(…)` for each of the pieces, or `len += …` when only the size is wanted. -/
def emit (pieces : List (List UInt8)) : Interruptible OutputBuffer Unit := do
  let o ← get
  if !o.justCalc then each (fun data => onBuffer (ByteBuffer.put data)) pieces
  else modify fun o => { o with len := o.len + BitVec.ofNat 32 pieces.flatten.length }

/-- A `try` block whose exception is swallowed. -/
def swallow (m : Interruptible OutputBuffer Unit) (o : OutputBuffer) : OutputBuffer := (m o).2

end OutputBuffer

/-- `while ((count + i) % 4 != 0) { put; i++; }`. -/
def whileUnaligned {m : Type → Type} [Monad m] (put : m Unit) (count i : ℕ) : m Unit :=
  if (count + i) % 4 ≠ 0 then do
    put
    whileUnaligned put count (i + 1)
  else pure ()
termination_by (4 - (count + i) % 4) % 4
decreasing_by omega

namespace OutputBuffer

def writeInt (x : BitVec 32) : OutputBuffer → OutputBuffer := swallow (emit [toLE 4 x.toNat])

def writeLong (x : BitVec 64) : OutputBuffer → OutputBuffer := swallow (emit [toLE 8 x.toNat])

def writeBoolean (value : Bool) (o : OutputBuffer) : OutputBuffer :=
  if !o.justCalc then
    if value then writeInt 0x997275b5 o else writeInt 0xbc799737 o
  else { o with len := o.len + 4 }

def writeBytes (b : List UInt8) : OutputBuffer → OutputBuffer := swallow (emit [b])

def writeByte (b : UInt8) : OutputBuffer → OutputBuffer := swallow (emit [[b]])

/-- The pieces in front of `count` bytes. -/
def lengthPuts (count : ℕ) : List (List UInt8) :=
  if count ≤ 253 then [[UInt8.ofNat count]]
  else [[254], [UInt8.ofNat count], [UInt8.ofNat (count >>> 8)], [UInt8.ofNat (count >>> 16)]]

/-- `writeByteArray`, of a whole array or of a range of one. -/
def writeByteArray (b : List UInt8) : OutputBuffer → OutputBuffer :=
  swallow do
    emit (lengthPuts b.length)
    emit [b]
    whileUnaligned (emit [[0]]) b.length (if b.length ≤ 253 then 1 else 4)

/-- `writeString`, of the code units of a string. -/
def writeString (s : List UInt16) : OutputBuffer → OutputBuffer := writeByteArray (Utf16.encode s)

end OutputBuffer

/-! ## What is written -/

/-- A program a number of times. -/
def rounds {m : Type → Type} [Monad m] (put : m Unit) : ℕ → m Unit
  | 0 => pure ()
  | n + 1 => do
      put
      rounds put n

/-- The rounds of the padding loop. -/
theorem whileUnaligned_eq {m : Type → Type} [Monad m] (put : m Unit) (count i : ℕ) :
    whileUnaligned put count i = rounds put (paddingLength (count + i)) := by
  fun_induction whileUnaligned put count i with
  | case1 i h ih =>
    have hrounds : paddingLength (count + i) = paddingLength (count + (i + 1)) + 1 := by
      unfold paddingLength
      omega
    rw [hrounds, rounds, ih]
  | case2 i h =>
    have hrounds : paddingLength (count + i) = 0 := by
      unfold paddingLength
      omega
    rw [hrounds]
    rfl

namespace OutputBuffer

/-- There is a buffer with room for `n` bytes. -/
structure Room (o : OutputBuffer) (n : ℕ) : Prop where
  real : o.justCalc = false
  wf : o.buffer.Wf
  fits : o.buffer.position + n ≤ o.buffer.limit

/-- The output with `data` written. -/
def wrote (o : OutputBuffer) (data : List UInt8) : OutputBuffer :=
  { o with buffer := o.buffer.putting data }

section Writing

variable {o : OutputBuffer} {data more : List UInt8} {n : ℕ}

theorem Room.position_le_length (h : o.Room n) : o.buffer.position ≤ o.buffer.array.length :=
  h.wf.position_le.trans h.wf.limit_le

theorem Room.wrote (h : o.Room (data.length + n)) : (o.wrote data).Room n := by
  have hfits := h.fits
  have hlimit := h.wf.limit_le
  have hlength : (splice o.buffer.array o.buffer.position data).length = o.buffer.array.length :=
    length_splice (by omega)
  refine ⟨h.real, ⟨?_, ?_, ?_⟩, ?_⟩
  · show o.buffer.position + data.length ≤ o.buffer.limit
    omega
  · show o.buffer.limit ≤ (splice o.buffer.array o.buffer.position data).length
    rwa [hlength]
  · show (splice o.buffer.array o.buffer.position data).length < 2 ^ 31
    rw [hlength]
    exact h.wf.length_lt
  · show o.buffer.position + data.length + n ≤ o.buffer.limit
    omega

theorem Room.mono {m : ℕ} (h : o.Room n) (hm : m ≤ n) : o.Room m :=
  ⟨h.real, h.wf, (Nat.add_le_add_left hm _).trans h.fits⟩

theorem wrote_wrote (h : o.Room n) : (o.wrote data).wrote more = o.wrote (data ++ more) := by
  simp only [OutputBuffer.wrote, ByteBuffer.putting, splice_splice h.position_le_length,
    List.length_append, Nat.add_assoc]

theorem filled_wrote (h : o.Room n) : (o.wrote data).buffer.filled = o.buffer.filled ++ data :=
  take_splice h.position_le_length

theorem wrote_nil : o.wrote [] = o := by
  simp [OutputBuffer.wrote, ByteBuffer.putting]

theorem onBuffer_put (h : o.Room data.length) :
    onBuffer (ByteBuffer.put data) o = (some (), o.wrote data) := by
  have hput : ByteBuffer.put data o.buffer = (some (), o.buffer.putting data) := by
    show (if _ > _ then crash else modify _ : Interruptible ByteBuffer Unit) o.buffer = _
    rw [if_neg (by have := h.fits; omega)]
    rfl
  rw [onBuffer, hput]
  rfl

theorem each_put {pieces : List (List UInt8)} (h : o.Room pieces.flatten.length) :
    each (fun data => onBuffer (ByteBuffer.put data)) pieces o =
      (some (), o.wrote pieces.flatten) := by
  induction pieces generalizing o with
  | nil =>
    rw [List.flatten_nil, wrote_nil]
    rfl
  | cons data pieces ih =>
    rw [List.flatten_cons, List.length_append] at h
    rw [each, bind_of_some (onBuffer_put (h.mono (by omega))), ih h.wrote, wrote_wrote h,
      List.flatten_cons]

theorem emit_wrote (pieces : List (List UInt8)) (h : o.Room pieces.flatten.length) :
    emit pieces o = (some (), o.wrote pieces.flatten) := by
  rw [← each_put h]
  show (if (!o.justCalc) = true then _ else modify _ : Interruptible OutputBuffer Unit) o = _
  rw [h.real]
  rfl

theorem rounds_emit_zero (n : ℕ) (h : o.Room n) :
    rounds (emit [[0]]) n o = (some (), o.wrote (List.replicate n 0)) := by
  induction n generalizing o with
  | zero =>
    rw [List.replicate_zero, wrote_nil]
    rfl
  | succ n ih =>
    have hroom : o.Room ([(0 : UInt8)].length + n) := by rwa [List.length_singleton, Nat.add_comm]
    have hput : emit [[0]] o = (some (), o.wrote [0]) := emit_wrote [[0]] (h.mono (by simp))
    rw [rounds, bind_of_some hput, ih hroom.wrote, wrote_wrote h]
    rfl

theorem swallow_of_some {m : Interruptible OutputBuffer Unit} {o' : OutputBuffer}
    (h : m o = (some (), o')) : swallow m o = o' := by
  rw [swallow, h]

/-- A writer with one piece. -/
theorem swallow_emit (h : o.Room data.length) : swallow (emit [data]) o = o.wrote data := by
  have hemit := emit_wrote [data] (by simpa using h)
  rw [List.flatten_singleton] at hemit
  exact swallow_of_some hemit

theorem writeInt_wrote {x : BitVec 32} (h : o.Room 4) : writeInt x o = o.wrote (Java.writeInt x) :=
  swallow_emit (by rwa [length_toLE])

theorem writeLong_wrote {x : BitVec 64} (h : o.Room 8) :
    writeLong x o = o.wrote (Java.writeLong x) :=
  swallow_emit (by rwa [length_toLE])

theorem writeBytes_wrote (h : o.Room data.length) : writeBytes data o = o.wrote data :=
  swallow_emit h

theorem writeBoolean_wrote {value : Bool} (h : o.Room 4) :
    writeBoolean value o = o.wrote (Java.writeBoolean value) := by
  rw [writeBoolean, h.real]
  cases value
  · exact writeInt_wrote h
  · exact writeInt_wrote h

theorem writeByteArray_eq (b : List UInt8) :
    Java.writeByteArray b = (lengthPuts b.length).flatten ++ b ++
      List.replicate (paddingLength (b.length + if b.length ≤ 253 then 1 else 4)) 0 := by
  unfold Java.writeByteArray lengthPuts
  split_ifs with h
  · rfl
  · rw [toLE_three]
    rfl

theorem writeByteArray_wrote (h : o.Room (Java.writeByteArray data).length) :
    writeByteArray data o = o.wrote (Java.writeByteArray data) := by
  rw [writeByteArray_eq] at h ⊢
  generalize hi : (if data.length ≤ 253 then 1 else 4) = i at h ⊢
  rw [List.length_append, List.length_append, Nat.add_assoc, List.length_replicate] at h
  have hdata : (o.wrote (lengthPuts data.length).flatten).Room
      (data.length + paddingLength (data.length + i)) := h.wrote
  have hhead := emit_wrote _ (h.mono (Nat.le_add_right _ _))
  have hbytes : emit [data] (o.wrote (lengthPuts data.length).flatten) =
      (some (), (o.wrote (lengthPuts data.length).flatten).wrote data) := by
    have := emit_wrote [data] (hdata.mono (by simp))
    rwa [List.flatten_singleton] at this
  apply swallow_of_some
  rw [bind_of_some hhead, bind_of_some hbytes, hi, whileUnaligned_eq,
    rounds_emit_zero _ hdata.wrote, wrote_wrote hdata, wrote_wrote h, List.append_assoc]

end Writing

end OutputBuffer

end Mtproto.Java
