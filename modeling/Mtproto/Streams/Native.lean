import Mtproto.Lib.Crash
import Mtproto.Tgnet.NativeByteBuffer

/-!
# Writing to and reading from the native buffer

The typed writers and readers of `NativeByteBuffer.cpp`.  A writer checks the limit before each
piece it writes and returns early, with the error set, when a piece does not fit; a buffer in
size-calculation mode only counts in `_capacity`.  A reader that fails sets the error, which stays
set, and returns a default.
-/

namespace Mtproto.Tgnet

open Bytes Lib Lib.Interruptible

/-- `_position += n`. -/
def NativeByteBuffer.step (b : NativeByteBuffer) (n : ℕ) : NativeByteBuffer :=
  { b with position := u32 (b.position + n) }

/-! ## Writers -/

/-- A buffer that is written to, with the flag behind the `error` pointer of the calls. -/
structure Output where
  buffer : NativeByteBuffer
  calculateSizeOnly : Bool := false
  error : Bool := false
deriving DecidableEq, Repr

namespace Output

/-- `NativeByteBuffer(true)`, or the size calculator after `clearCapacity`. -/
def calculator : Output := { buffer := .new 0, calculateSizeOnly := true }

/-- A buffer with room, at its front. -/
def fresh (size : ℕ) : Output := { buffer := .new size }

/-- One check and the piece it is for. -/
def piece (data : List UInt8) : Interruptible Output Unit := do
  let o ← get
  if o.calculateSizeOnly then
    modify fun o => { o with buffer.capacity := u32 (o.buffer.capacity + data.length) }
  else if u32 (o.buffer.position + data.length) > o.buffer.limit then crash
  else
    modify fun o => { o with
      buffer := { o.buffer with
        buffer := splice o.buffer.buffer o.buffer.position data
        position := u32 (o.buffer.position + data.length) } }

/-- A call: a check that failed has ended it with the error set. -/
def call (m : Interruptible Output Unit) (o : Output) : Output :=
  match m o with
  | (some _, o) => o
  | (none, o) => { o with error := true }

def writeInt32 (x : BitVec 32) : Output → Output := call (piece (toLE 4 x.toNat))

def writeInt64 (x : BitVec 64) : Output → Output := call (piece (toLE 8 x.toNat))

def writeByte (i : UInt8) : Output → Output := call (piece [i])

/-- `writeBytes` of a range of memory or of a `ByteArray`. -/
def writeBytes (b : List UInt8) : Output → Output := call (piece b)

/-- In size-calculation mode the constructor is not looked at. -/
def writeBool (value : Bool) (o : Output) : Output :=
  if o.calculateSizeOnly then
    { o with buffer.capacity := u32 (o.buffer.capacity + 4) }
  else if value then writeInt32 0x997275b5 o
  else writeInt32 0xbc799737 o

/-- The padding behind `length` bytes with their prefix. -/
def addition (length : ℕ) : ℕ :=
  let addition := u32 (length + if length ≤ 253 then 1 else 4) % 4
  if addition ≠ 0 then 4 - addition else addition

/-- The bytes in front of a byte array. -/
def lengthBytes (length : ℕ) : List UInt8 :=
  if length ≤ 253 then [UInt8.ofNat length]
  else [254, UInt8.ofNat length, UInt8.ofNat (length >>> 8), UInt8.ofNat (length >>> 16)]

theorem lengthBytes_of_gt {length : ℕ} (h : ¬ length ≤ 253) :
    lengthBytes length = [254] ++ toLE 3 length := by
  rw [lengthBytes, if_neg h, toLE_three]
  rfl

/-- The body of `writeByteArray`: the prefix, the bytes and the padding, each with its own check. -/
def byteArray (b : List UInt8) : Interruptible Output Unit := do
  piece (lengthBytes b.length)
  piece b
  piece (List.replicate (addition b.length) 0)

/-- `writeByteArray` of a range of memory or of a `ByteArray`. -/
def writeByteArray (b : List UInt8) : Output → Output := call (byteArray b)

/-- `writeString`; a `std::string` is its bytes. -/
def writeString (s : List UInt8) : Output → Output := writeByteArray s

/-- The bytes of `byteArray`. -/
def framed (b : List UInt8) : List UInt8 :=
  lengthBytes b.length ++ b ++ List.replicate (addition b.length) 0

/-! ### What is written -/

section Writing

/-- There is a store with room for `n` bytes. -/
structure Room (o : Output) (n : ℕ) : Prop where
  real : o.calculateSizeOnly = false
  wf : o.buffer.Wf
  fits : o.buffer.position + n ≤ o.buffer.limit

/-- The output with `data` written. -/
def wrote (o : Output) (data : List UInt8) : Output :=
  { o with
    buffer := { o.buffer with
      buffer := splice o.buffer.buffer o.buffer.position data
      position := o.buffer.position + data.length } }

variable {o : Output} {data more : List UInt8} {n : ℕ}

theorem Room.position_le_length (h : o.Room n) : o.buffer.position ≤ o.buffer.buffer.length := by
  rw [h.wf.length_eq]
  exact h.wf.position_le.trans h.wf.limit_le

theorem Room.wrote (h : o.Room (data.length + n)) : (o.wrote data).Room n := by
  have hfits := h.fits
  have hlimit := h.wf.limit_le
  refine ⟨h.real, ⟨?_, hlimit, ?_, h.wf.capacity_lt⟩, ?_⟩
  · show o.buffer.position + data.length ≤ o.buffer.limit
    omega
  · show (splice o.buffer.buffer o.buffer.position data).length = o.buffer.capacity
    rw [length_splice (by rw [h.wf.length_eq]; omega), h.wf.length_eq]
  · show o.buffer.position + data.length + n ≤ o.buffer.limit
    omega

theorem wrote_wrote (h : o.Room n) : (o.wrote data).wrote more = o.wrote (data ++ more) := by
  simp only [Output.wrote, splice_splice h.position_le_length, List.length_append, Nat.add_assoc]

theorem filled_wrote (h : o.Room n) : (o.wrote data).buffer.filled = o.buffer.filled ++ data :=
  take_splice h.position_le_length

theorem Room.mono {m : ℕ} (h : o.Room n) (hm : m ≤ n) : o.Room m :=
  ⟨h.real, h.wf, (Nat.add_le_add_left hm _).trans h.fits⟩

theorem piece_wrote (h : o.Room data.length) : piece data o = (some (), o.wrote data) := by
  have hfits := h.fits
  have hsum : u32 (o.buffer.position + data.length) = o.buffer.position + data.length :=
    u32_of_lt (by have := h.wf.limit_le; have := h.wf.capacity_lt; omega)
  show (if o.calculateSizeOnly = true then _ else if u32 _ > _ then crash else modify _ :
    Interruptible Output Unit) o = _
  rw [h.real, if_neg Bool.false_ne_true, hsum, if_neg (by omega)]
  simp only [Interruptible.modify, hsum]
  rfl

theorem call_of_some {m : Interruptible Output Unit} {o' : Output} (h : m o = (some (), o')) :
    call m o = o' := by
  rw [call, h]

theorem writeInt32_wrote {x : BitVec 32} (h : o.Room 4) :
    writeInt32 x o = o.wrote (toLE 4 x.toNat) :=
  call_of_some (piece_wrote (by rwa [length_toLE]))

theorem writeInt64_wrote {x : BitVec 64} (h : o.Room 8) :
    writeInt64 x o = o.wrote (toLE 8 x.toNat) :=
  call_of_some (piece_wrote (by rwa [length_toLE]))

theorem writeBytes_wrote (h : o.Room data.length) : writeBytes data o = o.wrote data :=
  call_of_some (piece_wrote h)

theorem writeBool_wrote {value : Bool} (h : o.Room 4) :
    writeBool value o = o.wrote (toLE 4 (if value then 0x997275b5 else 0xbc799737)) := by
  rw [writeBool, h.real, if_neg Bool.false_ne_true]
  cases value
  · exact writeInt32_wrote h
  · exact writeInt32_wrote h

theorem byteArray_wrote (h : o.Room (framed data).length) :
    byteArray data o = (some (), o.wrote (framed data)) := by
  unfold framed at h ⊢
  rw [List.length_append, List.length_append, Nat.add_assoc] at h
  have hdata : (o.wrote (lengthBytes data.length)).Room
      (data.length + (List.replicate (addition data.length) (0 : UInt8)).length) := h.wrote
  unfold byteArray
  rw [bind_of_some (piece_wrote (h.mono (by omega))),
    bind_of_some (piece_wrote (hdata.mono (by omega))), piece_wrote hdata.wrote,
    wrote_wrote hdata, wrote_wrote h, List.append_assoc]

theorem writeByteArray_wrote (h : o.Room (framed data).length) :
    writeByteArray data o = o.wrote (framed data) :=
  call_of_some (byteArray_wrote h)

/-! ### What is counted -/

/-- The output with `n` bytes counted. -/
def counted (o : Output) (n : ℕ) : Output :=
  { o with buffer.capacity := u32 (o.buffer.capacity + n) }

theorem counted_counted (o : Output) (m n : ℕ) : (o.counted m).counted n = o.counted (m + n) := by
  have hmod : (o.buffer.capacity + m) % 2 ^ 32 % 2 ^ 32 = (o.buffer.capacity + m) % 2 ^ 32 :=
    Nat.mod_mod _ _
  simp only [counted, u32]
  rw [Nat.add_mod, hmod, ← Nat.add_mod, Nat.add_assoc]

theorem counted_zero (h : o.buffer.capacity < 2 ^ 32) : o.counted 0 = o := by
  rw [counted, Nat.add_zero, u32_of_lt h]

theorem piece_counted (h : o.calculateSizeOnly = true) :
    piece data o = (some (), o.counted data.length) := by
  show (if o.calculateSizeOnly = true then modify _ else _ : Interruptible Output Unit) o = _
  rw [if_pos h]
  rfl

theorem writeInt32_counted {x : BitVec 32} (h : o.calculateSizeOnly = true) :
    writeInt32 x o = o.counted 4 := by
  rw [← length_toLE 4 x.toNat]
  exact call_of_some (piece_counted h)

theorem writeInt64_counted {x : BitVec 64} (h : o.calculateSizeOnly = true) :
    writeInt64 x o = o.counted 8 := by
  rw [← length_toLE 8 x.toNat]
  exact call_of_some (piece_counted h)

theorem writeBytes_counted (h : o.calculateSizeOnly = true) :
    writeBytes data o = o.counted data.length :=
  call_of_some (piece_counted h)

theorem writeBool_counted {value : Bool} (h : o.calculateSizeOnly = true) :
    writeBool value o = o.counted 4 :=
  if_pos h

theorem writeByteArray_counted (h : o.calculateSizeOnly = true) :
    writeByteArray data o = o.counted (framed data).length := by
  have hfirst : (o.counted (lengthBytes data.length).length).calculateSizeOnly = true := h
  have hsecond :
      ((o.counted (lengthBytes data.length).length).counted data.length).calculateSizeOnly =
      true := h
  apply call_of_some
  unfold byteArray
  rw [bind_of_some (piece_counted h), bind_of_some (piece_counted hfirst), piece_counted hsecond,
    counted_counted, counted_counted]
  simp only [framed, List.length_append, Nat.add_assoc]

end Writing

end Output

/-! ## Readers -/

/-- A buffer that is read from, with the flag behind the `error` pointer of the calls. -/
structure Input where
  buffer : NativeByteBuffer
  error : Bool := false
deriving DecidableEq, Repr

/-- A reader. -/
abbrev Reader (α : Type) := StateM Input α

namespace Input

/-- Sets the error. -/
def failed (s : Input) : Input := { s with error := true }

/-- `_position += n`. -/
def step (s : Input) (n : ℕ) : Input := { s with buffer := s.buffer.step n }

/-- The `n` bytes from the position on. -/
def ahead (s : Input) (n : ℕ) : List UInt8 := (s.buffer.buffer.drop s.buffer.position).take n

/-- The readers of a word: nothing is read when it does not fit. -/
def word (width : ℕ) : Reader ℕ := fun s =>
  if u32 (s.buffer.position + width) > s.buffer.limit then (0, s.failed)
  else (leNat (s.ahead width), s.step width)

def readInt32 : Reader (BitVec 32) := fun s =>
  let (x, s) := word 4 s
  (BitVec.ofNat 32 x, s)

def readInt64 : Reader (BitVec 64) := fun s =>
  let (x, s) := word 8 s
  (BitVec.ofNat 64 x, s)

def readByte : Reader UInt8 := fun s =>
  let (x, s) := word 1 s
  (UInt8.ofNat x, s)

def readBool : Reader Bool := fun s =>
  let (constructor, s) := readInt32 s
  if constructor = 0x997275b5 then (true, s)
  else if constructor = 0xbc799737 then (false, s)
  else (false, s.failed)

/-- `readBytes`; nothing stands for the null pointer. -/
def readBytes (length : ℕ) : Reader (Option (List UInt8)) := fun s =>
  if length > s.buffer.remaining then (none, s.failed)
  else (some (s.ahead length), s.step length)

/-- The second half of a framed read: `l` bytes after a prefix of `sl` bytes.  The result is where
they are and how many. -/
def frameBody (l sl : ℕ) : Reader (Option (ℕ × ℕ)) := fun s =>
  let addition := u32 (l + sl) % 4
  let addition := if addition ≠ 0 then 4 - addition else addition
  if u32 (s.buffer.position + l + addition) > s.buffer.limit then (none, s.failed)
  else (some (s.buffer.position, l), s.step (l + addition))

/-- The common body of `readString`, `readByteArray` and `readByteBuffer`. -/
def frame : Reader (Option (ℕ × ℕ)) := fun s =>
  if u32 (s.buffer.position + 1) > s.buffer.limit then (none, s.failed)
  else
    let l := leNat (s.ahead 1)
    let s := s.step 1
    if l ≥ 254 then
      if u32 (s.buffer.position + 3) > s.buffer.limit then (none, s.failed)
      else frameBody (leNat (s.ahead 3)) 4 (s.step 3)
    else frameBody l 1 s

/-- The bytes of a range of the buffer. -/
def range (s : Input) (r : ℕ × ℕ) : List UInt8 := (s.buffer.buffer.drop r.1).take r.2

def readByteArray : Reader (Option (List UInt8)) := fun s =>
  let (found, t) := frame s
  (found.map s.range, t)

def readString : Reader (List UInt8) := fun s =>
  let (found, t) := frame s
  ((found.map s.range).getD [], t)

/-! ### What is read -/

section Reading

/-- The input after `n` bytes. -/
def advance (s : Input) (n : ℕ) : Input := { s with buffer := s.buffer.advance n }

variable {s : Input} {data rest : List UInt8} {n : ℕ}

theorem advance_advance (m : ℕ) : (s.advance m).advance n = s.advance (m + n) := by
  simp only [advance, NativeByteBuffer.advance_advance]

/-- The bytes that are there, with what follows. -/
structure Ahead (s : Input) (data rest : List UInt8) : Prop where
  wf : s.buffer.Wf
  unread : s.buffer.unread = data ++ rest

theorem Ahead.length_le (h : s.Ahead data rest) : data.length ≤ s.buffer.unread.length := by
  simp [h.unread]

theorem Ahead.split {more : List UInt8} (h : s.Ahead (data ++ more) rest) :
    s.Ahead data (more ++ rest) :=
  ⟨h.wf, by rw [h.unread, List.append_assoc]⟩

/-- What follows is next. -/
theorem Ahead.next {more : List UInt8} (h : s.Ahead data (more ++ rest)) :
    (s.advance data.length).Ahead more rest := by
  refine ⟨h.wf.advance h.length_le, ?_⟩
  show (s.buffer.advance data.length).unread = more ++ rest
  rw [NativeByteBuffer.unread_advance, h.unread, List.drop_left]

theorem Ahead.fits (h : s.Ahead data rest) :
    u32 (s.buffer.position + data.length) = s.buffer.position + data.length ∧
      s.buffer.position + data.length ≤ s.buffer.limit := by
  have hle := h.length_le
  refine ⟨NativeByteBuffer.u32_position_add h.wf hle, ?_⟩
  rw [NativeByteBuffer.length_unread h.wf] at hle
  have := h.wf.position_le
  omega

theorem Ahead.ahead (h : s.Ahead data rest) : s.ahead data.length = data := by
  have hle := h.length_le
  rw [NativeByteBuffer.length_unread h.wf] at hle
  rw [Input.ahead, NativeByteBuffer.take_drop_position _ hle, h.unread, List.take_left]

theorem Ahead.step (h : s.Ahead data rest) : s.step data.length = s.advance data.length := by
  simp only [Input.step, NativeByteBuffer.step, h.fits.1]
  rfl

theorem Ahead.word (h : s.Ahead data rest) :
    word data.length s = (leNat data, s.advance data.length) := by
  obtain ⟨hsum, hle⟩ := h.fits
  rw [Input.word, hsum, if_neg (by omega), h.ahead, h.step]

theorem readInt32_of_ahead {x : BitVec 32} (h : s.Ahead (toLE 4 x.toNat) rest) :
    readInt32 s = (x, s.advance 4) := by
  have hword := h.word
  rw [length_toLE] at hword
  rw [readInt32, hword, leNat_toLE_of_lt (by simpa using x.isLt)]
  simp

theorem readInt64_of_ahead {x : BitVec 64} (h : s.Ahead (toLE 8 x.toNat) rest) :
    readInt64 s = (x, s.advance 8) := by
  have hword := h.word
  rw [length_toLE] at hword
  rw [readInt64, hword, leNat_toLE_of_lt (by simpa using x.isLt)]
  simp

theorem readBool_of_ahead {value : Bool}
    (h : s.Ahead (toLE 4 (if value then 0x997275b5 else 0xbc799737)) rest) :
    readBool s = (value, s.advance 4) := by
  unfold readBool
  cases value with
  | true =>
      rw [readInt32_of_ahead (x := 0x997275b5) h]
      exact if_pos rfl
  | false =>
      rw [readInt32_of_ahead (x := 0xbc799737) h]
      exact (if_neg (by decide)).trans (if_pos rfl)

theorem readBytes_of_ahead (h : s.Ahead data rest) :
    readBytes data.length s = (some data, s.advance data.length) := by
  rw [readBytes, NativeByteBuffer.remaining_eq h.wf, if_neg (Nat.not_lt.2 h.length_le), h.ahead,
    h.step]

/-- The bytes of a frame behind its prefix. -/
theorem frameBody_of_ahead {padding : List UInt8} {sl : ℕ} (h : s.Ahead (data ++ padding) rest)
    (hpadding : padding.length =
      if u32 (data.length + sl) % 4 ≠ 0 then 4 - u32 (data.length + sl) % 4
      else u32 (data.length + sl) % 4) :
    frameBody data.length sl s =
      (some (s.buffer.position, data.length), s.advance (data ++ padding).length) := by
  obtain ⟨hsum, hle⟩ := h.fits
  unfold frameBody
  simp only [← hpadding]
  rw [Nat.add_assoc, ← List.length_append, hsum, if_neg (by omega), h.step]

/-- A framed read of what `writeByteArray` wrote. -/
theorem frame_of_ahead (h : s.Ahead (Output.framed data) rest) (hdata : data.length < 2 ^ 24) :
    frame s = (some (s.buffer.position + (Output.lengthBytes data.length).length, data.length),
      s.advance (Output.framed data).length) := by
  have hbody : s.Ahead (Output.lengthBytes data.length)
      ((data ++ List.replicate (Output.addition data.length) 0) ++ rest) := by
    rw [Output.framed, List.append_assoc] at h
    exact h.split
  have hlength : (Output.framed data).length = (Output.lengthBytes data.length).length +
      (data ++ List.replicate (Output.addition data.length) (0 : UInt8)).length := by
    simp only [Output.framed, List.length_append, Nat.add_assoc]
  rw [hlength]
  unfold frame
  by_cases hshort : data.length ≤ 253
  · have hbytes : Output.lengthBytes data.length = [UInt8.ofNat data.length] := if_pos hshort
    have hl : leNat [UInt8.ofNat data.length] = data.length := by
      simp only [leNat, UInt8.toNat_ofNat']
      omega
    rw [hbytes] at hbody ⊢
    obtain ⟨hsum, hle⟩ := hbody.fits
    have hahead := hbody.ahead
    have hstep := hbody.step
    have hnext := hbody.next
    rw [List.length_singleton] at hsum hle hahead hstep hnext ⊢
    rw [hsum, if_neg (by omega), hahead, hstep, hl]
    simp only
    rw [if_neg (by omega), frameBody_of_ahead hnext, advance_advance]
    · rfl
    · simp only [List.length_replicate, Output.addition, if_pos hshort]
  · have hl : leNat (toLE 3 data.length) = data.length := leNat_toLE_of_lt (by omega)
    rw [Output.lengthBytes_of_gt hshort] at hbody
    replace hbody := hbody.split
    rw [Output.lengthBytes_of_gt hshort, List.length_append, length_toLE, List.length_singleton]
    obtain ⟨hsum, hle⟩ := hbody.fits
    have hahead := hbody.ahead
    have hstep := hbody.step
    have hthree := hbody.next
    rw [List.length_singleton] at hsum hle hahead hstep hthree
    obtain ⟨hsum', hle'⟩ := hthree.fits
    have hahead' := hthree.ahead
    have hstep' := hthree.step
    have hnext := hthree.next
    rw [length_toLE] at hsum' hle' hahead' hstep' hnext
    rw [hsum, if_neg (by omega), hahead, hstep]
    simp only
    rw [if_pos (by decide), hsum', if_neg (by omega), hahead', hstep', hl, frameBody_of_ahead hnext,
      advance_advance, advance_advance]
    · rfl
    · simp only [List.length_replicate, Output.addition, if_neg hshort]

theorem range_of_ahead (h : s.Ahead (Output.framed data) rest) :
    s.range (s.buffer.position + (Output.lengthBytes data.length).length, data.length) = data := by
  rw [Output.framed, List.append_assoc] at h
  exact h.split.next.split.ahead

theorem readByteArray_of_ahead (h : s.Ahead (Output.framed data) rest)
    (hdata : data.length < 2 ^ 24) :
    readByteArray s = (some data, s.advance (Output.framed data).length) := by
  rw [readByteArray, frame_of_ahead h hdata]
  simp only [Option.map_some, range_of_ahead h]

theorem readString_of_ahead (h : s.Ahead (Output.framed data) rest) (hdata : data.length < 2 ^ 24) :
    readString s = (data, s.advance (Output.framed data).length) := by
  rw [readString, frame_of_ahead h hdata]
  simp only [Option.map_some, range_of_ahead h, Option.getD_some]

end Reading

end Input

end Mtproto.Tgnet
