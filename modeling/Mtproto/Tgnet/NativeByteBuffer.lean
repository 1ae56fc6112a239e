import Mtproto.Lib.Bytes

/-!
# The native byte buffer

`NativeByteBuffer.cpp` as explicit state passing: the backing store, the position, the limit and
the capacity.  Positions and lengths are `uint32_t` in the source, so every sum is taken modulo
`2 ^ 32` (`u32`), and a call the source ignores returns the buffer unchanged.  The predicate
`Wf` is what every constructor establishes; under it the sums do not wrap and the operations have
their plain meaning on the two views `filled` (the bytes before the position) and `unread` (the
bytes between the position and the limit).
-/

namespace Mtproto.Tgnet

open Bytes

/-- `uint32_t` arithmetic. -/
def u32 (n : ℕ) : ℕ := n % 2 ^ 32

theorem u32_of_lt {n : ℕ} (h : n < 2 ^ 32) : u32 n = n := Nat.mod_eq_of_lt h

/-- A buffer that is not in size-calculation mode. -/
structure NativeByteBuffer where
  buffer : List UInt8
  position : ℕ
  limit : ℕ
  capacity : ℕ
  deriving DecidableEq, Repr

namespace NativeByteBuffer

/-! ## Operations -/

/-- `NativeByteBuffer(uint32_t size)`; the fresh store reads as zeros. -/
def new (size : ℕ) : NativeByteBuffer := ⟨List.replicate size 0, 0, size, size⟩

/-- `NativeByteBuffer(uint8_t *buff, uint32_t length)`: a buffer over existing bytes. -/
def sliced (bytes : List UInt8) : NativeByteBuffer := ⟨bytes, 0, bytes.length, bytes.length⟩

/-- `position(uint32_t)`. -/
def setPosition (b : NativeByteBuffer) (position : ℕ) : NativeByteBuffer :=
  if position > b.limit then b else { b with position := position }

/-- `limit(uint32_t)`. -/
def setLimit (b : NativeByteBuffer) (limit : ℕ) : NativeByteBuffer :=
  if limit > b.capacity then b
  else { b with position := if b.position > limit then limit else b.position, limit := limit }

/-- `remaining()`, the difference of two `uint32_t`. -/
def remaining (b : NativeByteBuffer) : ℕ := u32 (b.limit + 2 ^ 32 - b.position)

/-- `hasRemaining()`. -/
def hasRemaining (b : NativeByteBuffer) : Bool := b.position < b.limit

/-- `rewind()`. -/
def rewind (b : NativeByteBuffer) : NativeByteBuffer := { b with position := 0 }

/-- `clear()`. -/
def clear (b : NativeByteBuffer) : NativeByteBuffer := { b with position := 0, limit := b.capacity }

/-- `flip()`. -/
def flip (b : NativeByteBuffer) : NativeByteBuffer := { b with position := 0, limit := b.position }

/-- `compact()`: the unread bytes move to the front, the limit to the capacity. -/
def compact (b : NativeByteBuffer) : NativeByteBuffer :=
  if b.position = b.limit then b
  else
    { b with
      buffer := splice b.buffer 0 ((b.buffer.drop b.position).take (b.limit - b.position))
      position := u32 (b.limit + 2 ^ 32 - b.position)
      limit := b.capacity }

/-- `writeBytes(NativeByteBuffer *)`: appends the unread bytes of `src` and moves `src` to its
limit.  When they do not fit, neither buffer changes. -/
def writeBytes (b src : NativeByteBuffer) : NativeByteBuffer × NativeByteBuffer :=
  let length := u32 (src.limit + 2 ^ 32 - src.position)
  if length = 0 then (b, src)
  else if u32 (b.position + length) > b.limit then (b, src)
  else
    ({ b with
        buffer := splice b.buffer b.position ((src.buffer.drop src.position).take length)
        position := u32 (b.position + length) },
      src.setPosition src.limit)

/-- `writeBytes(uint8_t *, uint32_t offset, uint32_t length)`. -/
def writeBytesFrom (b : NativeByteBuffer) (bytes : List UInt8) (offset length : ℕ) :
    NativeByteBuffer :=
  if u32 (b.position + length) > b.limit then b
  else
    { b with
      buffer := splice b.buffer b.position ((bytes.drop offset).take length)
      position := u32 (b.position + length) }

/-- `readByte(nullptr)`. -/
def readByte (b : NativeByteBuffer) : UInt8 × NativeByteBuffer :=
  if u32 (b.position + 1) > b.limit then (0, b)
  else ((b.buffer.drop b.position).headD 0, { b with position := u32 (b.position + 1) })

/-- `readUint32(nullptr)`, the bit pattern of `readInt32`. -/
def readUint32 (b : NativeByteBuffer) : ℕ × NativeByteBuffer :=
  if u32 (b.position + 4) > b.limit then (0, b)
  else (leNat ((b.buffer.drop b.position).take 4), { b with position := u32 (b.position + 4) })

/-- `readBigInt32(nullptr)`, as a bit pattern. -/
def readBigInt32 (b : NativeByteBuffer) : ℕ × NativeByteBuffer :=
  if u32 (b.position + 4) > b.limit then (0, b)
  else (beNat ((b.buffer.drop b.position).take 4), { b with position := u32 (b.position + 4) })

/-! ## Well-formed buffers and their views -/

/-- The invariant of a buffer that owns `capacity` bytes. -/
structure Wf (b : NativeByteBuffer) : Prop where
  position_le : b.position ≤ b.limit
  limit_le : b.limit ≤ b.capacity
  length_eq : b.buffer.length = b.capacity
  capacity_lt : b.capacity < 2 ^ 32

/-- The bytes before the position. -/
def filled (b : NativeByteBuffer) : List UInt8 := b.buffer.take b.position

/-- The bytes between the position and the limit. -/
def unread (b : NativeByteBuffer) : List UInt8 :=
  (b.buffer.drop b.position).take (b.limit - b.position)

theorem wf_new {size : ℕ} (h : size < 2 ^ 32) : (new size).Wf :=
  ⟨Nat.zero_le _, le_rfl, by simp [new], h⟩

theorem wf_sliced {bytes : List UInt8} (h : bytes.length < 2 ^ 32) : (sliced bytes).Wf :=
  ⟨Nat.zero_le _, le_rfl, rfl, h⟩

@[simp] theorem unread_sliced (bytes : List UInt8) : (sliced bytes).unread = bytes := by
  simp [sliced, unread]

section Views

variable {b : NativeByteBuffer}

theorem length_filled (h : b.Wf) : b.filled.length = b.position := by
  have := h.position_le
  have := h.limit_le
  rw [filled, List.length_take, h.length_eq]
  omega

theorem length_unread (h : b.Wf) : b.unread.length = b.limit - b.position := by
  have := h.limit_le
  rw [unread, List.length_take, List.length_drop, h.length_eq]
  omega

theorem take_limit (h : b.Wf) : b.buffer.take b.limit = b.filled ++ b.unread := by
  have hsum : b.limit = b.position + (b.limit - b.position) := by have := h.position_le; omega
  rw [filled, unread, ← List.take_add, ← hsum]

theorem remaining_eq (h : b.Wf) : b.remaining = b.unread.length := by
  have := h.position_le
  have := h.limit_le
  have := h.capacity_lt
  rw [length_unread h, remaining, u32]
  omega

theorem hasRemaining_iff (h : b.Wf) : b.hasRemaining = true ↔ b.unread ≠ [] := by
  have hlen := length_unread h
  rw [hasRemaining, decide_eq_true_eq, ← List.length_pos_iff]
  omega

theorem unread_eq_nil_iff (h : b.Wf) : b.unread = [] ↔ b.position = b.limit := by
  have hlen := length_unread h
  have := h.position_le
  rw [← List.length_eq_zero_iff]
  omega

/-- The buffer after `n` unread bytes have been consumed. -/
def advance (b : NativeByteBuffer) (n : ℕ) : NativeByteBuffer :=
  { b with position := b.position + n }

@[simp] theorem advance_zero : b.advance 0 = b := rfl

theorem advance_advance (m n : ℕ) : (b.advance m).advance n = b.advance (m + n) := by
  simp only [advance, Nat.add_assoc]

@[simp] theorem advance_capacity (n : ℕ) : (b.advance n).capacity = b.capacity := rfl

@[simp] theorem advance_position (n : ℕ) : (b.advance n).position = b.position + n := rfl

theorem Wf.advance (h : b.Wf) {n : ℕ} (hn : n ≤ b.unread.length) : (b.advance n).Wf := by
  rw [length_unread h] at hn
  have := h.position_le
  exact ⟨by simp only [NativeByteBuffer.advance]; omega, h.limit_le, h.length_eq, h.capacity_lt⟩

theorem unread_advance (b : NativeByteBuffer) (n : ℕ) : (b.advance n).unread = b.unread.drop n := by
  simp only [unread, advance, List.drop_take, List.drop_drop]
  congr 1
  omega

theorem filled_advance (h : b.Wf) {n : ℕ} (hn : n ≤ b.unread.length) :
    (b.advance n).filled = b.filled ++ b.unread.take n := by
  rw [length_unread h] at hn
  simp only [filled, advance, unread, List.take_take, List.take_add, Nat.min_eq_left hn]

theorem take_drop_position (n : ℕ) (hn : n ≤ b.limit - b.position) :
    (b.buffer.drop b.position).take n = b.unread.take n := by
  rw [unread, List.take_take, Nat.min_eq_left hn]

/-- Inside the limit no `uint32_t` sum wraps. -/
theorem u32_position_add (h : b.Wf) {n : ℕ} (hn : n ≤ b.unread.length) :
    u32 (b.position + n) = b.position + n := by
  rw [length_unread h] at hn
  have := h.position_le
  have := h.limit_le
  have := h.capacity_lt
  exact u32_of_lt (by omega)

theorem setPosition_position_advance (h : b.Wf) (n : ℕ) :
    (b.advance n).setPosition b.position = b := by
  exact if_neg (Nat.not_lt.2 h.position_le)

theorem readByte_eq (h : b.Wf) {x : UInt8} {t : List UInt8} (hu : b.unread = x :: t) :
    b.readByte = (x, b.advance 1) := by
  have hlen : 1 ≤ b.unread.length := by simp [hu]
  have hhead : (b.buffer.drop b.position).headD 0 = x := by
    have := take_drop_position 1 (by rw [length_unread h] at hlen; exact hlen)
    rw [hu] at this
    rcases hd : b.buffer.drop b.position with _ | ⟨y, ys⟩
    · simp [hd] at this
    · simpa [hd] using this
  rw [readByte, u32_position_add h hlen, if_neg, hhead]
  · rfl
  · rw [length_unread h] at hlen
    omega

theorem readUint32_eq (h : b.Wf) (hlen : 4 ≤ b.unread.length) :
    b.readUint32 = (leNat (b.unread.take 4), b.advance 4) := by
  rw [readUint32, u32_position_add h hlen]
  rw [length_unread h] at hlen
  rw [if_neg (by omega), take_drop_position 4 hlen]
  rfl

theorem readBigInt32_eq (h : b.Wf) (hlen : 4 ≤ b.unread.length) :
    b.readBigInt32 = (beNat (b.unread.take 4), b.advance 4) := by
  rw [readBigInt32, u32_position_add h hlen]
  rw [length_unread h] at hlen
  rw [if_neg (by omega), take_drop_position 4 hlen]
  rfl

/-- Narrowing the limit to the next `n` bytes leaves exactly these unread. -/
theorem setLimit_packet (h : b.Wf) {n : ℕ} (hn : n ≤ b.unread.length) :
    b.setLimit (b.position + n) = { b with limit := b.position + n } := by
  rw [length_unread h] at hn
  have := h.position_le
  have := h.limit_le
  rw [setLimit, if_neg (by omega), if_neg (by omega)]

theorem unread_setLimit_packet (h : b.Wf) {n : ℕ} (hn : n ≤ b.unread.length) :
    (b.setLimit (b.position + n)).unread = b.unread.take n := by
  rw [setLimit_packet h hn]
  rw [length_unread h] at hn
  simp only [unread, List.take_take, Nat.min_eq_left hn]
  congr 1
  omega

/-- Reading a packet through a narrowed limit consumes exactly the packet. -/
theorem restore_limit_packet (h : b.Wf) {n : ℕ} (hn : n ≤ b.unread.length) :
    ((b.setLimit (b.position + n)).setPosition (b.setLimit (b.position + n)).limit).setLimit
      b.limit =
      b.advance n := by
  rw [setLimit_packet h hn]
  rw [length_unread h] at hn
  have := h.position_le
  have := h.limit_le
  rw [setPosition, if_neg (lt_irrefl _), setLimit, if_neg (by simp only; omega)]
  simp only [advance, gt_iff_lt]
  rw [if_neg (by omega)]

theorem rewind_wf (h : b.Wf) : b.rewind.Wf :=
  ⟨Nat.zero_le _, h.limit_le, h.length_eq, h.capacity_lt⟩

@[simp] theorem rewind_capacity : b.rewind.capacity = b.capacity := rfl

@[simp] theorem rewind_limit : b.rewind.limit = b.limit := rfl

@[simp] theorem rewind_position : b.rewind.position = 0 := rfl

theorem unread_rewind (h : b.Wf) : b.rewind.unread = b.filled ++ b.unread := by
  rw [← take_limit h]
  simp [unread, rewind]

@[simp] theorem filled_rewind : b.rewind.filled = [] := rfl

theorem Wf.clear (h : b.Wf) : b.clear.Wf := ⟨Nat.zero_le _, le_rfl, h.length_eq, h.capacity_lt⟩

@[simp] theorem filled_clear : b.clear.filled = [] := rfl

theorem Wf.flip (h : b.Wf) : b.flip.Wf :=
  ⟨Nat.zero_le _, h.position_le.trans h.limit_le, h.length_eq, h.capacity_lt⟩

theorem unread_flip (b : NativeByteBuffer) : b.flip.unread = b.filled := rfl

/-! ## Appending to a buffer -/

theorem writeBytesFrom_eq {src : NativeByteBuffer} {n : ℕ} (h : b.Wf) (hs : src.Wf)
    (hn : n ≤ src.unread.length)
    (hfit : b.position + n ≤ b.limit) :
    (b.writeBytesFrom src.buffer src.position n).Wf ∧
      (b.writeBytesFrom src.buffer src.position n).filled = b.filled ++ src.unread.take n ∧
      (b.writeBytesFrom src.buffer src.position n).limit = b.limit := by
  have hpos := h.position_le
  have hlim := h.limit_le
  have hcap := h.capacity_lt
  have hsum : u32 (b.position + n) = b.position + n := u32_of_lt (by omega)
  have hsrc : (src.buffer.drop src.position).take n = src.unread.take n :=
    take_drop_position n (by rwa [← length_unread hs])
  have hlen : (src.unread.take n).length = n := by
    rw [List.length_take]
    omega
  rw [writeBytesFrom, hsum, if_neg (by omega), hsrc]
  refine ⟨⟨hfit, hlim, ?_, hcap⟩, ?_, rfl⟩
  · rw [length_splice (by rw [h.length_eq]; omega)]
    exact h.length_eq
  · have hsplice :=
      @take_splice b.buffer (src.unread.take n) b.position (by rw [h.length_eq]; omega)
    rwa [hlen] at hsplice


theorem writeBytes_eq {src : NativeByteBuffer} (h : b.Wf) (hs : src.Wf)
    (hfit : b.position + src.unread.length ≤ b.limit) :
    (b.writeBytes src).2 = src.advance src.unread.length ∧
      (b.writeBytes src).1.Wf ∧
      (b.writeBytes src).1.filled = b.filled ++ src.unread ∧
      (b.writeBytes src).1.position = b.position + src.unread.length ∧
      (b.writeBytes src).1.limit = b.limit ∧
      (b.writeBytes src).1.capacity = b.capacity := by
  have hlength : u32 (src.limit + 2 ^ 32 - src.position) = src.unread.length := by
    rw [← remaining_eq hs, remaining]
  have hpos := h.position_le
  have hlim := h.limit_le
  have hcap := h.capacity_lt
  have hsp := hs.position_le
  have hlen := length_unread hs
  have hsum : u32 (b.position + src.unread.length) = b.position + src.unread.length :=
    u32_of_lt (by omega)
  unfold writeBytes
  simp only [hlength]
  split_ifs with h0 h1
  · refine ⟨by rw [h0]; rfl, h, ?_, by rw [h0]; rfl, rfl, rfl⟩
    rw [List.length_eq_zero_iff.1 h0, List.append_nil]
  · exact absurd h1 (by rw [hsum]; omega)
  · have hsrc : (src.buffer.drop src.position).take src.unread.length = src.unread := by
      rw [take_drop_position _ (by omega), List.take_length]
    rw [hsrc]
    refine ⟨?_, ⟨?_, hlim, ?_, hcap⟩, ?_, ?_, rfl, rfl⟩
    · have hsl : src.limit = src.position + src.unread.length := by omega
      rw [setPosition, if_neg (lt_irrefl _), advance, ← hsl]
    · simp only [hsum]
      omega
    · rw [length_splice (by rw [h.length_eq]; omega)]
      exact h.length_eq
    · simp only [filled, hsum]
      exact take_splice (by rw [h.length_eq]; omega)
    · exact hsum

/-- Moving the unread bytes of a partly read buffer to its front. -/
theorem compact_eq (h : b.Wf) (hne : b.unread ≠ []) :
    ((b.compact.setLimit b.compact.position).setPosition 0).Wf ∧
      ((b.compact.setLimit b.compact.position).setPosition 0).unread = b.unread ∧
      ((b.compact.setLimit b.compact.position).setPosition 0).position = 0 ∧
      ((b.compact.setLimit b.compact.position).setPosition 0).capacity = b.capacity := by
  have hpos := h.position_le
  have hlim := h.limit_le
  have hcap := h.capacity_lt
  have hlen := length_unread h
  have hnot : b.position ≠ b.limit := fun e => hne ((unread_eq_nil_iff h).2 e)
  have hsub : u32 (b.limit + 2 ^ 32 - b.position) = b.unread.length := by
    rw [← remaining_eq h, remaining]
  have hsrc : (b.buffer.drop b.position).take (b.limit - b.position) = b.unread := rfl
  have hcompact : b.compact =
      { b with buffer := splice b.buffer 0 b.unread, position := b.unread.length,
               limit := b.capacity } := by
    rw [compact, if_neg hnot, hsrc, hsub]
  have hfront : (b.compact.setLimit b.compact.position).setPosition 0 =
      { b with buffer := splice b.buffer 0 b.unread, position := 0, limit := b.unread.length } := by
    rw [hcompact, setLimit, if_neg (Nat.not_lt.2 (by simp only; omega)), setPosition,
      if_neg (Nat.not_lt_zero _)]
  rw [hfront]
  refine ⟨⟨Nat.zero_le _, by simp only; omega, ?_, hcap⟩, ?_, rfl, rfl⟩
  · simp only
    rw [length_splice (by rw [h.length_eq]; omega)]
    exact h.length_eq
  · have := @take_splice b.buffer b.unread 0 (Nat.zero_le _)
    simpa [unread] using this

end Views

end NativeByteBuffer

end Mtproto.Tgnet
