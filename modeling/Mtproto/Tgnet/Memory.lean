import Mtproto.Lib.Relational
import Mtproto.Streams.Native

/-!
# The memory that the native buffer touches

The methods of `NativeByteBuffer.cpp` on a buffer that is not in size-calculation mode, as programs
that write down which bytes of the store they read and write.  A subscript is a `uint32_t`, so that
`buffer[_position + i]` wraps around; the address that `memcpy` is given is a pointer and does not.
The tests are written as they stand: most of them compare the sum `_position + length` with the
limit, in 32 bits, and only `readBytes` compares the length with what is left.

What is in the store may be changed from outside at any time, through `bytes()` and through the
buffers that `readByteBuffer` makes.  A buffer that is copied from is another one than the buffer
that is copied to.
-/

namespace Mtproto.Tgnet

open Bytes Lib Lib.Interruptible

/-- `length` bytes of the store from `start` on. -/
structure Range where
  start : ℕ
  length : ℕ
deriving DecidableEq, Repr

/-- Every byte of the range lies in front of the limit. -/
def Range.Inside (limit : ℕ) (r : Range) : Prop := ∀ i, i < r.length → r.start + i < limit

/-- Bytes that a method is given, with a `uint32_t` for their number. -/
abbrev Chunk := { bytes : List UInt8 // bytes.length < 2 ^ 32 }

/-- A buffer with the flag behind `error`, and the ranges of the store accessed so far. -/
structure Memory extends Input where
  accessed : List Range := []
deriving DecidableEq, Repr

namespace Memory

/-- The body of a method; it is cut short where the method returns with an error. -/
abbrev Body (α : Type) := Interruptible Memory α

/-! ## Steps -/

def failed {α : Type} : Body α := fun m => (none, { m with error := true })

/-- `if (_position + n > _limit) { *error = true; return; }`. -/
def require (n : ℕ) : Body Unit := fun m =>
  if u32 (m.buffer.position + n) > m.buffer.limit then failed m else (some (), m)

/-- `_position += n`. -/
def move (n : ℕ) : Body Unit := modify fun m => { m with buffer := m.buffer.step n }

/-- Writes a range down. -/
def touch (r : Range) : Body Unit := modify fun m => { m with accessed := m.accessed ++ [r] }

/-- `buffer[_position++] = x`. -/
def put (x : UInt8) : Body Unit := do
  let m ← get
  touch ⟨m.buffer.position, 1⟩
  modify fun m => { m with buffer.buffer := splice m.buffer.buffer m.buffer.position [x] }
  move 1

/-- `buffer[_position + i]`. -/
def peek (i : ℕ) : Body UInt8 := do
  let m ← get
  touch ⟨u32 (m.buffer.position + i), 1⟩
  pure (m.buffer.buffer.getD (u32 (m.buffer.position + i)) 0)

/-- `memcpy(buffer + _position, …, length)`. -/
def copyIn (bytes : List UInt8) : Body Unit := do
  let m ← get
  touch ⟨m.buffer.position, bytes.length⟩
  modify fun m => { m with buffer.buffer := splice m.buffer.buffer m.buffer.position bytes }

/-- `memcpy(…, buffer + _position, length)`. -/
def copyOut (length : ℕ) : Body (List UInt8) := do
  let m ← get
  touch ⟨m.buffer.position, length⟩
  pure (m.ahead length)

/-- A buffer over the bytes from the position on; none of them is read. -/
def slice (length : ℕ) : Body (List UInt8) := do
  let m ← get
  pure (m.ahead length)

/-! ## Methods -/

/-- A sum beyond the limit is ignored. -/
def skip (length : ℕ) : Body Unit := do
  let m ← get
  if u32 (m.buffer.position + length) > m.buffer.limit then pure () else move length

/-- The bytes that are left move to the front. -/
def compact : Body Unit := do
  let m ← get
  if m.buffer.position = m.buffer.limit then pure ()
  else do
    touch ⟨m.buffer.position, m.buffer.remaining⟩
    touch ⟨0, m.buffer.remaining⟩
    modify fun m => { m with buffer := m.buffer.compact }

/-- A word that is written byte by byte. -/
def putWord (data : List UInt8) : Body Unit := do
  require data.length
  each put data

def writeInt32 (x : BitVec 32) : Body Unit := putWord (toLE 4 x.toNat)

def writeInt64 (x : BitVec 64) : Body Unit := putWord (toLE 8 x.toNat)

def writeByte (i : UInt8) : Body Unit := putWord [i]

def writeBool (value : Bool) : Body Unit :=
  if value then writeInt32 0x997275b5 else writeInt32 0xbc799737

/-- `writeBytesInternal` after its test. -/
def writeBytes (b : List UInt8) : Body Unit := do
  require b.length
  copyIn b
  move b.length

/-- `writeBytes` of the bytes that are left in another buffer. -/
def writeBytesOf (b : List UInt8) : Body Unit :=
  if b.length = 0 then pure () else writeBytes b

/-- `writeByteArray`: the prefix, the bytes and the padding, each behind a test of its own. -/
def writeByteArray (b : List UInt8) : Body Unit := do
  putWord (Output.lengthBytes b.length)
  writeBytes b
  putWord (List.replicate (Output.addition b.length) 0)

/-- `(uint32_t) s.length()` bytes of the string. -/
def writeString (s : List UInt8) : Body Unit := writeByteArray (s.take (u32 s.length))

/-- The bytes of a word. -/
def readWord (width : ℕ) : Body (List UInt8) := do
  require width
  let bytes ← collect peek 0 width
  move width
  pure bytes

def readInt32 : Body (BitVec 32) := do
  let bytes ← readWord 4
  pure (BitVec.ofNat 32 (leNat bytes))

def readBigInt32 : Body (BitVec 32) := do
  let bytes ← readWord 4
  pure (BitVec.ofNat 32 (beNat bytes))

def readInt64 : Body (BitVec 64) := do
  let bytes ← readWord 8
  pure (BitVec.ofNat 64 (leNat bytes))

def readByte : Body UInt8 := do
  let bytes ← readWord 1
  pure (UInt8.ofNat (leNat bytes))

/-- A word that cannot be read is no constructor, and the error is set already. -/
def readBool : Body Bool := do
  let constructor ← readInt32
  if constructor = 0x997275b5 then pure true
  else if constructor = 0xbc799737 then pure false
  else failed

/-- `if (length > _limit - _position)`: no sum is made. -/
def readBytes (length : ℕ) : Body (List UInt8) := do
  let m ← get
  if length > m.buffer.remaining then failed
  else do
    let bytes ← copyOut length
    move length
    pure bytes

/-- The padding behind `l` bytes with a prefix of `sl` bytes. -/
def addition (l sl : ℕ) : ℕ :=
  let addition := u32 (l + sl) % 4
  if addition ≠ 0 then 4 - addition else addition

/-- The second half of a framed read. -/
def frameBody (take : ℕ → Body (List UInt8)) (l sl : ℕ) : Body (List UInt8) := do
  require (l + addition l sl)
  let bytes ← take l
  move (l + addition l sl)
  pure bytes

/-- The common body of `readString`, `readByteArray` and `readByteBuffer`, which differ in what they
do with the bytes. -/
def frame (take : ℕ → Body (List UInt8)) : Body (List UInt8) := do
  let first ← readWord 1
  if leNat first ≥ 254 then do
    let length ← readWord 3
    frameBody take (leNat length) 4
  else frameBody take (leNat first) 1

def readString : Body (List UInt8) := frame copyOut

def readByteArray : Body (List UInt8) := frame copyOut

def readByteBuffer (copy : Bool) : Body (List UInt8) := frame (if copy then copyOut else slice)

/-- The other side of `writeBytesOf`: with room in the buffer that is written to, the bytes that are
left are copied, and the position goes to the limit. -/
def lend (room : Bool) : Body Unit := do
  let m ← get
  if m.buffer.remaining = 0 ∨ ¬ room then pure ()
  else do
    let _ ← copyOut m.buffer.remaining
    modify fun m => { m with buffer := m.buffer.setPosition m.buffer.limit }

/-- The other side of `writeByteArray` of a buffer: it is rewound, and with room it is copied as a
whole. -/
def lendAll (room : Bool) : Body Unit := do
  modify fun m => { m with buffer := m.buffer.rewind }
  let m ← get
  if room then do
    let _ ← copyOut m.buffer.limit
    pure ()
  else pure ()

/-! ## Calls -/

/-- The calls.  `bytes` is no access of the buffer itself: it leaves other bytes in the store. -/
inductive Op where
  | position (position : BitVec 32)
  | limit (limit : BitVec 32)
  | flip
  | clear
  | rewind
  | compact
  | clearCapacity
  | bytes (content : List UInt8)
  | skip (length : BitVec 32)
  | writeInt32 (x : BitVec 32)
  | writeInt64 (x : BitVec 64)
  | writeDouble (d : BitVec 64)
  | writeBool (value : Bool)
  | writeByte (i : UInt8)
  | writeBytes (b : Chunk)
  | writeBytesOf (b : Chunk)
  | writeByteArray (b : Chunk)
  | writeString (s : List UInt8)
  | readInt32
  | readUint32
  | readBigInt32
  | readInt64
  | readUint64
  | readDouble
  | readByte
  | readBool
  | readBytes (length : BitVec 32)
  | readString
  | readByteArray
  | readByteBuffer (copy : Bool)
  | lend (room : Bool)
  | lendAll (room : Bool)
deriving DecidableEq, Repr

namespace Op

/-- A call without its result. -/
def drop {α : Type} (body : Body α) : Body Unit := do
  let _ ← body
  pure ()

/-- Rewrites the buffer and touches no byte. -/
def set (f : NativeByteBuffer → NativeByteBuffer) : Body Unit :=
  modify fun m => { m with buffer := f m.buffer }

def run : Op → Body Unit
  | position p => set fun b => b.setPosition p.toNat
  | limit l => set fun b => b.setLimit l.toNat
  | flip => set NativeByteBuffer.flip
  | clear => set NativeByteBuffer.clear
  | rewind => set NativeByteBuffer.rewind
  | compact => Memory.compact
  | clearCapacity => pure ()
  | bytes content => set fun b => { b with buffer := content }
  | skip length => Memory.skip length.toNat
  | writeInt32 x => Memory.writeInt32 x
  | writeInt64 x => Memory.writeInt64 x
  | writeDouble d => Memory.writeInt64 d
  | writeBool value => Memory.writeBool value
  | writeByte i => Memory.writeByte i
  | writeBytes b => Memory.writeBytes b.val
  | writeBytesOf b => Memory.writeBytesOf b.val
  | writeByteArray b => Memory.writeByteArray b.val
  | writeString s => Memory.writeString s
  | readInt32 => drop Memory.readInt32
  | readUint32 => drop Memory.readInt32
  | readBigInt32 => drop Memory.readBigInt32
  | readInt64 => drop Memory.readInt64
  | readUint64 => drop Memory.readInt64
  | readDouble => drop Memory.readInt64
  | readByte => drop Memory.readByte
  | readBool => drop Memory.readBool
  | readBytes length => drop (Memory.readBytes length.toNat)
  | readString => drop Memory.readString
  | readByteArray => drop Memory.readByteArray
  | readByteBuffer copy => drop (Memory.readByteBuffer copy)
  | lend room => Memory.lend room
  | lendAll room => Memory.lendAll room

end Op

/-- One call on a buffer: what it leaves, and what it has accessed. -/
def call (op : Op) (b : NativeByteBuffer) : Memory := (op.run { buffer := b }).2

end Memory

end Mtproto.Tgnet
