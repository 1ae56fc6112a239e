import Mtproto.Lib.Bytes
import Mtproto.Lib.Utf16
import Mtproto.Generator.Semantics

/-!
# The Java byte buffer

`NativeByteBuffer.java` as the streams of the generated code.  The readers work on the bytes between
the position and the limit; an exception of the `ByteBuffer` below keeps the position it
had reached, and most readers swallow it.  The writers append to a buffer with room for what they
write.  What `new String` makes of malformed UTF-8 is left to the platform and is a parameter.
-/

namespace Mtproto.Java

open Bytes
open Generator (Prim PrimitiveClass Failure Codec)

/-! ## `java.nio.ByteBuffer` -/

/-- A read of the buffer: a `BufferUnderflowException` leaves the position where it was
thrown. -/
abbrev Buffer (α : Type) := List UInt8 → Option α × List UInt8

instance : Monad Buffer where
  pure a := fun input => (some a, input)
  bind x f := fun input =>
    match x input with
    | (some a, rest) => f a rest
    | (none, rest) => (none, rest)

namespace Buffer

/-- `buffer.get()`. -/
def get : Buffer UInt8 := fun input =>
  match input with
  | [] => (none, [])
  | b :: rest => (some b, rest)

/-- `buffer.get(byte[])`, which takes all or nothing. -/
def getBytes (length : ℕ) : Buffer (List UInt8) := fun input =>
  if length ≤ input.length then (some (input.take length), input.drop length) else (none, input)

/-- `buffer.getInt()` and `buffer.getLong()` in little-endian order. -/
def getWord (width : ℕ) : Buffer ℕ := leNat <$> getBytes width

/-- A read whose exception is caught, with the value that is returned then. -/
def catching {α : Type} (read : Buffer α) (default : α) (input : List UInt8) : α × List UInt8 :=
  match read input with
  | (some a, rest) => (a, rest)
  | (none, rest) => (default, rest)

end Buffer

/-! ## Framed bytes -/

/-- The rounds of `while ((length + i) % 4 != 0)`. -/
def paddingLength (length : ℕ) : ℕ := (4 - length % 4) % 4

/-- `buffer.get()` in a loop. -/
def skip : ℕ → Buffer Unit
  | 0 => pure ()
  | n + 1 => do
    let _ ← Buffer.get
    skip n

/-- The length of a byte array and the number of bytes that spell it. -/
def readLength : Buffer (ℕ × ℕ) := do
  let l ← Buffer.get
  if l.toNat ≥ 254 then
    let b0 ← Buffer.get
    let b1 ← Buffer.get
    let b2 ← Buffer.get
    pure (leNat [b0, b1, b2], 4)
  else pure (l.toNat, 1)

/-- The common body of `readByteArray` and `readString`. -/
def readFramed : Buffer (List UInt8) := do
  let (l, sl) ← readLength
  let b ← Buffer.getBytes l
  skip (paddingLength (l + sl))
  pure b

/-- `writeByteArray(byte[])`. -/
def writeByteArray (b : List UInt8) : List UInt8 :=
  if b.length ≤ 253 then
    UInt8.ofNat b.length :: b ++ List.replicate (paddingLength (b.length + 1)) 0
  else
    254 :: toLE 3 b.length ++ b ++ List.replicate (paddingLength (b.length + 4)) 0

/-! ## Readers and writers -/

def readInt (input : List UInt8) : BitVec 32 × List UInt8 :=
  Buffer.catching (BitVec.ofNat 32 <$> Buffer.getWord 4) 0 input

def readLong (input : List UInt8) : BitVec 64 × List UInt8 :=
  Buffer.catching (BitVec.ofNat 64 <$> Buffer.getWord 8) 0 input

/-- The constructors of `boolTrue` and `boolFalse`. -/
def boolTrue : BitVec 32 := 0x997275b5

def boolFalse : BitVec 32 := 0xbc799737

/-- Every other constructor is read as `false`. -/
def readBoolean (input : List UInt8) : Bool × List UInt8 :=
  let (constructor, rest) := readInt input
  (constructor == boolTrue, rest)

def readByteArray (input : List UInt8) : List UInt8 × List UInt8 :=
  Buffer.catching readFramed [] input

/-- `new String(b, "UTF-8")`. -/
def newString (malformed : List UInt8 → List UInt16) (b : List UInt8) : List UInt16 :=
  (Utf16.decode? b).getD (malformed b)

/-- Unlike `readByteArray`, a failed `readString` goes back to where it started. -/
def readString (malformed : List UInt8 → List UInt16) (input : List UInt8) :
    List UInt16 × List UInt8 :=
  match readFramed input with
  | (some b, rest) => (newString malformed b, rest)
  | (none, _) => ([], input)

def readBytes (i : ℕ) (input : List UInt8) : List UInt8 × List UInt8 :=
  Buffer.catching (Buffer.getBytes i) (List.replicate i 0) input

def writeInt (x : BitVec 32) : List UInt8 := toLE 4 x.toNat

def writeLong (x : BitVec 64) : List UInt8 := toLE 8 x.toNat

def writeBoolean (value : Bool) : List UInt8 := writeInt (if value then boolTrue else boolFalse)

/-- The streams of the generated code; only `readByte` lets the exception through. -/
def codec (malformed : List UInt8 → List UInt16) : Codec where
  write
    | .boolean value => .ok (writeBoolean value)
    | .byte value => .ok [UInt8.ofBitVec value]
    | .int value => .ok (writeInt value)
    | .long value => .ok (writeLong value)
    | .double bits => .ok (writeLong bits)
    | .string units => .ok (writeByteArray (Utf16.encode units))
    | .byteArray value => .ok (writeByteArray value)
  read
    | .boolean, input => .ok (let (value, rest) := readBoolean input; (.boolean value, rest))
    | .byte, input =>
      match Buffer.get input with
      | (some b, rest) => .ok (.byte b.toBitVec, rest)
      | (none, _) => .error .bufferUnderflow
    | .int, input => .ok (let (value, rest) := readInt input; (.int value, rest))
    | .long, input => .ok (let (value, rest) := readLong input; (.long value, rest))
    | .double, input => .ok (let (bits, rest) := readLong input; (.double bits, rest))
    | .string, input => .ok (let (units, rest) := readString malformed input; (.string units, rest))
    | .byteArray, input => .ok (let (value, rest) := readByteArray input; (.byteArray value, rest))
  readBytes i input := .ok (readBytes i input)

end Mtproto.Java
