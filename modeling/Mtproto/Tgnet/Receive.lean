import Mtproto.Tgnet.NativeByteBuffer

/-!
# Reassembling frames from the socket

`Connection::onReceivedData` with the keystream already applied: the recv buffer goes in, the calls
to `ConnectionsManager` come out, and `restOfTheData`/`lastPacketLength` are kept for the next
call.  The local pointer `buffer` and the field `restOfTheData` may point to the same object; a
write through one is then seen through the other, so the loop state records where `restOfTheData`
points (`RestOfTheData`).  Returning a buffer to the pool leaves its fields readable, as the loop
condition relies on.
-/

namespace Mtproto.Tgnet

open Bytes NativeByteBuffer

/-! ## Buffers from the pool -/

/-- The size of the buffers that serve a request of `size` bytes in
`BuffersStorage::getFreeBuffer`. -/
def byteCount (size : ℕ) : ℕ :=
  if size ≤ 8 then 8
  else if size ≤ 128 then 128
  else if size ≤ 1024 + 200 then 1024 + 200
  else if size ≤ 4096 + 200 then 4096 + 200
  else if size ≤ 16384 + 200 then 16384 + 200
  else if size ≤ 40000 then 40000
  else if size ≤ 160000 then 160000
  else size

/-- `BuffersStorage::getFreeBuffer`: position `0`, limit `size`. -/
def getFreeBuffer (size : ℕ) : NativeByteBuffer := ((new (byteCount size)).setLimit size).rewind

inductive FreeList
  | freeBuffers8
  | freeBuffers128
  | freeBuffers1024
  | freeBuffers4096
  | freeBuffers16384
  | freeBuffers32768
  | freeBuffersBig
deriving DecidableEq, Repr

/-- `arrayToReuse` with its `maxCount` in `BuffersStorage::reuseFreeBuffer`. -/
def BuffersStorage.arrayToReuse (capacity : ℕ) : Option (FreeList × ℕ) :=
  if capacity = 8 then some (.freeBuffers8, 80)
  else if capacity = 128 then some (.freeBuffers128, 80)
  else if capacity = 1024 + 200 then some (.freeBuffers1024, 10)
  else if capacity = 4096 + 200 then some (.freeBuffers4096, 10)
  else if capacity = 16384 + 200 then some (.freeBuffers16384, 10)
  else if capacity = 40000 then some (.freeBuffers32768, 10)
  else if capacity = 160000 then some (.freeBuffersBig, 10)
  else none

/-- `reuse` keeps the object: there is a free list for its capacity, and that has room. -/
def survivesReuse (room : Bool) (capacity : ℕ) : Bool :=
  (BuffersStorage.arrayToReuse capacity).isSome && room

/-! ## State -/

inductive ProtocolType where
  | EF
  | EE
  | DD
  deriving DecidableEq, Repr

/-- A call from `onReceivedData` into the rest of the client. -/
inductive Delivery where
  /-- `onConnectionDataReceived` with the bytes of one packet. -/
  | data (payload : List UInt8)
  /-- `onConnectionQuickAckReceived`. -/
  | quickAck (ackId : ℕ)
  /-- `reconnect()` after an invalid packet length. -/
  | reconnect
  deriving DecidableEq, Repr

/-- The fields of `Connection` that survive from one recv to the next. -/
structure ReceiveState where
  restOfTheData : Option NativeByteBuffer
  lastPacketLength : ℕ
  deriving DecidableEq, Repr

/-- A recv buffer. -/
structure Recv where
  bytes : List UInt8
  /-- Whether the free list has room for the carried buffer if that is used up. -/
  room : Bool
  deriving DecidableEq, Repr

/-- A connection that has received nothing yet. -/
def ReceiveState.initial : ReceiveState := ⟨none, 0⟩

/-- Where `restOfTheData` points while the loop runs. -/
inductive RestOfTheData where
  | null
  /-- The same object as the local `buffer`. -/
  | buffer
  | other (b : NativeByteBuffer)
  deriving DecidableEq, Repr

/-- The loop state of `onReceivedData`. -/
structure Receiving where
  buffer : NativeByteBuffer
  restOfTheData : RestOfTheData
  lastPacketLength : ℕ
  parseLaterBuffer : Option NativeByteBuffer
  deriving DecidableEq, Repr

namespace Receiving

/-- The object behind `restOfTheData`. -/
def rest? (r : Receiving) : Option NativeByteBuffer :=
  match r.restOfTheData with
  | .null => none
  | .buffer => some r.buffer
  | .other b => some b

/-- Call a method on `*restOfTheData`. -/
def modifyRest (r : Receiving) (f : NativeByteBuffer → NativeByteBuffer) : Receiving :=
  match r.restOfTheData with
  | .null => r
  | .buffer => { r with buffer := f r.buffer }
  | .other b => { r with restOfTheData := .other (f b) }

/-- What the connection keeps when the function returns. -/
def state (r : Receiving) : ReceiveState := ⟨r.rest?, r.lastPacketLength⟩

end Receiving

/-! ## The loop body -/

/-- Copy the unread bytes into a new buffer and keep it as `restOfTheData`. -/
def keepInNewBuffer (r : Receiving) : Receiving :=
  let kept := (getFreeBuffer 16384).writeBytes r.buffer
  { r with
    buffer := kept.2
    restOfTheData := .other (kept.1.setLimit kept.1.position)
    lastPacketLength := 0 }

/-- Keep an incomplete length word. -/
def keepHeader (r : Receiving) : Receiving :=
  match r.rest? with
  | none => keepInNewBuffer r
  | some rest =>
    if rest.position ≠ 0 then keepInNewBuffer r
    else r.modifyRest fun b => b.setPosition b.limit

/-- Keep an incomplete packet of `len` bytes (header included) that starts at `mark`. -/
def keepBody (r : Receiving) (mark len : ℕ) : Receiving :=
  let restOfTheData := match r.rest? with
    | none => RestOfTheData.null
    | some rest => if rest.capacity < len then .null else r.restOfTheData
  if restOfTheData = .null then
    let kept := (getFreeBuffer len).writeBytes (r.buffer.setPosition mark)
    { r with
      buffer := kept.2
      restOfTheData := .other kept.1
      lastPacketLength := len }
  else
    { r.modifyRest fun b => (b.setPosition b.limit).setLimit len with lastPacketLength := len }

/-- What the first bytes at the position turn out to be. -/
inductive Header where
  | packet (buffer : NativeByteBuffer) (currentPacketLength len : ℕ)
  | quickAck (buffer : NativeByteBuffer) (ackId : ℕ)
  | incomplete (r : Receiving)

/-- The first half of the loop body: the length word or quick ack at the position. -/
def readHeader (p : ProtocolType) (r : Receiving) : Header :=
  let mark := r.buffer.position
  match p with
  | .EF =>
    let fByte := r.buffer.readByte.1
    let read := r.buffer.readByte.2
    if fByte &&& 0x80 ≠ 0 then
      let buffer := read.setPosition mark
      if buffer.remaining < 4 then .incomplete (keepInNewBuffer { r with buffer := buffer })
      else .quickAck buffer.readBigInt32.2 (buffer.readBigInt32.1 % 2 ^ 31)
    else if fByte ≠ 0x7f then .packet read (fByte.toNat * 4) (fByte.toNat * 4 + 1)
    else
      let buffer := read.setPosition mark
      if buffer.remaining < 4 then .incomplete (keepHeader { r with buffer := buffer })
      else
        let currentPacketLength := buffer.readUint32.1 / 2 ^ 8 * 4
        .packet buffer.readUint32.2 currentPacketLength (currentPacketLength + 4)
  | _ =>
    if r.buffer.remaining < 4 then .incomplete (keepHeader r)
    else
      let fInt := r.buffer.readUint32.1
      if 2 ^ 31 ≤ fInt then .quickAck r.buffer.readUint32.2 (fInt % 2 ^ 31)
      else .packet r.buffer.readUint32.2 fInt (u32 (fInt + 4))

/-- After a packet: drop `restOfTheData` when it is used up, else move its unread bytes to the
front. -/
def releaseRest (r : Receiving) : Receiving :=
  match r.rest? with
  | none => r
  | some rest =>
    if (r.lastPacketLength ≠ 0 ∧ rest.position = r.lastPacketLength) ∨
        (r.lastPacketLength = 0 ∧ rest.hasRemaining = false) then
      { r with restOfTheData := .null }
    else
      r.modifyRest fun b => (b.compact.setLimit b.compact.position).setPosition 0

/-- The pool has deleted the object that the loop goes on with. -/
def DeletesBuffer (room : Bool) (r : Receiving) : Prop :=
  r.restOfTheData = .buffer ∧ r.parseLaterBuffer = none ∧ (releaseRest r).restOfTheData = .null ∧
    survivesReuse room r.buffer.capacity = false

instance (room : Bool) (r : Receiving) : Decidable (DeletesBuffer room r) :=
  inferInstanceAs (Decidable (_ ∧ _ ∧ _ ∧ _))

/-- Continue with the recv buffer once the carried packet has been handled. -/
def parseLater (r : Receiving) : Receiving :=
  match r.parseLaterBuffer with
  | none => r
  | some later =>
    { buffer := later
      restOfTheData := match r.restOfTheData with
        | .buffer => .other r.buffer
        | rest => rest
      lastPacketLength := r.lastPacketLength
      parseLaterBuffer := none }

/-- How one iteration ends. -/
inductive Iteration where
  | next (r : Receiving) (d : Delivery)
  | leave (r : Receiving)
  | reconnect
  /-- `buffer->hasRemaining()` is called on a deleted object. -/
  | dangling

/-- The second half of the loop body: a packet whose header has been read. -/
def receivePacket (p : ProtocolType) (room : Bool) (r : Receiving)
    (mark currentPacketLength len : ℕ) : Iteration :=
  if p ≠ .DD ∧ currentPacketLength % 4 ≠ 0 ∨ currentPacketLength > 2 * 1024 * 1024 then
    .reconnect
  else if currentPacketLength > r.buffer.remaining then .leave (keepBody r mark len)
  else
    let packet := r.buffer.setLimit (u32 (r.buffer.position + currentPacketLength))
    let buffer := (packet.setPosition packet.limit).setLimit r.buffer.limit
    if DeletesBuffer room { r with buffer := buffer } then .dangling
    else .next (parseLater (releaseRest { r with buffer := buffer })) (.data packet.unread)

/-- One iteration of the loop. -/
def iteration (p : ProtocolType) (room : Bool) (r : Receiving) : Iteration :=
  match readHeader p r with
  | .incomplete r => .leave r
  | .quickAck buffer ackId => .next { r with buffer := buffer } (.quickAck ackId)
  | .packet buffer currentPacketLength len =>
    receivePacket p room { r with buffer := buffer } r.buffer.position currentPacketLength len

/-- The loop; `none` when a deleted object is read or the fuel runs out. -/
def receiveLoop (p : ProtocolType) (room : Bool) :
    ℕ → Receiving → Option (ReceiveState × List Delivery)
  | 0, _ => none
  | fuel + 1, r =>
    if r.buffer.hasRemaining then
      match iteration p room r with
      | .next r d => (receiveLoop p room fuel r).map fun (s, ds) => (s, d :: ds)
      | .leave r => some (r.state, [])
      | .reconnect => some (.initial, [.reconnect])
      | .dangling => none
    else some (r.state, [])

/-! ## The function -/

/-- Every iteration consumes a byte, so the unread bytes bound the number of iterations. -/
def loopFuel (r : Receiving) : ℕ :=
  r.buffer.unread.length + (r.parseLaterBuffer.elim 0 fun b => b.unread.length) + 1

/-- The part of `onReceivedData` before the loop: where parsing starts, or the new state when the
carried packet is still incomplete. -/
def joinRest (s : ReceiveState) (buffer : NativeByteBuffer) : Receiving ⊕ ReceiveState :=
  match s.restOfTheData with
  | none => .inl ⟨buffer.rewind, .null, s.lastPacketLength, none⟩
  | some rest =>
    if s.lastPacketLength = 0 then
      if u32 (rest.capacity + 2 ^ 32 - rest.position) ≥ buffer.limit then
        let rest := (rest.setLimit (u32 (rest.position + buffer.limit))).writeBytes buffer
        .inl ⟨rest.1.rewind, .buffer, s.lastPacketLength, none⟩
      else
        let newBuffer := (getFreeBuffer (u32 (rest.limit + buffer.limit))).writeBytes rest.rewind
        let newBuffer := newBuffer.1.writeBytes buffer
        .inl ⟨newBuffer.1.rewind, .buffer, s.lastPacketLength, none⟩
    else
      let missing := u32 (s.lastPacketLength + 2 ^ 32 - rest.position)
      let len := if missing ≤ buffer.limit then missing else buffer.limit
      let written := rest.writeBytes (buffer.setLimit len)
      let buffer := written.2.setLimit buffer.limit
      if written.1.position = s.lastPacketLength then
        .inl ⟨written.1.rewind, .buffer, s.lastPacketLength,
          if buffer.hasRemaining then some buffer else none⟩
      else .inr ⟨some written.1, s.lastPacketLength⟩

/-- `Connection::onReceivedData` on one recv buffer. -/
def onReceivedData (p : ProtocolType) (s : ReceiveState) (recv : Recv) :
    Option (ReceiveState × List Delivery) :=
  match joinRest s (sliced recv.bytes) with
  | .inl r => receiveLoop p recv.room (loopFuel r) r
  | .inr s => some (s, [])

/-- Successive recv buffers on one connection, and everything they deliver. -/
def receiveAll (p : ProtocolType) (s : ReceiveState) : List Recv → Option (List Delivery)
  | [] => some []
  | recv :: recvs =>
    (onReceivedData p s recv).bind fun (s, ds) =>
      (receiveAll p s recvs).map fun rest => ds ++ rest

end Mtproto.Tgnet
