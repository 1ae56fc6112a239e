import Mtproto.Tgnet.Send
import Mtproto.Tgnet.Reassembly
import Mathlib.Data.List.Forall2

/-!
# What the other side makes of the packets

`receive` is the other end of the connection: it has the shared secret, takes the key and the iv
from the first 64 bytes, takes the keystream off and reads frame by frame.  The lemmas about
`sendData` say that a call appends the frame of its packet under the keystream (`sendData_next`),
and that the first one puts the 64 bytes in front (`sendData_first`); the main theorem follows by
induction on the calls.
-/

namespace Mtproto.Tgnet

open Bytes Keystream NativeByteBuffer

/-! ## The other side -/

structure Frame where
  reportAck : Bool
  body : List UInt8
  deriving DecidableEq, Repr

/-- A frame with a length of `headerLen` bytes, when it is there. -/
def takeFrame (headerLen : ℕ) (reportAck : Bool) (length : ℕ) (bytes : List UInt8) :
    Option (Frame × List UInt8) :=
  if bytes.length < headerLen + length then none
  else some (⟨reportAck, (bytes.drop headerLen).take length⟩, bytes.drop (headerLen + length))

/-- One frame: EF has a length of one byte or, behind `0x7f`, of three more, with the ack in bit 7;
DD has a length of four bytes with the ack in bit 31. -/
def readFrame (p : ProtocolType) (bytes : List UInt8) : Option (Frame × List UInt8) :=
  match p with
  | .EF =>
    let first := leNat (bytes.take 1)
    if first % 2 ^ 7 = 0x7f then
      takeFrame 4 (2 ^ 7 ≤ first) (leNat (bytes.take 4) / 2 ^ 8 * 4) bytes
    else takeFrame 1 (2 ^ 7 ≤ first) (first % 2 ^ 7 * 4) bytes
  | _ =>
    let word := leNat (bytes.take 4)
    takeFrame 4 (2 ^ 31 ≤ word) (word % 2 ^ 31) bytes

/-- Frames to the end of the bytes, at most as many as there is fuel for. -/
def readFrames (p : ProtocolType) : ℕ → List UInt8 → Option (List Frame)
  | _, [] => some []
  | 0, _ => none
  | fuel + 1, bytes => do
    let (frame, rest) ← readFrame p bytes
    let frames ← readFrames p fuel rest
    return frame :: frames

/-- The key and the iv of the stream behind the 64 bytes. -/
def streamKey (crypto : Crypto) (sharedSecret : Option (List UInt8)) (init : List UInt8) :
    List UInt8 × List UInt8 :=
  let key := (init.drop 8).take 32
  let iv := (init.drop 40).take 16
  match sharedSecret with
  | none => (key, iv)
  | some secret => (crypto.sha256 (key ++ secret), iv)

/-- The keystream behind the 64 bytes. -/
def streamOf (crypto : Crypto) (sharedSecret : Option (List UInt8)) (init : List UInt8) :
    ℕ → UInt8 :=
  crypto.keystream (streamKey crypto sharedSecret init).1 (streamKey crypto sharedSecret init).2

/-- The protocol with a tag. -/
def protocolOf (tag : List UInt8) : Option ProtocolType :=
  [ProtocolType.EF, .EE, .DD].find? fun p => tag = List.replicate 4 p.tag

def receive (crypto : Crypto) (sharedSecret : Option (List UInt8)) (stream : List UInt8) :
    Option (List Frame) := do
  let plain := xorAt (streamOf crypto sharedSecret (stream.take 64)) 0 stream
  let p ← protocolOf ((plain.drop 56).take 4)
  readFrames p plain.length (plain.drop 64)

/-! ## What is sent -/

/-- The secret the two sides share. -/
def Connection.sharedSecret (c : Connection) : Option (List UInt8) :=
  if c.useSecret = 0 then none else some (secretBytes (c.getCurrentSecret c.useSecret))

/-- The length in front of a packet. -/
def ProtocolType.lengthBytes (p : ProtocolType) (packetLength : ℕ) (reportAck : Bool) :
    List UInt8 :=
  match p with
  | EF =>
    if packetLength < 0x7f then [UInt8.ofNat (packetLength + if reportAck then 2 ^ 7 else 0)]
    else toLE 4 (packetLength * 2 ^ 8 + 0x7f + if reportAck then 2 ^ 7 else 0)
  | _ => toLE 4 (packetLength + if reportAck then 2 ^ 31 else 0)

namespace Send

variable (s : Send) (p : ProtocolType)

def paddingSize : ℕ := p.additinalPacketSize s.encrypted s.draws.additinalPacketSize.toNat

def padding : List UInt8 := s.draws.paddingBytes (s.paddingSize p)

def header : List UInt8 :=
  p.lengthBytes (p.packetLength s.buff.length (s.paddingSize p)) s.reportAck

/-- The bytes of a packet before the keystream. -/
def frame : List UInt8 := s.header p ++ s.buff ++ s.padding p

/-- A packet whose length fits. -/
structure Fits : Prop where
  words : s.buff.length % 4 = 0
  short : s.buff.length < 2 ^ 24 * 4

/-- The frame has the ack and the bytes of the packet, with no padding in EF and little in DD. -/
def Carried (f : Frame) : Prop :=
  f.reportAck = s.reportAck ∧ ∃ padding, f.body = s.buff ++ padding ∧
    padding.length ≤ match p with
      | .EF => 0
      | _ => if s.encrypted then 15 else 256

end Send

/-! ### The length -/

theorem long_or (n : ℕ) : (n <<< 8 + 0x7f) ||| 2 ^ 7 = n * 2 ^ 8 + 0x7f + 2 ^ 7 := by
  calc (n <<< 8 + 0x7f) ||| 2 ^ 7 = (n <<< 8 ||| 0x7f) ||| 2 ^ 7 := by
        rw [Nat.shiftLeft_add_eq_or_of_lt (by decide)]
    _ = n <<< 8 ||| 0xff := Nat.or_assoc _ _ _
    _ = n <<< 8 + 0xff := (Nat.shiftLeft_add_eq_or_of_lt (by decide) n).symm
    _ = n * 2 ^ 8 + 0x7f + 2 ^ 7 := by
        rw [Nat.shiftLeft_eq]
        omega

namespace ProtocolType

variable {p : ProtocolType} {packetLength : ℕ}

/-- The lengths a protocol can write. -/
def Holds (p : ProtocolType) (packetLength : ℕ) : Prop :=
  match p with
  | EF => packetLength < 2 ^ 24
  | _ => packetLength < 2 ^ 31

theorem length_lengthBytes (p : ProtocolType) (packetLength : ℕ) (reportAck : Bool) :
    (p.lengthBytes packetLength reportAck).length = p.headerLen packetLength := by
  cases p with
  | EF =>
      rw [lengthBytes, headerLen]
      split_ifs <;> simp
  | EE => simp [lengthBytes, headerLen]
  | DD => simp [lengthBytes, headerLen]

/-- The ack bit of a word of four bytes. -/
theorem wordBytes {o : Output} {n : ℕ} {reportAck : Bool} (hn : n < 2 ^ 31) (hroom : o.Room 4) :
    o.writeInt32 (BitVec.ofNat 32 (if reportAck then n ||| 2 ^ 31 else n)) =
      o.wrote (toLE 4 (n + if reportAck then 2 ^ 31 else 0)) := by
  have hword : (if reportAck then n ||| 2 ^ 31 else n) = n + if reportAck then 2 ^ 31 else 0 := by
    cases reportAck
    · rfl
    · exact Nat.or_two_pow_eq_add_of_lt hn
  have hlt : (n + if reportAck then 2 ^ 31 else 0) < 2 ^ 32 := by split_ifs <;> omega
  rw [Output.writeInt32_wrote hroom, hword, BitVec.toNat_ofNat, Nat.mod_eq_of_lt hlt]

theorem writeLength_wrote {o : Output} {reportAck : Bool} (hlength : p.Holds packetLength)
    (hroom : o.Room (p.headerLen packetLength)) :
    p.writeLength packetLength reportAck o = o.wrote (p.lengthBytes packetLength reportAck) := by
  cases p with
  | EF =>
      have hlt : packetLength < 2 ^ 24 := hlength
      rw [headerLen] at hroom
      rw [writeLength, lengthBytes]
      by_cases hshort : packetLength < 0x7f
      · rw [if_pos hshort] at hroom ⊢
        rw [if_pos hshort]
        have hbyte : (if reportAck then packetLength ||| 2 ^ 7 else packetLength) =
            packetLength + if reportAck then 2 ^ 7 else 0 := by
          cases reportAck
          · rfl
          · exact Nat.or_two_pow_eq_add_of_lt (by omega)
        rw [hbyte]
        exact Output.call_of_some (Output.piece_wrote hroom)
      · rw [if_neg hshort] at hroom ⊢
        rw [if_neg hshort]
        have hfits : packetLength <<< 8 + 0x7f < 2 ^ 32 := by
          rw [Nat.shiftLeft_eq]
          omega
        have hword : (if reportAck then u32 (packetLength <<< 8 + 0x7f) ||| 2 ^ 7
            else u32 (packetLength <<< 8 + 0x7f)) =
            packetLength * 2 ^ 8 + 0x7f + if reportAck then 2 ^ 7 else 0 := by
          rw [u32_of_lt hfits]
          cases reportAck
          · rw [if_neg Bool.false_ne_true, if_neg Bool.false_ne_true, Nat.shiftLeft_eq,
              Nat.add_zero]
          · exact long_or packetLength
        have hlast : (packetLength * 2 ^ 8 + 0x7f + if reportAck then 2 ^ 7 else 0) < 2 ^ 32 := by
          split_ifs <;> omega
        show o.writeInt32 (BitVec.ofNat 32 _) = _
        rw [Output.writeInt32_wrote hroom, hword, BitVec.toNat_ofNat, Nat.mod_eq_of_lt hlast]
  | EE => exact wordBytes hlength hroom
  | DD => exact wordBytes hlength hroom

end ProtocolType

/-! ### A packet -/

theorem Send.paddingSize_lt (s : Send) : s.paddingSize .DD < 257 := by
  rw [paddingSize, ProtocolType.additinalPacketSize]
  split_ifs <;> omega

/-- The packet has a length that can be written. -/
theorem Send.Fits.holds {s : Send} (h : s.Fits) {p : ProtocolType} (hp : p ≠ .EE) :
    p.Holds (p.packetLength s.buff.length (s.paddingSize p)) := by
  have hshort := h.short
  cases p with
  | EF =>
      show s.buff.length / 4 < 2 ^ 24
      omega
  | EE => exact absurd rfl hp
  | DD =>
      have hpadding := s.paddingSize_lt
      show u32 (s.buff.length + s.paddingSize .DD) < 2 ^ 31
      rw [u32_of_lt (by omega)]
      omega

theorem Send.length_header (s : Send) (p : ProtocolType) :
    (s.header p).length = p.headerLen (p.packetLength s.buff.length (s.paddingSize p)) :=
  p.length_lengthBytes _ _

namespace Connection

variable (crypto : Crypto) {c : Connection} {s : Send}

/-- The keystream of the sending side. -/
def stream (c : Connection) : ℕ → UInt8 := crypto.keystream c.encryptKey c.encryptIv

/-- The connection after `bytes` have been encrypted and `written` has been handed over. -/
def sent (c : Connection) (bytes written : List UInt8) : Connection :=
  { c with
    encryptPosition := c.encryptPosition + bytes.length
    outgoingByteStream := c.outgoingByteStream ++ written }

/-- The bytes up to the limit, of which the last are encrypted. -/
theorem encryptLast_wrote {o : Output} {header : List UInt8} (hroom : o.Room header.length)
    (hfull : o.buffer.position + header.length = o.buffer.limit) :
    ((c.encryptLast crypto header.length (o.wrote header).buffer).2.writeBuffer
      (c.encryptLast crypto header.length (o.wrote header).buffer).1.rewind) =
      c.sent header (o.buffer.filled ++ xorAt (c.stream crypto) c.encryptPosition header) := by
  have hle := hroom.position_le_length
  have hstart : (o.wrote header).buffer.limit - header.length = o.buffer.position := by
    show o.buffer.limit - header.length = o.buffer.position
    omega
  have hheader : ((o.wrote header).buffer.buffer.drop o.buffer.position).take header.length =
      header := by
    show ((splice o.buffer.buffer o.buffer.position header).drop o.buffer.position).take
      header.length = header
    rw [List.take_drop, take_splice hle]
    exact List.drop_left' (List.length_take_of_le hle)
  have hwritten : ((splice (o.wrote header).buffer.buffer o.buffer.position
      (xorAt (c.stream crypto) c.encryptPosition header)).take (o.wrote header).buffer.limit) =
      o.buffer.filled ++ xorAt (c.stream crypto) c.encryptPosition header := by
    have hlimit : (o.wrote header).buffer.limit =
        o.buffer.position + (xorAt (c.stream crypto) c.encryptPosition header).length := by
      rw [length_xorAt]
      exact hfull.symm
    have hlength : o.buffer.position ≤ (o.wrote header).buffer.buffer.length := by
      show o.buffer.position ≤ (splice o.buffer.buffer o.buffer.position header).length
      rw [length_splice]
      · exact hle
      · rw [hfull, hroom.wf.length_eq]
        exact hroom.wf.limit_le
    rw [hlimit, take_splice hlength]
    exact congrArg (· ++ _) (take_splice_of_le le_rfl hle)
  simp only [encryptLast, encrypt, hstart, hheader]
  rw [writeBuffer, sent]
  congr 1
  exact congrArg (c.outgoingByteStream ++ ·) hwritten

theorem encrypt_writeBuffer (bytes : List UInt8) :
    (c.encrypt crypto bytes).2.writeBuffer (.sliced (c.encrypt crypto bytes).1) =
      c.sent bytes (xorAt (c.stream crypto) c.encryptPosition bytes) := by
  rw [writeBuffer, unread_sliced]
  rfl

/-- Two pieces under one keystream. -/
theorem sent_sent (bytes more written : List UInt8) :
    (c.sent bytes (written ++ xorAt (c.stream crypto) c.encryptPosition bytes)).sent more
      (xorAt (c.stream crypto) (c.encryptPosition + bytes.length) more) =
      c.sent (bytes ++ more)
        (written ++ xorAt (c.stream crypto) c.encryptPosition (bytes ++ more)) := by
  simp only [sent, xorAt_append, List.length_append, List.append_assoc, Nat.add_assoc]

/-- A packet behind what is in the buffer. -/
theorem writePacket_eq (hfits : s.Fits) (hprotocol : c.currentProtocolType ≠ .EE)
    (buffer : NativeByteBuffer)
    (hroom : ({ buffer := buffer } : Output).Room (s.header c.currentProtocolType).length)
    (hfull : buffer.position + (s.header c.currentProtocolType).length = buffer.limit) :
    c.writePacket crypto s (s.paddingSize c.currentProtocolType)
      (c.currentProtocolType.packetLength s.buff.length (s.paddingSize c.currentProtocolType))
        buffer =
      c.sent (s.frame c.currentProtocolType)
        (buffer.filled ++
          xorAt (c.stream crypto) c.encryptPosition (s.frame c.currentProtocolType)) := by
  have hheader := encryptLast_wrote crypto (c := c) hroom hfull
  rw [s.length_header] at hroom hheader
  have hpadding : (s.padding c.currentProtocolType).length = s.paddingSize c.currentProtocolType :=
    s.draws.length_paddingBytes _
  simp only [writePacket]
  rw [ProtocolType.writeLength_wrote (hfits.holds hprotocol) hroom]
  change (if s.paddingSize c.currentProtocolType > 0 then _ else _) = _
  rw [show c.currentProtocolType.lengthBytes _ s.reportAck =
    s.header c.currentProtocolType from rfl, hheader]
  have hbody := sent_sent crypto (c := c) (s.header c.currentProtocolType) s.buff buffer.filled
  have hframe := sent_sent crypto (c := c) (s.header c.currentProtocolType ++ s.buff)
    (s.padding c.currentProtocolType) buffer.filled
  by_cases hsize : s.paddingSize c.currentProtocolType > 0
  · rw [if_pos hsize, encrypt_writeBuffer crypto s.buff, encrypt_writeBuffer]
    rw [List.length_append, ← Nat.add_assoc, ← hbody] at hframe
    exact hframe
  · have hnil : s.padding c.currentProtocolType = [] := by
      rw [← List.length_eq_zero_iff, hpadding]
      omega
    rw [if_neg hsize, encrypt_writeBuffer, Send.frame, hnil, List.append_nil]
    exact hbody

/-! ### The first 64 bytes -/

section Start

variable {block : List UInt8} (hblock : block.length = 64)

include hblock

theorem length_tagged :
    (splice block 56 (List.replicate 4 c.currentProtocolType.tag)).length = 64 := by
  rw [length_splice (by rw [List.length_replicate]; omega), hblock]

theorem length_markedBlock (secretType : ℕ) : (c.markedBlock secretType block).length = 64 := by
  have htagged := length_tagged (c := c) hblock
  rw [markedBlock]
  split_ifs
  · rw [length_splice (by rw [length_toLE]; omega), htagged]
  · exact htagged

theorem markedBlock_tag (secretType : ℕ) :
    ((c.markedBlock secretType block).drop 56).take 4 =
      List.replicate 4 c.currentProtocolType.tag := by
  have htagged := length_tagged (c := c) hblock
  have hfront : (c.markedBlock secretType block).take 60 =
      (splice block 56 (List.replicate 4 c.currentProtocolType.tag)).take 60 := by
    rw [markedBlock]
    split_ifs
    · exact take_splice_of_le le_rfl (by omega)
    · rfl
  have hsplice : (splice block 56 (List.replicate 4 c.currentProtocolType.tag)).take
      (56 + (List.replicate 4 c.currentProtocolType.tag).length) =
      block.take 56 ++ List.replicate 4 c.currentProtocolType.tag :=
    take_splice (by omega)
  rw [List.length_replicate] at hsplice
  rw [List.take_drop, hfront, hsplice]
  exact List.drop_left' (List.length_take_of_le (by omega))

end Start

/-- The key and the iv are in the first 56 bytes. -/
theorem streamKey_congr {sharedSecret : Option (List UInt8)} {init init' : List UInt8}
    (h : init.take 56 = init'.take 56) :
    streamKey crypto sharedSecret init = streamKey crypto sharedSecret init' := by
  have hkey : (init.drop 8).take 32 = (init'.drop 8).take 32 := by
    have htake := congrArg (fun l => (l.drop 8).take 32) h
    simpa [List.drop_take, List.take_take] using htake
  have hiv : (init.drop 40).take 16 = (init'.drop 40).take 16 := by
    have htake := congrArg (fun l => (l.drop 40).take 16) h
    simpa [List.drop_take, List.take_take] using htake
  unfold streamKey
  rw [hkey, hiv]

/-- The sending side has the key that the other side derives. -/
theorem setKeys_eq (bytes : List UInt8) :
    ((c.setKeys crypto c.useSecret bytes).encryptKey,
      (c.setKeys crypto c.useSecret bytes).encryptIv) =
      streamKey crypto c.sharedSecret bytes := by
  have hkey : ((bytes.drop 8).take 48).take 32 = (bytes.drop 8).take 32 := by
    rw [List.take_take]
    rfl
  have hrest : (((bytes.drop 8).take 48).drop 32).take 16 = (bytes.drop 40).take 16 := by
    rw [List.drop_take, List.take_take, List.drop_drop]
    rfl
  unfold setKeys sharedSecret streamKey
  by_cases hsecret : c.useSecret = 0
  · simp only [encryptKeyWithSecret, if_pos hsecret, hkey, hrest]
  · simp only [encryptKeyWithSecret, if_neg hsecret, hkey]
    have hdigest :=
      crypto.length_sha256 ((bytes.drop 8).take 32 ++ secretBytes (c.getCurrentSecret c.useSecret))
    generalize crypto.sha256 _ = digest at hdigest ⊢
    have hsplice : splice ((bytes.drop 8).take 48) 0 digest =
        digest ++ ((bytes.drop 8).take 48).drop 32 := by
      rw [splice, List.take_zero, List.nil_append, hdigest]
    rw [hsplice, List.take_left' hdigest, List.drop_left' hdigest, hrest]

/-- Connected or on the way, with a socket. -/
def Open (c : Connection) : Prop :=
  (c.connectionState = .Connecting ∨ c.connectionState = .Connected) ∧ c.isDisconnected = false

/-- A connection with a keystream, of which `n` bytes have been used. -/
structure Streaming (c : Connection) (p : ProtocolType) (keystream : ℕ → UInt8) (n : ℕ) : Prop where
  opened : c.Open
  firstPacketSent : c.firstPacketSent = true
  protocol : c.currentProtocolType = p
  keystream : c.stream crypto = keystream
  position : c.encryptPosition = n

variable {crypto} in
theorem Streaming.sent {p : ProtocolType} {keystream : ℕ → UInt8} {n : ℕ}
    (h : c.Streaming crypto p keystream n)
    (bytes written : List UInt8) :
    (c.sent bytes written).Streaming crypto p keystream (n + bytes.length) :=
  { h with position := congrArg (· + bytes.length) h.position }

/-- The 64 bytes hold the key and, under the keystream, the protocol. -/
theorem startStream_eq (hopen : c.Open) {block : List UInt8} (hblock : block.length = 64) :
    ∃ init c', c.startStream crypto c.useSecret block = (init, c') ∧ init.length = 64 ∧
      ((xorAt (streamOf crypto c.sharedSecret init) 0 init).drop 56).take 4 =
        List.replicate 4 c.currentProtocolType.tag ∧
      c'.Streaming crypto c.currentProtocolType (streamOf crypto c.sharedSecret init) 64 ∧
      c'.outgoingByteStream = c.outgoingByteStream := by
  have hlength := length_markedBlock (c := c) hblock c.useSecret
  have htag := markedBlock_tag (c := c) hblock c.useSecret
  generalize hbytes : c.markedBlock c.useSecret block = bytes at hlength htag
  have hkeys := setKeys_eq crypto (c := c) bytes
  have hstream : (c.setKeys crypto c.useSecret bytes).stream crypto =
      streamOf crypto c.sharedSecret bytes := by
    rw [streamOf, ← hkeys]
    rfl
  have htemp : ((xorAt (streamOf crypto c.sharedSecret bytes) 0 bytes).drop 56).length = 8 := by
    rw [List.length_drop, length_xorAt, hlength]
  generalize hinit :
    splice bytes 56 ((xorAt (streamOf crypto c.sharedSecret bytes) 0 bytes).drop 56) = init
  have hfront : init.take 56 = bytes.take 56 := by
    rw [← hinit]
    exact take_splice_of_le le_rfl (by omega)
  have hsame : streamOf crypto c.sharedSecret init = streamOf crypto c.sharedSecret bytes := by
    rw [streamOf, streamOf, streamKey_congr crypto hfront]
  refine ⟨init,
    { (c.setKeys crypto c.useSecret bytes).encrypt crypto bytes |>.2 with firstPacketSent := true },
    ?_, ?_, ?_, ?_, rfl⟩
  · rw [startStream, hbytes]
    show (splice bytes 56
      ((xorAt ((c.setKeys crypto c.useSecret bytes).stream crypto) 0 bytes).drop 56), _) = _
    rw [hstream, hinit]
    rfl
  · rw [← hinit, length_splice (by omega), hlength]
  · have hback : init.drop 56 = (xorAt (streamOf crypto c.sharedSecret bytes) 0 bytes).drop 56 := by
      have hnone : bytes.drop (56 + 8) = [] := List.drop_of_length_le (by omega)
      rw [← hinit, splice, htemp, hnone, List.append_nil]
      exact List.drop_left' (List.length_take_of_le (by omega))
    rw [hsame, drop_xorAt, hback, drop_xorAt, xorAt_xorAt, htag]
  · have hposition : ((c.setKeys crypto c.useSecret bytes).encrypt crypto bytes).2.encryptPosition =
        64 := by
      show 0 + bytes.length = 64
      omega
    exact ⟨hopen, rfl, rfl, hstream.trans hsame.symm, hposition⟩

theorem connected_of_open (hopen : c.Open) (connect : Connection → Connection) :
    c.connected connect = c := by
  apply if_neg
  rcases hopen.1 with h | h <;> simp [h]

theorem headerLen_le (p : ProtocolType) (packetLength : ℕ) : p.headerLen packetLength ≤ 4 := by
  cases p with
  | EF =>
      rw [ProtocolType.headerLen]
      split_ifs <;> omega
  | EE => exact le_rfl
  | DD => exact le_rfl

/-- The buffer of a first packet: the 64 bytes are in it, and there is room for the length. -/
theorem wf_firstBuffer {size : ℕ} (hsize : size ≤ 4) {init : List UInt8}
    (hinit : init.length = 64) :
    ∃ buffer : NativeByteBuffer, { (getFreeBuffer (size + 64)).setPosition 64 with
        buffer := splice ((getFreeBuffer (size + 64)).setPosition 64).buffer 0 init } = buffer ∧
      buffer.Wf ∧ buffer.filled = init ∧ buffer.position = 64 ∧ buffer.limit = size + 64 := by
  have hle := le_byteCount (size + 64)
  have hposition : (getFreeBuffer (size + 64)).setPosition 64 =
      ⟨List.replicate (byteCount (size + 64)) 0, 64, size + 64, byteCount (size + 64)⟩ := by
    rw [getFreeBuffer_eq, setPosition, if_neg (by simp)]
  have hlt : byteCount (size + 64) < 2 ^ 32 := byteCount_lt (by omega)
  refine ⟨_, rfl, ?_⟩
  rw [hposition]
  refine ⟨⟨?_, hle, ?_, hlt⟩, ?_, rfl, rfl⟩
  · show 64 ≤ size + 64
    omega
  · rw [length_splice (by rw [List.length_replicate]; omega), List.length_replicate]
  · show (splice _ 0 init).take 64 = init
    rw [← hinit, splice, List.take_zero, List.nil_append, List.take_left]

theorem protocolType_ne (c : Connection) : c.protocolType ≠ .EE := by
  rw [protocolType]
  split_ifs <;> simp

theorem sendData_of_open {connect : Connection → Connection} (hopen : (c.connected connect).Open) :
    c.sendData crypto connect s = (c.connected connect).sendPacket crypto s := by
  rw [sendData]
  exact if_neg (by rw [hopen.2]; exact Bool.false_ne_true)

theorem sendPacket_next (hfirst : c.firstPacketSent = true) {p : ProtocolType}
    (hp : c.currentProtocolType = p) :
    c.sendPacket crypto s = c.writePacket crypto s (s.paddingSize p)
      (p.packetLength s.buff.length (s.paddingSize p)) (getFreeBuffer (s.header p).length) := by
  rw [s.length_header]
  simp only [sendPacket, hfirst, if_true, hp, Send.paddingSize]

theorem sendPacket_first (hfirst : c.firstPacketSent = false) {init : List UInt8} {c' : Connection}
    (hstart : { c with currentProtocolType := c.protocolType }.startStream crypto c.useSecret
      s.draws.block =
      (init, c')) {p : ProtocolType} (hp : c.protocolType = p) :
    c.sendPacket crypto s = c'.writePacket crypto s (s.paddingSize p)
      (p.packetLength s.buff.length (s.paddingSize p))
      { (getFreeBuffer ((s.header p).length + 64)).setPosition 64 with
        buffer := splice ((getFreeBuffer ((s.header p).length + 64)).setPosition 64).buffer 0
          init } := by
  rw [s.length_header]
  simp only [sendPacket, hfirst, Bool.false_eq_true, if_false, hp, Send.paddingSize]
  rw [hp, hfirst] at hstart
  rw [hstart]

/-- A call appends the frame of its packet. -/
theorem sendData_next {p : ProtocolType} {keystream : ℕ → UInt8} {n : ℕ}
    (h : c.Streaming crypto p keystream n)
    (hp : p ≠ .EE) (hfits : s.Fits) (connect : Connection → Connection) :
    c.sendData crypto connect s = c.sent (s.frame p) (xorAt keystream n (s.frame p)) := by
  obtain ⟨hopen, hfirst, rfl, rfl, rfl⟩ := h
  have hheader := s.length_header c.currentProtocolType
  have hsize := headerLen_le c.currentProtocolType
    (c.currentProtocolType.packetLength s.buff.length (s.paddingSize c.currentProtocolType))
  generalize hbuffer : getFreeBuffer (s.header c.currentProtocolType).length = buffer
  have hwf : buffer.Wf := by
    rw [← hbuffer]
    exact wf_getFreeBuffer (by omega)
  rw [getFreeBuffer_eq] at hbuffer
  have hpacket := writePacket_eq crypto hfits hp buffer
    ⟨rfl, hwf, by rw [← hbuffer]; simp⟩ (by rw [← hbuffer]; simp)
  have hfilled : buffer.filled = [] := by rw [← hbuffer]; rfl
  rw [hfilled, List.nil_append] at hpacket
  have hconnected := connected_of_open hopen connect
  rw [← hpacket, sendData_of_open crypto (hconnected.symm ▸ hopen), hconnected,
    sendPacket_next crypto hfirst rfl, getFreeBuffer_eq, hbuffer]

/-- The first call puts the 64 bytes in front. -/
theorem sendData_first {connect : Connection → Connection} (hopen : (c.connected connect).Open)
    (hfirst : (c.connected connect).firstPacketSent = false) (hfits : s.Fits) :
    ∃ init, init.length = 64 ∧
      ((xorAt (streamOf crypto (c.connected connect).sharedSecret init) 0 init).drop 56).take 4 =
        List.replicate 4 (c.connected connect).protocolType.tag ∧
      (c.sendData crypto connect s).Streaming crypto (c.connected connect).protocolType
        (streamOf crypto (c.connected connect).sharedSecret init)
        (64 + (s.frame (c.connected connect).protocolType).length) ∧
      (c.sendData crypto connect s).outgoingByteStream = (c.connected connect).outgoingByteStream ++
        (init ++ xorAt (streamOf crypto (c.connected connect).sharedSecret init) 64
          (s.frame (c.connected connect).protocolType)) := by
  rw [sendData_of_open crypto hopen]
  generalize c.connected connect = c at hopen hfirst
  obtain ⟨init, c', hstart, hinit, htag, hstreaming, hwritten⟩ :=
    startStream_eq crypto (c := { c with currentProtocolType := c.protocolType }) hopen
      s.draws.length_block_eq
  have hprotocol : c'.currentProtocolType = c.protocolType := hstreaming.protocol
  have hheader : (s.header c'.currentProtocolType).length ≤ 4 := by
    rw [s.length_header]
    exact headerLen_le _ _
  obtain ⟨buffer, hbuffer, hwf, hfilled, hposition, hlimit⟩ := wf_firstBuffer hheader hinit
  have hpacket := writePacket_eq crypto (c := c') hfits (hprotocol ▸ protocolType_ne c) buffer
    ⟨rfl, hwf, by show buffer.position + _ ≤ buffer.limit; omega⟩ (by omega)
  rw [sendPacket_first crypto hfirst hstart hprotocol.symm, hbuffer, hpacket, hfilled,
    hstreaming.keystream, hstreaming.position, hprotocol]
  refine ⟨init, hinit, htag, hstreaming.sent _ _, ?_⟩
  show c'.outgoingByteStream ++ _ = _
  rw [hwritten]
  rfl

/-- Further calls append further frames. -/
theorem sendAll_next {p : ProtocolType} {keystream : ℕ → UInt8} {n : ℕ}
    (h : c.Streaming crypto p keystream n)
    (hp : p ≠ .EE) {sends : List Send} (hfits : ∀ s ∈ sends, s.Fits)
    (connect : Connection → Connection) :
    (sends.foldl (fun c s => c.sendData crypto connect s) c).outgoingByteStream =
      c.outgoingByteStream ++ xorAt keystream n (sends.flatMap fun s => s.frame p) := by
  induction sends generalizing c n with
  | nil => simp [xorAt]
  | cons s sends ih =>
      rw [List.foldl_cons, sendData_next crypto h hp (hfits s List.mem_cons_self),
        ih (h.sent _ _) fun s' hs' => hfits s' (List.mem_cons_of_mem _ hs'), List.flatMap_cons,
          xorAt_append]
      simp only [sent, List.append_assoc]

end Connection

/-! ## What is received -/

theorem takeFrame_append {headerLen length : ℕ} {reportAck : Bool} {header body rest : List UInt8}
    (hheader : header.length = headerLen) (hbody : body.length = length) :
    takeFrame headerLen reportAck length (header ++ body ++ rest) =
      some (⟨reportAck, body⟩, rest) := by
  have hshort : ¬ (header ++ body ++ rest).length < headerLen + length := by
    rw [List.length_append, List.length_append]
    omega
  have hboth : (header ++ body).length = headerLen + length := by
    rw [List.length_append, hheader, hbody]
  rw [takeFrame, if_neg hshort, List.drop_left' hboth, List.append_assoc, List.drop_left' hheader,
    List.take_left' hbody]

namespace Send

variable {s : Send} {p : ProtocolType}

/-- What a packet is read as. -/
def received (s : Send) (p : ProtocolType) : Frame := ⟨s.reportAck, s.buff ++ s.padding p⟩

theorem length_padding (s : Send) (p : ProtocolType) : (s.padding p).length = s.paddingSize p :=
  s.draws.length_paddingBytes _

/-- The bit that tells whether an ack is wanted. -/
theorem ack_of_word {n i : ℕ} (hn : n < 2 ^ i) (reportAck : Bool) :
    decide (2 ^ i ≤ n + if reportAck then 2 ^ i else 0) = reportAck := by
  cases reportAck
  · simpa using hn
  · simp

theorem mod_of_word {n i : ℕ} (hn : n < 2 ^ i) (reportAck : Bool) :
    (n + if reportAck then 2 ^ i else 0) % 2 ^ i = n := by
  cases reportAck
  · simpa using Nat.mod_eq_of_lt hn
  · simpa using Nat.mod_eq_of_lt hn

theorem readFrame_word {length : ℕ} (hlength : length < 2 ^ 31) {reportAck : Bool}
    {body : List UInt8}
    (hbody : body.length = length) (rest : List UInt8) :
    readFrame .DD (toLE 4 (length + if reportAck then 2 ^ 31 else 0) ++ body ++ rest) =
      some (⟨reportAck, body⟩, rest) := by
  have hlt : (length + if reportAck then 2 ^ 31 else 0) < 256 ^ 4 := by split_ifs <;> omega
  have hword : leNat ((toLE 4 (length + if reportAck then 2 ^ 31 else 0) ++ body ++ rest).take 4) =
      length + if reportAck then 2 ^ 31 else 0 := by
    rw [List.append_assoc, List.take_left' (length_toLE _ _), leNat_toLE_of_lt hlt]
  show takeFrame 4 (decide (2 ^ 31 ≤ leNat (List.take 4 _))) (leNat (List.take 4 _) % 2 ^ 31) _ = _
  rw [hword, ack_of_word hlength, mod_of_word hlength]
  exact takeFrame_append (length_toLE _ _) hbody

theorem readFrame_short {length : ℕ} (hlength : length < 0x7f) {reportAck : Bool}
    {body : List UInt8}
    (hbody : body.length = length * 4) (rest : List UInt8) :
    readFrame .EF ([UInt8.ofNat (length + if reportAck then 2 ^ 7 else 0)] ++ body ++ rest) =
      some (⟨reportAck, body⟩, rest) := by
  have hlt : length < 2 ^ 7 := by omega
  have hfirst :
      leNat (([UInt8.ofNat (length + if reportAck then 2 ^ 7 else 0)] ++ body ++ rest).take 1) =
      length + if reportAck then 2 ^ 7 else 0 := by
    have hbyte : (length + if reportAck then 2 ^ 7 else 0) < 256 := by split_ifs <;> omega
    show (UInt8.ofNat (length + if reportAck then 2 ^ 7 else 0)).toNat + 256 * 0 = _
    rw [UInt8.toNat_ofNat', Nat.mod_eq_of_lt hbyte]
    rfl
  rw [readFrame, hfirst, ack_of_word hlt, mod_of_word hlt, if_neg (by omega)]
  exact takeFrame_append rfl hbody

theorem readFrame_long {length : ℕ} (hlength : length < 2 ^ 24) {reportAck : Bool}
    {body : List UInt8}
    (hbody : body.length = length * 4) (rest : List UInt8) :
    readFrame .EF (toLE 4 (length * 2 ^ 8 + 0x7f + if reportAck then 2 ^ 7 else 0) ++ body ++
      rest) =
      some (⟨reportAck, body⟩, rest) := by
  have hlt : (length * 2 ^ 8 + 0x7f + if reportAck then 2 ^ 7 else 0) <
    256 ^ 4 := by split_ifs <;> omega
  have hlow : (length * 2 ^ 8 + 0x7f + if reportAck then 2 ^ 7 else 0) % 256 =
      0x7f + if reportAck then 2 ^ 7 else 0 := by
    split_ifs <;> omega
  have hhigh : (length * 2 ^ 8 + 0x7f + if reportAck then 2 ^ 7 else 0) / 2 ^ 8 = length := by
    split_ifs <;> omega
  generalize length * 2 ^ 8 + 0x7f + (if reportAck then 2 ^ 7 else 0) = word at hlt hlow hhigh
  have hfirst : leNat ((toLE 4 word ++ body ++ rest).take 1) =
      0x7f + if reportAck then 2 ^ 7 else 0 := by
    show (UInt8.ofNat word).toNat + 256 * 0 = _
    rw [UInt8.toNat_ofNat', ← hlow]
    rfl
  have hword : leNat ((toLE 4 word ++ body ++ rest).take 4) = word := by
    rw [List.append_assoc, List.take_left' (length_toLE _ _), leNat_toLE_of_lt hlt]
  rw [readFrame, hfirst, hword, hhigh, ack_of_word (by decide), mod_of_word (by decide), if_pos rfl]
  exact takeFrame_append (length_toLE _ _) hbody

/-- One frame is read back. -/
theorem readFrame_frame (hfits : s.Fits) (hp : p ≠ .EE) (rest : List UInt8) :
    readFrame p (s.frame p ++ rest) = some (s.received p, rest) := by
  have hwords := hfits.words
  have hshort := hfits.short
  have hbody : (s.buff ++ s.padding p).length = s.buff.length + s.paddingSize p := by
    rw [List.length_append, length_padding]
  rw [frame, List.append_assoc (s.header p)]
  cases p with
  | EF =>
      have hlength : (s.buff ++ s.padding .EF).length = s.buff.length / 4 * 4 := by
        rw [hbody, show s.paddingSize .EF = 0 from rfl]
        omega
      rw [header, ProtocolType.packetLength, ProtocolType.lengthBytes]
      by_cases hn : s.buff.length / 4 < 0x7f
      · rw [if_pos hn]
        exact readFrame_short hn hlength rest
      · rw [if_neg hn]
        exact readFrame_long (by omega) hlength rest
  | EE => exact absurd rfl hp
  | DD =>
      have hholds : u32 (s.buff.length + s.paddingSize .DD) < 2 ^ 31 := hfits.holds hp
      have hu32 : u32 (s.buff.length + s.paddingSize .DD) = s.buff.length + s.paddingSize .DD := by
        have hpadding := s.paddingSize_lt
        exact u32_of_lt (by omega)
      exact readFrame_word hholds (hbody.trans hu32.symm) rest

theorem length_frame_pos (s : Send) (p : ProtocolType) : 0 < (s.frame p).length := by
  have hheader : 0 < p.headerLen (p.packetLength s.buff.length (s.paddingSize p)) := by
    cases p with
    | EF =>
        rw [ProtocolType.headerLen]
        split_ifs <;> decide
    | EE => exact Nat.succ_pos 3
    | DD => exact Nat.succ_pos 3
  rw [frame, List.length_append, List.length_append, length_header]
  omega

/-- All frames are read back, in order. -/
theorem readFrames_frames (hp : p ≠ .EE) {sends : List Send} (hfits : ∀ s ∈ sends, s.Fits)
    {fuel : ℕ}
    (hfuel : (sends.flatMap fun s => s.frame p).length ≤ fuel) :
    readFrames p fuel (sends.flatMap fun s => s.frame p) =
      some (sends.map fun s => s.received p) := by
  induction sends generalizing fuel with
  | nil => simp [readFrames]
  | cons s sends ih =>
      have hread :=
        readFrame_frame (hfits s List.mem_cons_self) hp (sends.flatMap fun s => s.frame p)
      rw [List.flatMap_cons, List.length_append] at hfuel
      obtain ⟨b, bs, hcons⟩ := List.exists_cons_of_length_pos (length_frame_pos s p)
      rw [List.flatMap_cons, List.map_cons]
      rw [hcons, List.cons_append] at hread ⊢
      rw [hcons, List.length_cons] at hfuel
      obtain ⟨fuel, rfl⟩ : ∃ n, fuel = n + 1 := ⟨fuel - 1, by omega⟩
      show (readFrame p _ >>= fun read => readFrames p fuel read.2 >>= fun frames =>
        some (read.1 :: frames)) = _
      rw [hread]
      show (readFrames p fuel _ >>= fun _ => _) = _
      rw [ih (fun s' hs' => hfits s' (List.mem_cons_of_mem _ hs')) (by omega)]
      rfl

theorem carried_received (s : Send) (hp : p ≠ .EE) : s.Carried p (s.received p) := by
  refine ⟨rfl, s.padding p, rfl, ?_⟩
  rw [length_padding, paddingSize]
  cases p with
  | EF => exact le_rfl
  | EE => exact absurd rfl hp
  | DD =>
      simp only [ProtocolType.additinalPacketSize]
      split_ifs <;> omega

end Send

/-! ## The whole stream -/

theorem protocolOf_tag (p : ProtocolType) : protocolOf (List.replicate 4 p.tag) = some p := by
  cases p <;> decide

theorem receive_frames (crypto : Crypto) {sharedSecret : Option (List UInt8)} {init : List UInt8}
    {p : ProtocolType}
    (hinit : init.length = 64)
    (htag : ((xorAt (streamOf crypto sharedSecret init) 0 init).drop 56).take 4 =
      List.replicate 4 p.tag)
    (hp : p ≠ .EE) {sends : List Send} (hfits : ∀ s ∈ sends, s.Fits) :
    receive crypto sharedSecret
        (init ++ xorAt (streamOf crypto sharedSecret init) 64 (sends.flatMap fun s => s.frame p)) =
      some (sends.map fun s => s.received p) := by
  generalize hframes : sends.flatMap (fun s => s.frame p) = frames
  have hfront : (xorAt (streamOf crypto sharedSecret init) 0 init).length =
    64 := by rw [length_xorAt, hinit]
  have hplain : xorAt (streamOf crypto sharedSecret init) 0
      (init ++ xorAt (streamOf crypto sharedSecret init) 64 frames) =
      xorAt (streamOf crypto sharedSecret init) 0 init ++ frames := by
    rw [xorAt_append, hinit, xorAt_xorAt]
  have hnamed : ((xorAt (streamOf crypto sharedSecret init) 0 init ++ frames).drop 56).take 4 =
      List.replicate 4 p.tag := by
    rw [List.drop_append_of_le_length (by omega), List.take_append_of_le_length, htag]
    rw [List.length_drop, hfront]
    decide
  rw [receive, List.take_left' hinit]
  simp only [hplain, hnamed, protocolOf_tag, List.drop_left' hfront]
  rw [← hframes]
  apply Send.readFrames_frames hp hfits
  rw [hframes, List.length_append]
  exact Nat.le_add_left _ _

/-- The calls of `sendData` write 64 bytes and the frames of the packets under one keystream, and
the other side, which takes the key from the 64 bytes and the secret, gets the packets and the acks
back, in order. -/
theorem receive_sends (crypto : Crypto) (connect : Connection → Connection) (c : Connection)
    (first : Send)
    (later : List Send) (hopen : (c.connected connect).Open)
    (hfirst : (c.connected connect).firstPacketSent = false)
    (hwords : ∀ s ∈ first :: later, s.buff.length % 4 = 0)
    (hshort : ∀ s ∈ first :: later, s.buff.length < 2 ^ 24 * 4) :
    ∃ init stream, init.length = 64 ∧
      stream = init ++ xorAt (streamOf crypto (c.connected connect).sharedSecret init) 64
        ((first :: later).flatMap fun s => s.frame (c.connected connect).protocolType) ∧
      ((first :: later).foldl (fun c s => c.sendData crypto connect s) c).outgoingByteStream =
        (c.connected connect).outgoingByteStream ++ stream ∧
      ∃ frames, receive crypto (c.connected connect).sharedSecret stream = some frames ∧
        List.Forall₂ (fun s f => s.Carried (c.connected connect).protocolType f)
          (first :: later) frames := by
  have hfits : ∀ s ∈ first :: later, s.Fits := fun s hs => ⟨hwords s hs, hshort s hs⟩
  have hp := (c.connected connect).protocolType_ne
  obtain ⟨init, hinit, htag, hstreaming, hwritten⟩ :=
    Connection.sendData_first crypto hopen hfirst (hfits first List.mem_cons_self)
  have hlater := Connection.sendAll_next crypto hstreaming hp
    (fun s hs => hfits s (List.mem_cons_of_mem _ hs)) connect
  refine ⟨init, _, hinit, rfl, ?_, (first :: later).map fun s =>
    s.received (c.connected connect).protocolType, ?_, ?_⟩
  · rw [List.foldl_cons, hlater, hwritten, List.flatMap_cons, xorAt_append, List.append_assoc,
      List.append_assoc]
  · exact receive_frames crypto hinit htag hp hfits
  · rw [List.forall₂_map_right_iff, List.forall₂_same]
    exact fun s _ => s.carried_received hp

/-- A keystream that counts. -/
def countingCrypto : Crypto where
  sha256 _ := List.replicate 32 0
  length_sha256 _ := List.length_replicate
  keystream _ _ n := UInt8.ofNat n

def plainDraws : Draws where
  additinalPacketSize := 0
  padding _ := 0
  blocks := [List.replicate 64 1]
  length_block := by simp
  isSome_find := by decide +kernel

/-- A connection without a secret. -/
def plainConnection : Connection :=
  ⟨.Connecting, 3, .Generic, false, 2, [], [], [], [], [], false, .EE, [], [], 0, [], [], 0, []⟩

/-- A short packet with an ack and a long one without. -/
theorem receive_sends_plain :
    ∃ stream frames,
      ([⟨[1, 2, 3, 4], true, false, plainDraws⟩,
        ⟨List.replicate 508 7, false, true, plainDraws⟩].foldl
        (fun c s => c.sendData countingCrypto id s) plainConnection).outgoingByteStream = stream ∧
      receive countingCrypto none stream = some frames ∧
        frames.map Frame.reportAck = [true, false] := by
  have hlong : (List.replicate 508 (7 : UInt8)).length = 508 := List.length_replicate
  obtain ⟨init, stream, -, -, hwritten, frames, hreceived, hcarried⟩ :=
    receive_sends countingCrypto id plainConnection ⟨[1, 2, 3, 4], true, false, plainDraws⟩
      [⟨List.replicate 508 7, false, true, plainDraws⟩] ⟨.inl rfl, rfl⟩ rfl
      (List.forall_mem_cons.2 ⟨by decide, List.forall_mem_singleton.2 (by rw [hlong])⟩)
      (List.forall_mem_cons.2 ⟨by decide, List.forall_mem_singleton.2 (by rw [hlong]; decide)⟩)
  refine ⟨stream, frames, hwritten, hreceived, ?_⟩
  cases hcarried with
  | cons hfirst hrest =>
      cases hrest with
      | cons hsecond hnil =>
          cases hnil
          rw [List.map_cons, List.map_cons, hfirst.1, hsecond.1]
          rfl

end Mtproto.Tgnet
