import Mtproto.Lib.Keystream
import Mtproto.Tgnet.Receive
import Mtproto.Streams.Native

/-!
# Sending packets

`Connection::sendData` and `encryptKeyWithSecret`.  SHA-256 and AES in counter mode are parameters
(`Crypto`): the three values `AES_ctr128_encrypt` keeps between two calls (`ivec`, `ecount_buf`,
`num`) are the position in the keystream.  What `RAND_bytes` gives to a call is an argument of it
(`Draws`), and so is what `connect` does to the connection.
-/

namespace Mtproto.Tgnet

open Bytes Keystream

/-! ## Parameters -/

structure Crypto where
  sha256 : List UInt8 → List UInt8
  length_sha256 : ∀ message, (sha256 message).length = 32
  /-- The byte of the keystream for a key, an iv and a position. -/
  keystream : List UInt8 → List UInt8 → ℕ → UInt8

/-- The test of the loop that draws the first 64 bytes. -/
def isFirstBlock (bytes : List UInt8) : Bool :=
  let val := leNat (bytes.take 4)
  let val2 := leNat ((bytes.drop 4).take 4)
  bytes.head? ≠ some 0xef && val ≠ 0x44414548 && val ≠ 0x54534f50 && val ≠ 0x20544547 && val ≠
    0x4954504f &&
    val ≠ 0xeeeeeeee && val ≠ 0xdddddddd && val2 ≠ 0x00000000

/-- What `RAND_bytes` gives to one call: the size of the padding, the padding, and blocks of which
one passes the test (the loop does not end before). -/
structure Draws where
  additinalPacketSize : UInt32
  padding : ℕ → UInt8
  blocks : List (List UInt8)
  length_block : ∀ block ∈ blocks, block.length = 64
  isSome_find : (blocks.find? isFirstBlock).isSome = true

namespace Draws

/-- The block the loop leaves with. -/
def block (draws : Draws) : List UInt8 := (draws.blocks.find? isFirstBlock).get draws.isSome_find

def paddingBytes (draws : Draws) (size : ℕ) : List UInt8 := (List.range size).map draws.padding

theorem length_block_eq (draws : Draws) : draws.block.length = 64 :=
  draws.length_block _ (List.mem_of_find?_eq_some (Option.some_get draws.isSome_find).symm)

@[simp] theorem length_paddingBytes (draws : Draws) (size : ℕ) :
    (draws.paddingBytes size).length = size := by
  simp [paddingBytes]

end Draws

/-! ## The connection -/

inductive TcpConnectionState where
  | Idle
  | Connecting
  | Reconnecting
  | Connected
  | Suspended
  deriving DecidableEq, Repr

inductive ConnectionType where
  | Generic
  | Download
  | Upload
  | Push
  | Temp
  | Proxy
  | GenericMedia
  deriving DecidableEq, Repr

/-- What `sendData` reads and changes.  The addresses and secrets are those of the connection and of
`ConnectionsManager`; a `std::string` is its bytes.  `outgoingByteStream` holds everything that was
ever handed to `writeBuffer`. -/
structure Connection where
  connectionState : TcpConnectionState
  socketFd : ℤ
  connectionType : ConnectionType
  isMediaConnection : Bool
  datacenterId : ℕ
  overrideProxyAddress : List UInt8
  overrideProxySecret : List UInt8
  proxyAddress : List UInt8
  proxySecret : List UInt8
  secret : List UInt8
  firstPacketSent : Bool
  currentProtocolType : ProtocolType
  encryptKey : List UInt8
  encryptIv : List UInt8
  encryptPosition : ℕ
  decryptKey : List UInt8
  decryptIv : List UInt8
  decryptPosition : ℕ
  outgoingByteStream : List UInt8
  deriving DecidableEq, Repr

/-- A call of `sendData`: the bytes up to the limit of `buff`, the two flags, and what is drawn. -/
structure Send where
  buff : List UInt8
  reportAck : Bool
  encrypted : Bool
  draws : Draws

/-! ## Lengths -/

namespace ProtocolType

/-- The four bytes that name the protocol. -/
def tag : ProtocolType → UInt8
  | EF => 0xef
  | EE => 0xee
  | DD => 0xdd

variable (p : ProtocolType)

/-- The size of the padding. -/
def additinalPacketSize (encrypted : Bool) (drawn : ℕ) : ℕ :=
  match p with
  | EF => 0
  | DD => if encrypted then drawn % 16 else drawn % 257
  | EE =>
    if encrypted then drawn
    else
      let size := drawn % 257
      if size % 4 ≠ 0 then size + (4 - size % 4) else size

def packetLength (limit additinalPacketSize : ℕ) : ℕ :=
  match p with
  | EF => limit / 4
  | _ => u32 (limit + additinalPacketSize)

/-- The number of bytes of the length. -/
def headerLen (packetLength : ℕ) : ℕ :=
  match p with
  | EF => if packetLength < 0x7f then 1 else 4
  | _ => 4

def writeLength (packetLength : ℕ) (reportAck : Bool) (buffer : Output) : Output :=
  match p with
  | EF =>
    if packetLength < 0x7f then
      buffer.writeByte (UInt8.ofNat (if reportAck then packetLength ||| 2 ^ 7 else packetLength))
    else
      let packetLength := u32 (packetLength <<< 8 + 0x7f)
      buffer.writeInt32
        (BitVec.ofNat 32 (if reportAck then packetLength ||| 2 ^ 7 else packetLength))
  | _ => buffer.writeInt32
      (BitVec.ofNat 32 (if reportAck then packetLength ||| 2 ^ 31 else packetLength))

end ProtocolType

/-! ## Secrets -/

def char2int (input : UInt8) : UInt8 :=
  if '0'.toUInt8 ≤ input && input ≤ '9'.toUInt8 then input - '0'.toUInt8
  else if 'A'.toUInt8 ≤ input && input ≤ 'F'.toUInt8 then input - 'A'.toUInt8 + 10
  else if 'a'.toUInt8 ≤ input && input ≤ 'f'.toUInt8 then input - 'a'.toUInt8 + 10
  else 0

/-- A secret of 17 bytes that starts with `dd`. -/
def startsWithDD (secret : List UInt8) : Bool :=
  secret.length = 34 && secret.head? = some 'd'.toUInt8 && (secret.drop 1).head? = some 'd'.toUInt8

/-- The bytes of a secret that are hashed. -/
def secretBytes (secret : List UInt8) : List UInt8 :=
  let first := if startsWithDD secret then 1 else 0
  (List.range' first (secret.length / 2 - first)).map fun a =>
    char2int (secret.getD (a * 2) 0) * 16 + char2int (secret.getD (a * 2 + 1) 0)

namespace Connection

variable (crypto : Crypto) (c : Connection)

def isDisconnected : Bool := c.socketFd < 0

/-- The local `useSecret` of the first packet. -/
def useSecret : ℕ :=
  if c.overrideProxyAddress ≠ [] then
    if c.overrideProxySecret ≠ [] then 1
    else if c.secret ≠ [] then 2
    else 0
  else if c.proxyAddress ≠ [] ∧ c.proxySecret ≠ [] then 1
  else if c.secret ≠ [] then 2
  else 0

def getCurrentSecret (secretType : ℕ) : List UInt8 :=
  if secretType = 2 then c.secret
  else if c.overrideProxySecret ≠ [] then c.overrideProxySecret
  else c.proxySecret

/-- The protocol of the first packet. -/
def protocolType : ProtocolType :=
  if c.useSecret ≠ 0 then
    if startsWithDD (c.getCurrentSecret c.useSecret) then .DD else .EF
  else .EF

def encryptKeyWithSecret (bytes : List UInt8) (secretType : ℕ) : List UInt8 :=
  if secretType = 0 then bytes
  else splice bytes 0 (crypto.sha256 (bytes.take 32 ++ secretBytes (c.getCurrentSecret secretType)))

/-! ## The first packet -/

/-- `datacenterId` as the bits of an `int16_t`. -/
def datacenterIdBits : ℕ :=
  let datacenterId := c.datacenterId % 2 ^ 16
  if c.isMediaConnection ∧ c.connectionType ≠ .GenericMedia then (2 ^ 16 - datacenterId) % 2 ^ 16
  else datacenterId

/-- The drawn block with the protocol and the datacenter in it. -/
def markedBlock (useSecret : ℕ) (block : List UInt8) : List UInt8 :=
  let bytes := splice block 56 (List.replicate 4 c.currentProtocolType.tag)
  if useSecret ≠ 0 then splice bytes 60 (toLE 2 c.datacenterIdBits) else bytes

/-- `AES_ctr128_encrypt` with the state of the sending side. -/
def encrypt (bytes : List UInt8) : List UInt8 × Connection :=
  (xorAt (crypto.keystream c.encryptKey c.encryptIv) c.encryptPosition bytes,
    { c with encryptPosition := c.encryptPosition + bytes.length })

/-- The keys from the 64 bytes. -/
def setKeys (useSecret : ℕ) (bytes : List UInt8) : Connection :=
  let temp := (bytes.drop 8).take 48
  let sending := c.encryptKeyWithSecret crypto temp useSecret
  let receiving := c.encryptKeyWithSecret crypto temp.reverse useSecret
  { c with
    encryptKey := sending.take 32
    encryptIv := (sending.drop 32).take 16
    encryptPosition := 0
    decryptKey := receiving.take 32
    decryptIv := (receiving.drop 32).take 16
    decryptPosition := 0 }

/-- The 64 bytes in front of the first packet. -/
def startStream (useSecret : ℕ) (block : List UInt8) : List UInt8 × Connection :=
  let bytes := c.markedBlock useSecret block
  let (temp, c) := (c.setKeys crypto useSecret bytes).encrypt crypto bytes
  (splice bytes 56 (temp.drop 56), { c with firstPacketSent := true })

/-! ## The rest of a packet -/

/-- Encrypts the last bytes before the limit in place. -/
def encryptLast (n : ℕ) (buffer : NativeByteBuffer) : NativeByteBuffer × Connection :=
  let start := buffer.limit - n
  let (bytes, c) := c.encrypt crypto ((buffer.buffer.drop start).take n)
  ({ buffer with buffer := splice buffer.buffer start bytes }, c)

/-- `writeBuffer` of everything between position and limit. -/
def writeBuffer (buffer : NativeByteBuffer) : Connection :=
  { c with outgoingByteStream := c.outgoingByteStream ++ buffer.unread }

/-- The end of `sendData`: the length, behind what is in `buffer` already, the packet and its
padding. -/
def writePacket (s : Send) (additinalPacketSize packetLength : ℕ) (buffer : NativeByteBuffer) :
    Connection :=
  let p := c.currentProtocolType
  let buffer := (p.writeLength packetLength s.reportAck { buffer := buffer }).buffer
  let (buffer, c) := c.encryptLast crypto (p.headerLen packetLength) buffer
  let c := c.writeBuffer buffer.rewind
  let (buff, c) := c.encrypt crypto s.buff
  let c := c.writeBuffer (.sliced buff)
  if additinalPacketSize > 0 then
    let (padding, c) := c.encrypt crypto (s.draws.paddingBytes additinalPacketSize)
    c.writeBuffer (.sliced padding)
  else c

/-- The part of `sendData` behind the checks. -/
def sendPacket (s : Send) : Connection :=
  let useSecret := if c.firstPacketSent then 0 else c.useSecret
  let c := if c.firstPacketSent then c else { c with currentProtocolType := c.protocolType }
  let p := c.currentProtocolType
  let additinalPacketSize := p.additinalPacketSize s.encrypted s.draws.additinalPacketSize.toNat
  let packetLength := p.packetLength s.buff.length additinalPacketSize
  let bufferLen := p.headerLen packetLength
  if c.firstPacketSent then
    c.writePacket crypto s additinalPacketSize packetLength (getFreeBuffer bufferLen)
  else
    let buffer := (getFreeBuffer (bufferLen + 64)).setPosition 64
    let (bytes, c) := c.startStream crypto useSecret s.draws.block
    c.writePacket crypto s additinalPacketSize packetLength
      { buffer with buffer := splice buffer.buffer 0 bytes }

variable (connect : Connection → Connection)

/-- A connection that is not connected is connected first. -/
def connected : Connection :=
  if c.connectionState = .Idle ∨ c.connectionState = .Reconnecting ∨
    c.connectionState = .Suspended then connect c
  else c

def sendData (s : Send) : Connection :=
  let c := c.connected connect
  if c.isDisconnected then c else c.sendPacket crypto s

end Connection

end Mtproto.Tgnet
