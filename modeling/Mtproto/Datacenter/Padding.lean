import Mtproto.Datacenter.RequestsData
import Mtproto.Scheme.Deserialize
import Mtproto.Session.ConnectionSession

/-!
# Padding

The encrypted branch of `onConnectionDataReceived` behind `decryptServerResponse`, as a parser of
the decrypted bytes, and what it does for two messages that differ in their padding only.  The
parsers are bounded by the end of the buffer and not by the length of the message.
-/

namespace Mtproto.Datacenter

open Bytes Lib Lib.Interruptible Tgnet Scheme Scheme.Scan Session

/-! ## The branch -/

/-- What the branch finds: the session of the connection, the running requests and the room on the
stack. -/
structure Client where
  session : ConnectionSession
  requests : Requests
  room : ℕ

/-- How the branch ends. -/
inductive Receipt where
  | otherSession
  | doNotProcess
  | processServerResponse (object : Scheme.TLObject) (messageId : BitVec 64)
      (messageSeqNo : BitVec 32)
      (messageServerSalt : BitVec 64)
  | onUnparsedMessageReceived

/-- With an object or without. -/
def Receipt.of (messageId : BitVec 64) (messageSeqNo : BitVec 32) (messageServerSalt : BitVec 64) :
    Option Scheme.TLObject → Receipt
  | some object => .processServerResponse object messageId messageSeqNo messageServerSalt
  | none => .onUnparsedMessageReceived

def onDecrypted (c : Client) : Scheme.Scan Receipt := do
  let messageServerSalt ← readInt64
  let messageSessionId ← readInt64
  if messageSessionId.toInt ≠ c.session.sessionId then pure .otherSession
  else do
    let messageId ← readInt64
    let messageSeqNo ← readInt32
    let messageLength ← readUint32
    if c.session.isMessageIdProcessed messageId.toInt = true then pure .doNotProcess
    else do
      let object ← TLdeserialize c.requests c.room none messageLength
      pure (Receipt.of messageId messageSeqNo messageServerSalt object)

/-- The branch over decrypted bytes. -/
def received (c : Client) (bytes : List UInt8) : Option Receipt × Stream :=
  onDecrypted c { buffer := .sliced bytes }

/-- A call out of the branch. -/
inductive BranchCall where
  | processServerResponse (object : Scheme.TLObject) (messageId : BitVec 64)
      (messageSeqNo : BitVec 32)
      (messageServerSalt : BitVec 64)
  /-- The buffer is passed on as it is. -/
  | onUnparsedMessageReceived (data : NativeByteBuffer)

def calls (c : Client) (bytes : List UInt8) : List BranchCall :=
  match (received c bytes).1 with
  | some (.processServerResponse object messageId messageSeqNo messageServerSalt) =>
      [.processServerResponse object messageId messageSeqNo messageServerSalt]
  | some .onUnparsedMessageReceived => [.onUnparsedMessageReceived (received c bytes).2.buffer]
  | _ => []

instance (c : Client) (e : ℕ) : Blind (Stream.Agree e) (Stream.Within e) (onDecrypted c) := by
  unfold onDecrypted
  infer_instance

/-! ## Two frames -/

section Frames

variable {crypto : Crypto} {k : AuthKey}

/-- A frame that `decryptServerResponse` accepts.  Behind the whole blocks custom padding leaves a
few bytes. -/
structure AcceptedFrame (crypto : Crypto) (k : AuthKey) where
  scratch : Scratch
  keyId : BitVec 64
  key : Block 16
  data : Ciphertext
  plaintext : List UInt8
  accepted : decryptServerResponse crypto k 2 scratch keyId key.1 data.bytes = (true, plaintext)
  tail : List UInt8
  short : tail.length < 16

/-- What the buffer holds from the message on. -/
def AcceptedFrame.bytes (f : AcceptedFrame crypto k) : List UInt8 := f.plaintext ++ f.tail

/-- Where the message ends by the length in its header. -/
def AcceptedFrame.declaredEnd (f : AcceptedFrame crypto k) : ℕ :=
  32 + leNat (slice f.plaintext 28 4)

/-- Frames of one length that differ behind the message only. -/
structure SameMessage (f g : AcceptedFrame crypto k) : Prop where
  length : g.bytes.length = f.bytes.length
  front : g.bytes.take f.declaredEnd = f.bytes.take f.declaredEnd

/-- No byte behind the message is looked at. -/
def StaysWithin (c : Client) (f : AcceptedFrame crypto k) : Prop :=
  (received c f.bytes).2.reach ≤ f.declaredEnd

/-- The same call, with a buffer that may hold other bytes from `e` on. -/
inductive BranchCall.Alike (e : ℕ) : BranchCall → BranchCall → Prop
  | processServerResponse (object : Scheme.TLObject) (messageId : BitVec 64)
      (messageSeqNo : BitVec 32)
      (messageServerSalt : BitVec 64) :
      Alike e (.processServerResponse object messageId messageSeqNo messageServerSalt)
        (.processServerResponse object messageId messageSeqNo messageServerSalt)
  | onUnparsedMessageReceived (data : NativeByteBuffer) (bytes : List UInt8)
      (front : bytes.take e = data.buffer.take e) :
      Alike e (.onUnparsedMessageReceived data)
        (.onUnparsedMessageReceived { data with buffer := bytes })

/-- The branch over bytes that are the same as far as it looks. -/
theorem received_congr (c : Client) {bytes bytes' : List UInt8} {e : ℕ}
    (length : bytes'.length = bytes.length)
    (front : bytes'.take e = bytes.take e) (within : (received c bytes).2.reach ≤ e) :
    (received c bytes').1 = (received c bytes).1 ∧
      ∃ store, store.take e = (received c bytes).2.buffer.buffer.take e ∧
        (received c bytes').2.buffer = { (received c bytes).2.buffer with buffer := store } := by
  unfold received at within ⊢
  have agree : Stream.Agree e { buffer := .sliced bytes } { buffer := .sliced bytes' } := by
    refine ⟨bytes', 0, [], front, length, ?_⟩
    simp only [Stream.onBytes, Scheme.onBytes, NativeByteBuffer.sliced, length]
  have blind : Blind (Stream.Agree e) (Stream.Within e) (onDecrypted c) := inferInstance
  obtain ⟨receipt, store, reach, iterations, same, -, last⟩ := blind.blind _ _ agree within
  refine ⟨receipt, store, same, ?_⟩
  rw [last]
  rfl

/-- The calls and the object do not depend on the padding unless the parsers look at it. -/
theorem calls_padding (c : Client) {f g : AcceptedFrame crypto k} (same : SameMessage f g)
    (within : StaysWithin c f) :
    (received c g.bytes).1 = (received c f.bytes).1 ∧
      List.Forall₂ (BranchCall.Alike f.declaredEnd) (calls c f.bytes) (calls c g.bytes) := by
  obtain ⟨receipt, store, front, buffer⟩ := received_congr c same.length same.front within
  refine ⟨receipt, ?_⟩
  unfold calls
  rw [receipt, buffer]
  generalize (received c f.bytes).2.buffer = data at front ⊢
  generalize (received c f.bytes).1 = receipt
  rcases receipt with _ | receipt
  · exact .nil
  · cases receipt with
    | otherSession => exact .nil
    | doNotProcess => exact .nil
    | processServerResponse object messageId messageSeqNo messageServerSalt =>
      exact .cons (.processServerResponse object messageId messageSeqNo messageServerSalt) .nil
    | onUnparsedMessageReceived => exact .cons (.onUnparsedMessageReceived data store front) .nil

end Frames

/-! ## Frames with other padding -/

/-- A frame with a sample. -/
def frameOf {crypto : Crypto} (s : Sample)
    (blocks : 32 ≤ s.cipher.length ∧ s.cipher.length % 16 = 0 ∧ s.cipher.length < 2 ^ 32)
    (accepted : decryptServerResponse crypto sampleAuthKey 2 sampleScratch 0x0123456789abcdef
      s.key.1 s.cipher =
      (true, s.plaintext)) : AcceptedFrame crypto sampleAuthKey where
  scratch := sampleScratch
  keyId := 0x0123456789abcdef
  key := s.key
  data := ⟨s.cipher, blocks.1, blocks.2.1, blocks.2.2⟩
  plaintext := s.plaintext
  accepted := accepted
  tail := []
  short := by decide

def sampleClient : Client where
  session := { sessionId := 0x3e55109a3e55109a }
  requests _ := none
  room := 1

/-- An object of the application. -/
def sampleUpdates : Sample where
  plaintext := toBE 32 0xdec0175adec0175a9a10553e9a10553e0500000000700b5e0100000004000000 ++
    toBE 16 0x4042ae74000000000000000000000000
  cipher := toBE 32 0x6a9a624901912b65c93e0956917726bc232de5a7261d9032f64ac001fe8e0b4c ++
    toBE 16 0x3345dcddd442e723b4220a1bddbbc03e
  digest := ⟨toBE 32 0x091c971937c55c6f0d54cd39fb45e331cddc53e2794ce4da96aa6150c7e8f217,
    length_toBE 32 _⟩
  first := ⟨toBE 32 0x00fad8d9b4e46be4976af306e818e861d571375ff9706789cbf951f8e71e5e13,
    length_toBE 32 _⟩
  second := ⟨toBE 32 0xa90814dee43403a6fd7c610da13f4a2212e76eb9f1b6f83425f8ec5df078781a,
    length_toBE 32 _⟩
  length_cipher := by simp only [List.length_append, length_toBE]

/-- The same with other padding. -/
def samplePadded : Sample where
  plaintext := toBE 32 0xdec0175adec0175a9a10553e9a10553e0500000000700b5e0100000004000000 ++
    toBE 16 0x4042ae74ffffffffffffffffffffffff
  cipher := toBE 32 0x857c6eb051d0f826d541c2750150d9645c154fdb01f8a415b5d00d0a0c747a07 ++
    toBE 16 0xae2b09e8e7f514db3ca27e39975cbe33
  digest := ⟨toBE 32 0x1da42159f4ac722b0e14836134620268d3122dbaa9d9e8f3cd6a17e161add3c1,
    length_toBE 32 _⟩
  first := ⟨toBE 32 0xaff82b232db7ae8ebb991b40dac76362dafa12e5adb58e14f9302622ebadf0e6,
    length_toBE 32 _⟩
  second := ⟨toBE 32 0xd914677bffd6940e30c5af47b039a741d95fc4bc829d13c2dc79bcdf61af9c5a,
    length_toBE 32 _⟩
  length_cipher := by simp only [List.length_append, length_toBE]

def updatesCrypto : Crypto := pairCrypto sampleKey sampleUpdates samplePadded 8 8

def updatesFrame : AcceptedFrame updatesCrypto sampleAuthKey :=
  frameOf sampleUpdates (by decide) (by decide +kernel)

def paddedFrame : AcceptedFrame updatesCrypto sampleAuthKey :=
  frameOf samplePadded (by decide) (by decide +kernel)

theorem sameMessage_updates : SameMessage updatesFrame paddedFrame :=
  ⟨by decide +kernel, by decide +kernel⟩

theorem staysWithin_updates : StaysWithin sampleClient updatesFrame := by
  unfold StaysWithin
  decide +kernel

theorem calls_padding_updates :
    (received sampleClient paddedFrame.bytes).1 = (received sampleClient updatesFrame.bytes).1 ∧
      List.Forall₂ (BranchCall.Alike updatesFrame.declaredEnd)
        (calls sampleClient updatesFrame.bytes)
        (calls sampleClient paddedFrame.bytes) :=
  calls_padding sampleClient sameMessage_updates staysWithin_updates

/-- A pong that is cut off before its ping id. -/
def sampleShort : Sample where
  plaintext := toBE 32 0xdec0175adec0175a9a10553e9a10553e0500000000700b5e010000000c000000 ++
    toBE 32 0xc57377340400000000700b5e0000000000000000000000000000000000000000
  cipher := toBE 32 0x65efb2284425f747ed38529ad5075e5c2ed161e0ce7477f76d7ad482115c0c5e ++
    toBE 32 0xac9386e2d46e9c57ef01f8141c5b48d2af7e5e7ce55d00bada5f8db442f033d8
  digest := ⟨toBE 32 0x69b998b15fe5ce8c3171e287a3c2c44ed7d1411c922f1068a7c65f3efb5e237e,
    length_toBE 32 _⟩
  first := ⟨toBE 32 0x84e32ad18f671d824079b2778fe27f1c90e86ccab8e78d546e4ac7240ad051e5,
    length_toBE 32 _⟩
  second := ⟨toBE 32 0x6b62912718813076c6a7f6c6b5a7b938fcd54d7e57dc2ae1896485517d3e9473,
    length_toBE 32 _⟩
  length_cipher := by simp only [List.length_append, length_toBE]

/-- The same with other padding. -/
def sampleShortPadded : Sample where
  plaintext := toBE 32 0xdec0175adec0175a9a10553e9a10553e0500000000700b5e010000000c000000 ++
    toBE 32 0xc57377340400000000700b5effffffffffffffffffffffffffffffffffffffff
  cipher := toBE 32 0x82c1595a9edefad929aca24548b4f990cdc0b84a85b69e06c1f0333757798dbe ++
    toBE 32 0xeac0224072c24fbe5f72b9473747f0131dab1ab6d660e5427f19fc254de8d0e4
  digest := ⟨toBE 32 0xb759782599e7f4743936e1526fcfc8807493d89be6f50b426ba84fccbf989bb2,
    length_toBE 32 _⟩
  first := ⟨toBE 32 0x14974453c180399b31a3db2312f81af26eba5b98b0c03761bb242828c35ed319,
    length_toBE 32 _⟩
  second := ⟨toBE 32 0x7182d990ca903e0acdb59364189cb7d3372f3ccd4ecc6625fd5754ed5f302946,
    length_toBE 32 _⟩
  length_cipher := by simp only [List.length_append, length_toBE]

def shortCrypto : Crypto := pairCrypto sampleKey sampleShort sampleShortPadded 8 8

def shortFrame : AcceptedFrame shortCrypto sampleAuthKey :=
  frameOf sampleShort (by decide) (by decide +kernel)

def shortPaddedFrame : AcceptedFrame shortCrypto sampleAuthKey :=
  frameOf sampleShortPadded (by decide) (by decide +kernel)

theorem sameMessage_short : SameMessage shortFrame shortPaddedFrame :=
  ⟨by decide +kernel, by decide +kernel⟩

/-- The ping id of a pong. -/
def Receipt.pingId : Receipt → Option (BitVec 64)
  | .processServerResponse (.record (.pong _ ping_id)) _ _ _ => some ping_id
  | _ => none

/-- The bytes of a buffer that is passed on. -/
def BranchCall.data : BranchCall → List UInt8
  | .onUnparsedMessageReceived data => data.buffer
  | .processServerResponse _ _ _ _ => []

/-- The ping id of a pong that is cut off comes out of the padding, and what cannot be parsed is
passed on with the padding. -/
theorem not_calls_padding :
    (¬ ∀ (c : Client) (f g : AcceptedFrame shortCrypto sampleAuthKey), SameMessage f g →
      (received c g.bytes).1 = (received c f.bytes).1) ∧
    ¬ ∀ (c : Client) (f g : AcceptedFrame updatesCrypto sampleAuthKey), SameMessage f g →
      StaysWithin c f →
      calls c g.bytes = calls c f.bytes := by
  constructor
  · intro same
    have pingIds :=
      congrArg (Option.bind · Receipt.pingId) (same sampleClient _ _ sameMessage_short)
    revert pingIds
    decide +kernel
  · intro same
    have bytes :=
      congrArg (List.map BranchCall.data)
        (same sampleClient _ _ sameMessage_updates staysWithin_updates)
    revert bytes
    decide +kernel

end Mtproto.Datacenter
