import Mtproto.Datacenter.Encryption
import Mtproto.Tgnet.Reassembly

/-!
# Encrypted messages that go out

`createRequestsData`, and that the other side, with the same rules for its own direction, opens what
it builds and finds the header and the body.
-/

namespace Mtproto.Datacenter

open Bytes Streams Tgnet

/-! ## Sending -/

/-- An object as the calls of its `serializeToStream`. -/
abbrev TLObject := List (Value (List UInt8))

/-- `getObjectSize`. -/
def getObjectSize (o : TLObject) : ℕ := (writeAll Native.write o Output.calculator).buffer.capacity

structure TL_message where
  msg_id : BitVec 64
  seqno : BitVec 32
  bytes : BitVec 32
  body : TLObject
  outgoingBody : Option TLObject := none

/-- `outgoingBody` goes before `body`. -/
def TL_message.content (m : TL_message) : TLObject := m.outgoingBody.getD m.body

def TL_message.serializeToStream (m : TL_message) : TLObject :=
  [.int64 m.msg_id, .int32 m.seqno, .int32 m.bytes] ++ m.content

/-- `TL_msg_container`. -/
def msgContainer (messages : List TL_message) : TLObject :=
  [.int32 0x73f1f8dc, .int32 (BitVec.ofNat 32 messages.length)] ++
    messages.flatMap TL_message.serializeToStream

/-- What a call of `createRequestsData` finds: the clock, the ids that it would generate, and what
it draws. -/
structure Surroundings where
  mtProtoVersion : ℤ
  serverSalt : BitVec 64
  sessionId : BitVec 64
  messageTime : BitVec 64 → ℤ
  currentTime : ℤ
  generatedMessageId : BitVec 64
  generatedSeqNo : BitVec 32
  pfsValues : BitVec 64 × BitVec 64
  index : UInt8
  padding : ℕ → UInt8
  pooled : ℕ → UInt8

/-- `RAND_bytes` of the padding. -/
def Surroundings.paddingBytes (e : Surroundings) (size : ℕ) : List UInt8 :=
  (List.range size).map e.padding

/-- `getFreeBuffer` with the old bytes of the pool. -/
def Surroundings.freeBuffer (e : Surroundings) (size : ℕ) : NativeByteBuffer :=
  { getFreeBuffer size with buffer := (List.range (byteCount size)).map e.pooled }

/-- The message that goes out. -/
structure Envelope where
  messageId : BitVec 64
  messageSeqNo : BitVec 32
  messageBody : TLObject

/-- One message goes out as it is, unless its id is too far from the time; everything else in a
container. -/
def envelope (e : Surroundings) (pfsInit : Bool) (requests : List TL_message) : Envelope :=
  match requests with
  | [message] =>
      if !pfsInit && (decide (e.messageTime message.msg_id < e.currentTime - 30000) ||
          decide (e.currentTime + 25000 < e.messageTime message.msg_id)) then
        ⟨e.generatedMessageId, e.generatedSeqNo, msgContainer [message]⟩
      else ⟨message.msg_id, message.seqno, message.content⟩
  | requests => ⟨e.generatedMessageId, e.generatedSeqNo, msgContainer requests⟩

/-- The size of the padding. -/
def additionalSize (mtProtoVersion : ℤ) (index : UInt8) (messageSize : ℕ) : ℕ :=
  let additionalSize := u32 (32 + messageSize) % 16
  let additionalSize := if additionalSize ≠ 0 then 16 - additionalSize else additionalSize
  if mtProtoVersion = 2 then u32 (additionalSize + (2 + index.toNat % 14) * 16) else additionalSize

/-- The calls in front of the body. -/
def headerCalls (e : Surroundings) (pfsInit : Bool) (v : Envelope) (messageSize : ℕ) : TLObject :=
  [.int64 (if pfsInit then e.pfsValues.1 else e.serverSalt),
    .int64 (if pfsInit then e.pfsValues.2 else e.sessionId), .int64 v.messageId,
    .int32 v.messageSeqNo, .int32 (BitVec.ofNat 32 messageSize)]

/-- The calls that write the message. -/
def messageCalls (e : Surroundings) (pfsInit : Bool) (v : Envelope) (messageSize : ℕ) : TLObject :=
  headerCalls e pfsInit v messageSize ++ v.messageBody

/-- The store of the buffer with the message and its padding written. -/
def messageStore (e : Surroundings) (pfsInit : Bool) (v : Envelope) (authKeyId : BitVec 64)
    (messageSize additionalSize : ℕ) : List UInt8 :=
  let o : Output := { buffer := e.freeBuffer (u32 (24 + 32 + messageSize + additionalSize)) }
  let o := o.writeInt64 authKeyId
  let o := { o with buffer := o.buffer.setPosition 24 }
  let o := writeAll Native.write (messageCalls e pfsInit v messageSize) o
  if additionalSize ≠ 0 then
    splice o.buffer.buffer (24 + 32 + messageSize) (e.paddingBytes additionalSize)
  else o.buffer.buffer

/-- The batches that `sendMessagesToConnection` passes on, from the messages and the size that it
has gathered. -/
def sendMessagesToConnection (currentMessages : List TL_message) (currentSize : ℕ) :
    List TL_message → List (List TL_message)
  | [] => []
  | message :: messages =>
      let currentMessages := currentMessages ++ [message]
      let currentSize := u32 (currentSize + message.bytes.toNat)
      if decide (3 * 1024 ≤ currentSize) || messages.isEmpty then
        currentMessages :: sendMessagesToConnection [] 0 messages
      else sendMessagesToConnection currentMessages currentSize messages

/-- The bytes up to the limit of the buffer, and the id for a quick acknowledgement. -/
structure RequestsData where
  frame : List UInt8
  quickAckId : Option ℕ

def createRequestsData (crypto : Crypto) (k : AuthKey) (scratch : Scratch) (e : Surroundings)
    (pfsInit reportAck : Bool)
    (requests : List TL_message) : Option RequestsData :=
  match k.getAuthKey with
  | (none, _) => none
  | (some authKey, authKeyId) =>
      let v := envelope e pfsInit requests
      let mtProtoVersion := if pfsInit then 1 else e.mtProtoVersion
      let messageSize := getObjectSize v.messageBody
      let additionalSize := additionalSize mtProtoVersion e.index messageSize
      let limit := u32 (24 + 32 + messageSize + additionalSize)
      let bytes := messageStore e pfsInit v authKeyId messageSize additionalSize
      let messageKey :=
        if mtProtoVersion = 2 then
          splice scratch.messageKey.1 0 (crypto.sha256.digest
            (slice authKey.1 88 32 ++ slice bytes 24 (32 + messageSize + additionalSize)))
        else splice scratch.messageKey.1 4 (crypto.sha1.digest (slice bytes 24 (32 + messageSize)))
      let ackBytes := if mtProtoVersion = 2 then slice messageKey 0 4 else slice messageKey 4 4
      let bytes := splice bytes 8 (slice messageKey 8 16)
      let generated :=
        (generateMessageKey crypto.toHashes authKey.1 (slice messageKey 8 16)
          (slice messageKey 32 64)
          false mtProtoVersion scratch.sha.1).1
      let messageKey := splice messageKey 32 generated
      let bytes := splice bytes 24
        (crypto.ige.encrypt (slice messageKey 32 32) (slice messageKey 64 32)
          (slice bytes 24 (limit - 24)))
      some
        { frame := bytes.take limit
          quickAckId := if reportAck then some (leNat ackBytes % 2 ^ 31) else none }

/-! ## What is written -/

section Store

variable {e : Surroundings} {v : Envelope}

theorem getObjectSize_eq (o : TLObject) : getObjectSize o = u32 (Native.spellAll o).length := by
  have counted : writeAll Native.write o Output.calculator = _ :=
    Native.writeAll_counted rfl (by decide)
  rw [getObjectSize, counted]
  show u32 (0 + _) = _
  rw [Nat.zero_add]

/-- The padding fills the last block, and it is in the window of the receiver for every random
byte. -/
theorem additionalSize_two (index : UInt8) {messageSize : ℕ}
    (small : 24 + 32 + messageSize + 255 < 2 ^ 32) :
    (32 + messageSize + additionalSize 2 index messageSize) % 16 = 0 ∧
      12 ≤ additionalSize 2 index messageSize ∧
      additionalSize 2 index messageSize ≤ 255 := by
  have size : u32 (32 + messageSize) = 32 + messageSize := u32_of_lt (by omega)
  have rows : index.toNat % 14 < 14 := Nat.mod_lt _ (by decide)
  simp only [additionalSize, size, if_true]
  split_ifs with aligned
  · rw [u32_of_lt (by omega)]
    omega
  · rw [u32_of_lt (by omega)]
    omega

theorem length_paddingBytes (size : ℕ) : (e.paddingBytes size).length = size := by
  rw [Surroundings.paddingBytes, List.length_map, List.length_range]

theorem freeBuffer_eq (e : Surroundings) (size : ℕ) :
    e.freeBuffer size = ⟨(List.range (byteCount size)).map e.pooled, 0, size, byteCount size⟩ := by
  rw [Surroundings.freeBuffer, getFreeBuffer_eq]

theorem room_freeBuffer {size n : ℕ} (small : size < 2 ^ 32) (fits : n ≤ size) :
    Output.Room { buffer := e.freeBuffer size } n := by
  rw [freeBuffer_eq]
  refine ⟨rfl, ⟨Nat.zero_le _, le_byteCount size, ?_, byteCount_lt small⟩, ?_⟩
  · rw [List.length_map, List.length_range]
  · rwa [Nat.zero_add]

theorem length_headerCalls (e : Surroundings) (pfsInit : Bool) (v : Envelope) (messageSize : ℕ) :
    (Native.spellAll (headerCalls e pfsInit v messageSize)).length = 32 := by
  simp [headerCalls, Native.spellAll_cons]

theorem length_messageCalls (e : Surroundings) (pfsInit : Bool) (v : Envelope) (messageSize : ℕ) :
    (Native.spellAll (messageCalls e pfsInit v messageSize)).length =
      32 + (Native.spellAll v.messageBody).length := by
  rw [messageCalls, Native.spellAll_append, List.length_append, length_headerCalls]

/-- The id goes in front, the rest of the frame from position 24 on. -/
theorem splice_frame {store id : List UInt8} (length_id : id.length = 8) (long : 24 ≤ store.length)
    (body : List UInt8) :
    ∃ gap rest, gap.length = 16 ∧ splice (splice store 0 id) 24 body =
      id ++ (gap ++ (body ++ rest)) := by
  have front : splice store 0 id = id ++ ((store.drop 8).take 16 ++ store.drop 24) := by
    have rest : store.drop 24 = (store.drop 8).drop 16 := by rw [List.drop_drop]
    rw [splice, List.take_zero, List.nil_append, length_id, rest, List.take_append_drop]
  have length_gap : ((store.drop 8).take 16).length = 16 := by
    rw [List.length_take, List.length_drop]
    omega
  refine ⟨(store.drop 8).take 16, (store.drop 24).drop body.length, length_gap, ?_⟩
  rw [front, splice_append_right (by omega), splice_append_right (by omega), length_id, length_gap,
    splice, List.take_zero, List.nil_append, Nat.zero_add]

/-- The store: the id of the key, sixteen bytes for the message key, the message with its padding,
and the rest of the buffer. -/
theorem messageStore_eq (e : Surroundings) (pfsInit : Bool) (authKeyId : BitVec 64)
    {messageSize additionalSize : ℕ}
    (measured : messageSize = (Native.spellAll v.messageBody).length)
    (small : 24 + 32 + messageSize + additionalSize < 2 ^ 32) :
    ∃ gap rest, gap.length = 16 ∧ messageStore e pfsInit v authKeyId messageSize additionalSize =
      toLE 8 authKeyId.toNat ++ (gap ++
        ((Native.spellAll (messageCalls e pfsInit v messageSize) ++
          e.paddingBytes additionalSize) ++ rest)) := by
  have length_calls := length_messageCalls e pfsInit v messageSize
  have room : Output.Room { buffer := e.freeBuffer (24 + 32 + messageSize + additionalSize) } 8 :=
    room_freeBuffer small (by omega)
  simp only [messageStore, u32_of_lt small]
  rw [Output.writeInt64_wrote room, freeBuffer_eq]
  obtain ⟨size, size_eq⟩ : ∃ size, size = 24 + 32 + messageSize + additionalSize := ⟨_, rfl⟩
  have length_pool : ((List.range (byteCount size)).map e.pooled).length = byteCount size := by
    rw [List.length_map, List.length_range]
  rw [← size_eq] at small ⊢
  generalize (List.range (byteCount size)).map e.pooled = pool at length_pool ⊢
  have large := le_byteCount size
  have length_store : (splice pool 0 (toLE 8 authKeyId.toNat)).length = byteCount size := by
    rw [length_splice (by rw [length_toLE]; omega), length_pool]
  -- the buffer at position 24 has room for the message, and its size is the limit
  have moved :
      (Output.wrote { buffer := ⟨pool, 0, size, byteCount size⟩ }
        (toLE 8 authKeyId.toNat)).buffer.setPosition 24 =
        ⟨splice pool 0 (toLE 8 authKeyId.toNat), 24, size, byteCount size⟩ :=
          if_neg (by show ¬ size < 24; omega)
  have behind :
    Output.Room { buffer := ⟨splice pool 0 (toLE 8 authKeyId.toNat), 24, size, byteCount size⟩ }
      (Native.spellAll (messageCalls e pfsInit v messageSize)).length := by
    refine ⟨rfl, ⟨?_, large, length_store, byteCount_lt small⟩, ?_⟩
    · show 24 ≤ size
      omega
    · show 24 + _ ≤ size
      omega
  have written := Native.writeAll_spell behind
  have adjacent : 24 + 32 + messageSize =
      24 + (Native.spellAll (messageCalls e pfsInit v messageSize)).length := by
    omega
  obtain ⟨gap, rest, length_gap, frame⟩ :=
    splice_frame (length_toLE 8 authKeyId.toNat) (by omega : 24 ≤ pool.length)
    (Native.spellAll (messageCalls e pfsInit v messageSize) ++ e.paddingBytes additionalSize)
  refine ⟨gap, rest, length_gap, ?_⟩
  rw [moved, ← frame, ← splice_next (by omega) adjacent]
  split_ifs with padded
  · exact congrArg (fun o =>
      splice o.buffer.buffer (24 + 32 + messageSize) (e.paddingBytes additionalSize)) written
  · rw [not_ne_iff] at padded
    subst padded
    show _ = splice _ _ []
    rw [splice_nil]
    exact congrArg (fun o => o.buffer.buffer) written

end Store

/-! ## The frame -/

section Frame

variable {id key body body' rest : List UInt8}

/-- The parts of a frame are read and overwritten where they are. -/
theorem slice_body (length_id : id.length = 8) (length_key : key.length = 16) :
    slice (id ++ (key ++ (body ++ rest))) 24 body.length = body := by
  rw [← List.append_assoc id]
  exact slice_segment (by rw [List.length_append, length_id, length_key]) rfl

theorem splice_body (length_id : id.length = 8) (length_key : key.length = 16)
    (same : body'.length = body.length) :
    splice (id ++ (key ++ (body ++ rest))) 24 body' = id ++ (key ++ (body' ++ rest)) := by
  rw [← List.append_assoc id,
    splice_segment (by rw [List.length_append, length_id, length_key]) same, List.append_assoc]

theorem take_frame (length_id : id.length = 8) (length_key : key.length = 16) :
    (id ++ (key ++ (body ++ rest))).take (24 + body.length) = id ++ (key ++ body) := by
  have whole : 24 + body.length = (id ++ (key ++ body)).length := by
    rw [List.length_append, List.length_append, length_id, length_key, ← Nat.add_assoc]
  rw [← List.append_assoc key, ← List.append_assoc id, whole, List.take_left]

end Frame

section Sent

variable {k : AuthKey} {authKey : Block 256} {e : Surroundings}

/-- The message with its padding, before it is encrypted. -/
def plaintext (e : Surroundings) (v : Envelope) : List UInt8 :=
  let messageSize := (Native.spellAll v.messageBody).length
  Native.spellAll (messageCalls e false v messageSize) ++
    e.paddingBytes (additionalSize 2 e.index messageSize)

theorem length_plaintext (e : Surroundings) (v : Envelope) :
    (plaintext e v).length = 32 + (Native.spellAll v.messageBody).length +
      additionalSize 2 e.index (Native.spellAll v.messageBody).length := by
  rw [plaintext, List.length_append, length_messageCalls, length_paddingBytes]

/-- The id that both sides compute for a quick ack: the front of the hash with the message key in
its middle. -/
def quickAckIdOf (crypto : Crypto) (authKey : Block 256) (plaintext : List UInt8) : ℕ :=
  leNat (slice (crypto.sha256.digest (slice authKey.1 88 32 ++ plaintext)) 0 4) % 2 ^ 31

/-- The frame of version 2, for messages whose size is in the range of a `uint32_t`. -/
theorem createRequestsData_eq (crypto : Crypto) (perm : k.authKeyPerm = some authKey)
    (version : e.mtProtoVersion = 2)
    (scratch : Scratch) (reportAck : Bool) {requests : List TL_message}
    (small : 24 + 32 + (Native.spellAll (envelope e false requests).messageBody).length + 255 <
      2 ^ 32) :
    ∃ sent key aesKey aesIv, createRequestsData crypto k scratch e false reportAck requests =
      some sent ∧
      KeysFor crypto false authKey key aesKey aesIv ∧
      key = slice
        (crypto.sha256.digest (slice authKey.1 88 32 ++ plaintext e (envelope e false requests))) 8
          16 ∧
      sent.frame = toLE 8 k.authKeyPermId.toNat ++
        (key ++ crypto.ige.encrypt aesKey aesIv (plaintext e (envelope e false requests))) ∧
      sent.quickAckId =
        if reportAck then
          some (quickAckIdOf crypto authKey (plaintext e (envelope e false requests)))
        else none := by
  obtain ⟨messageSize, size_eq⟩ :
    ∃ messageSize, messageSize = (Native.spellAll (envelope e false requests).messageBody).length :=
      ⟨_, rfl⟩
  have measured : getObjectSize (envelope e false requests).messageBody = messageSize := by
    rw [getObjectSize_eq, u32_of_lt (by omega), size_eq]
  obtain ⟨-, -, most⟩ :=
    additionalSize_two e.index (by omega : 24 + 32 + messageSize + 255 < 2 ^ 32)
  have length_data := length_plaintext e (envelope e false requests)
  rw [← size_eq] at length_data
  have fits : 24 + 32 + messageSize + additionalSize 2 e.index messageSize < 2 ^ 32 := by omega
  have stored : ∃ gap rest, gap.length = 16 ∧
      messageStore e false (envelope e false requests) k.authKeyPermId messageSize
          (additionalSize 2 e.index messageSize) =
        toLE 8 k.authKeyPermId.toNat ++
          (gap ++ (plaintext e (envelope e false requests) ++ rest)) := by
    rw [plaintext, ← size_eq]
    exact messageStore_eq e false k.authKeyPermId size_eq fits
  obtain ⟨gap, rest, length_gap, stored⟩ := stored
  simp only [createRequestsData, AuthKey.getAuthKey, perm, Bool.false_eq_true, if_false, version,
    if_true, measured, u32_of_lt fits, stored, quickAckIdOf]
  generalize plaintext e (envelope e false requests) = data at length_data ⊢
  have length_id := length_toLE 8 k.authKeyPermId.toNat
  generalize toLE 8 k.authKeyPermId.toNat = id at length_id ⊢
  rw [← length_data, slice_body length_id length_gap]
  -- the hash fills the front of the static array, and the keys are generated behind it
  have length_digest := crypto.sha256.length_digest (slice authKey.1 88 32 ++ data)
  generalize crypto.sha256.digest (slice authKey.1 88 32 ++ data) = digest at length_digest ⊢
  have length_array := scratch.messageKey.2
  have length_hashed : (splice scratch.messageKey.1 0 digest).length = 96 := by
    rw [length_splice (by omega), length_array]
  have key_eq : slice (splice scratch.messageKey.1 0 digest) 8 16 = slice digest 8 16 := by
    rw [splice, List.take_zero, List.nil_append]
    exact slice_append_left (by omega)
  have ack_eq : slice (splice scratch.messageKey.1 0 digest) 0 4 = slice digest 0 4 := by
    rw [splice, List.take_zero, List.nil_append]
    exact slice_append_left (by omega)
  rw [key_eq, ack_eq]
  generalize splice scratch.messageKey.1 0 digest = hashed at length_hashed ⊢
  have length_key : (slice digest 8 16).length = 16 := length_slice (by omega)
  generalize slice digest 8 16 = key at length_key ⊢
  obtain ⟨aesKey, aesIv, keys⟩ := exists_keysFor crypto false authKey length_key
  have length_front : (hashed.take 32).length = 32 := by
    rw [List.length_take, length_hashed]
    rfl
  obtain ⟨key_read, iv_read⟩ := slice_keys length_front keys.length_aesKey keys.length_aesIv
  rw [keys.generated scratch.sha ⟨slice hashed 32 64,
    length_slice (Nat.le_of_eq length_hashed.symm)⟩,
    splice_keys length_hashed keys.length_aesKey keys.length_aesIv, key_read, iv_read]
  -- both are copied over what the store has in their places
  have limit_eq : 24 + 32 + messageSize + additionalSize 2 e.index messageSize =
    24 + data.length := by omega
  have same := crypto.ige.length_encrypt aesKey aesIv data
  rw [splice_segment length_id (by omega), limit_eq, Nat.add_sub_cancel_left,
    slice_body length_id length_key, splice_body length_id length_key same, ← same,
    take_frame length_id length_key]
  exact ⟨_, key, aesKey, aesIv, rfl, keys, rfl, rfl, rfl⟩

end Sent

/-! ## Batches -/

section Batches

/-- The messages of one call.  A buffer keeps its size in a `uint32_t`. -/
structure Batch where
  messages : List TL_message
  fits : 24 + 32 + (Native.spellAll (msgContainer messages)).length + 255 < 2 ^ 32

/-- A message with its size in `bytes`, which leaves 16 KB of the range of a `uint32_t`. -/
structure Measured (m : TL_message) : Prop where
  bytes_eq : m.bytes.toNat = (Native.spellAll m.content).length
  least : 4 ≤ m.bytes.toNat
  most : m.bytes.toNat + 2 ^ 14 ≤ 2 ^ 32

/-- The size that `sendMessagesToConnection` counts. -/
def batchSize (messages : List TL_message) : ℕ := (messages.map fun m => m.bytes.toNat).sum

variable {messages : List TL_message} {message : TL_message}

theorem batchSize_append_singleton :
    batchSize (messages ++ [message]) = batchSize messages + message.bytes.toNat := by
  rw [batchSize, batchSize, List.map_append, List.sum_append, List.map_singleton,
    List.sum_singleton]

theorem length_serializeToStream (measured : Measured message) :
    (Native.spellAll message.serializeToStream).length = 16 + message.bytes.toNat := by
  rw [TL_message.serializeToStream, Native.spellAll_append, List.length_append, measured.bytes_eq]
  simp [Native.spellAll_cons]

theorem length_flatMap_serializeToStream (measured : ∀ m ∈ messages, Measured m) :
    (Native.spellAll (messages.flatMap TL_message.serializeToStream)).length =
      16 * messages.length + batchSize messages := by
  induction messages with
  | nil => rfl
  | cons message messages ih =>
    rw [List.flatMap_cons, Native.spellAll_append, List.length_append,
      length_serializeToStream (measured message List.mem_cons_self),
      ih fun m member => measured m (List.mem_cons_of_mem message member), batchSize, batchSize,
        List.map_cons,
      List.sum_cons, List.length_cons]
    omega

theorem length_msgContainer (measured : ∀ m ∈ messages, Measured m) :
    (Native.spellAll (msgContainer messages)).length =
      8 + 16 * messages.length + batchSize messages := by
  rw [msgContainer, Native.spellAll_append, List.length_append,
    length_flatMap_serializeToStream measured, Nat.add_assoc]
  simp [Native.spellAll_cons]

theorem length_le_batchSize (measured : ∀ m ∈ messages, Measured m) :
    4 * messages.length ≤ batchSize messages := by
  induction messages with
  | nil => exact le_rfl
  | cons message messages ih =>
    have least := (measured message List.mem_cons_self).least
    have more := ih fun m member => measured m (List.mem_cons_of_mem message member)
    rw [batchSize] at more ⊢
    rw [List.map_cons, List.sum_cons, List.length_cons]
    omega

/-- The messages gathered so far stay below 3 KB, so a batch fits if its last message does. -/
theorem fits_of_mem_sendMessages {current : List TL_message} (below : batchSize current < 3 * 1024)
    (measured : ∀ m ∈ current ++ messages, Measured m) :
    ∀ batch ∈ sendMessagesToConnection current (batchSize current) messages,
      24 + 32 + (Native.spellAll (msgContainer batch)).length + 255 < 2 ^ 32 := by
  induction messages generalizing current with
  | nil =>
    intro batch member
    cases member
  | cons message messages ih =>
    have measured' : ∀ m ∈ (current ++ [message]) ++ messages, Measured m := by
      rwa [List.append_assoc, List.singleton_append]
    have gathered : ∀ m ∈ current ++ [message], Measured m := fun m member =>
      measured' m (List.mem_append_left messages member)
    have most :=
      (gathered message (List.mem_append_right current (List.mem_singleton_self message))).most
    have size : u32 (batchSize current + message.bytes.toNat) =
        batchSize (current ++ [message]) := by
      rw [batchSize_append_singleton, u32_of_lt (by omega)]
    simp only [sendMessagesToConnection, size]
    split_ifs with full
    · intro batch member
      rcases List.mem_cons.1 member with rfl | member
      · have few := length_le_batchSize fun m member =>
          gathered m (List.mem_append_left [message] member)
        rw [length_msgContainer gathered, batchSize_append_singleton, List.length_append,
          List.length_singleton]
        omega
      · exact ih (by decide) (fun m member => measured' m (List.mem_append_right _ member)) batch
          member
    · rw [Bool.or_eq_true, decide_eq_true_eq, not_or, not_le] at full
      exact ih full.1 measured'

theorem exists_batch (measured : ∀ m ∈ messages, Measured m) :
    ∀ requests ∈ sendMessagesToConnection [] 0 messages, ∃ batch : Batch, batch.messages =
      requests := by
  intro requests member
  exact ⟨⟨requests, fits_of_mem_sendMessages (by decide) measured requests member⟩, rfl⟩

end Batches

/-! ## What the other side reads -/

section Recovered

variable {k : AuthKey} {authKey : Block 256} {e : Surroundings}

theorem length_envelope_le (e : Surroundings) (pfsInit : Bool) (requests : List TL_message) :
    (Native.spellAll (envelope e pfsInit requests).messageBody).length ≤
      (Native.spellAll (msgContainer requests)).length := by
  rcases requests with _ | ⟨message, _ | ⟨second, requests⟩⟩
  · exact le_rfl
  · rw [envelope]
    split_ifs
    · exact le_rfl
    · show (Native.spellAll message.content).length ≤ _
      rw [msgContainer, List.flatMap_singleton, TL_message.serializeToStream,
        Native.spellAll_append, Native.spellAll_append, List.length_append, List.length_append]
      omega
  · exact le_rfl

/-- The header and the body of a message are in the plaintext. -/
structure Recovered (e : Surroundings) (v : Envelope) (plaintext : List UInt8) : Prop where
  header : (readHeader { buffer := .sliced plaintext }).1 =
    { messageServerSalt := e.serverSalt
      messageSessionId := e.sessionId
      messageId := v.messageId
      messageSeqNo := v.messageSeqNo
      messageLength := BitVec.ofNat 32 (Native.spellAll v.messageBody).length }
  messageLength : leNat (slice plaintext 28 4) = (Native.spellAll v.messageBody).length
  body : slice plaintext 32 (Native.spellAll v.messageBody).length = Native.spellAll v.messageBody

theorem parses_readHeader (e : Surroundings) (v : Envelope) (messageSize : ℕ) :
    Native.Parses readHeader (Native.spellAll (headerCalls e false v messageSize))
      { messageServerSalt := e.serverSalt
        messageSessionId := e.sessionId
        messageId := v.messageId
        messageSeqNo := v.messageSeqNo
        messageLength := BitVec.ofNat 32 messageSize } := by
  simp only [headerCalls, Native.spellAll_cons, Bool.false_eq_true, if_false]
  exact (Native.parses_int64 _).bind ((Native.parses_int64 _).bind ((Native.parses_int64 _).bind
    ((Native.parses_int32 _).bind ((Native.parses_int32 _).bind (Native.parses_pure _)))))

/-- The length is behind the 28 bytes of the other fields. -/
theorem headerCalls_eq (e : Surroundings) (v : Envelope) (messageSize : ℕ) :
    ∃ front, front.length = 28 ∧
    Native.spellAll (headerCalls e false v messageSize) =
      front ++ toLE 4 (BitVec.ofNat 32 messageSize).toNat := by
  refine ⟨Native.spellAll [.int64 e.serverSalt, .int64 e.sessionId, .int64 v.messageId,
    .int32 v.messageSeqNo], ?_, ?_⟩
  · simp [Native.spellAll_cons]
  · simp [headerCalls, Native.spellAll_cons, Native.spell]

theorem recovered_plaintext (e : Surroundings) (v : Envelope)
    (small : 24 + 32 + (Native.spellAll v.messageBody).length + 255 < 2 ^ 32) :
    Recovered e v (plaintext e v) := by
  obtain ⟨messageSize, size_eq⟩ : ∃ messageSize,
    messageSize = (Native.spellAll v.messageBody).length := ⟨_, rfl⟩
  obtain ⟨-, -, most⟩ := additionalSize_two e.index small
  have length_data := length_plaintext e v
  have length_header := length_headerCalls e false v messageSize
  have split : plaintext e v = Native.spellAll (headerCalls e false v messageSize) ++
      (Native.spellAll v.messageBody ++ e.paddingBytes (additionalSize 2 e.index messageSize)) := by
    rw [plaintext, ← size_eq, messageCalls, Native.spellAll_append, List.append_assoc]
  refine ⟨?_, ?_, ?_⟩
  · have ahead :
      Input.Ahead { buffer := .sliced (plaintext e v) }
        (Native.spellAll (headerCalls e false v messageSize))
        (Native.spellAll v.messageBody ++ e.paddingBytes (additionalSize 2 e.index messageSize)) :=
      ⟨NativeByteBuffer.wf_sliced (by omega), by rw [NativeByteBuffer.unread_sliced, split]⟩
    rw [parses_readHeader e v messageSize _ _ ahead, ← size_eq]
  · obtain ⟨front, length_front, header_eq⟩ := headerCalls_eq e v messageSize
    rw [split, header_eq, List.append_assoc, slice_segment length_front (length_toLE 4 _),
      leNat_toLE_of_lt
      (BitVec.isLt _), BitVec.toNat_ofNat, Nat.mod_eq_of_lt (by omega), size_eq]
  · rw [split]
    exact slice_segment length_header rfl

/-- The frame as the other side takes it apart: the id of the key, the message key and the
ciphertext. -/
def frameKeyId (frame : List UInt8) : BitVec 64 := BitVec.ofNat 64 (leNat (slice frame 0 8))

def frameKey (frame : List UInt8) : List UInt8 := slice frame 8 16

def frameData (frame : List UInt8) : List UInt8 := frame.drop 24

/-- The other side, with the same rules for the other direction, accepts the frame and finds what
went into it. -/
structure Opened (crypto : Crypto) (k : AuthKey) (e : Surroundings) (v : Envelope)
    (frame plaintext : List UInt8) :
    Prop where
  whole : (frameData frame).length % 16 = 0
  authentic :
    Authentic crypto false k (frameKeyId frame) (frameKey frame) (frameData frame) plaintext
  accepted : ∀ scratch,
    openMessage crypto false k 2 scratch (frameKeyId frame) (frameKey frame) (frameData frame) =
    (true, plaintext)
  recovered : Recovered e v plaintext

section Parts

variable {key data : List UInt8} (id : BitVec 64)

theorem frameKeyId_eq : frameKeyId (toLE 8 id.toNat ++ (key ++ data)) = id := by
  have length_id := length_toLE 8 id.toNat
  rw [frameKeyId, slice_append_left (by omega), slice_whole length_id,
    leNat_toLE_of_lt (BitVec.isLt id), BitVec.ofNat_toNat, BitVec.setWidth_eq]

theorem frameKey_eq (length_key : key.length = 16) :
    frameKey (toLE 8 id.toNat ++ (key ++ data)) = key :=
  slice_segment (length_toLE 8 id.toNat) length_key

theorem frameData_eq (length_key : key.length = 16) :
    frameData (toLE 8 id.toNat ++ (key ++ data)) = data := by
  have front : 24 = (toLE 8 id.toNat ++ key).length := by
    rw [List.length_append, length_toLE, length_key]
  rw [frameData, ← List.append_assoc, front, List.drop_left]

end Parts

/-- The frame, the plaintext that the other side finds in it, and the id that it acknowledges. -/
theorem createRequestsData_reads (crypto : Crypto) (perm : k.authKeyPerm = some authKey)
    (version : e.mtProtoVersion = 2) (scratch : Scratch) (reportAck : Bool) (batch : Batch) :
    ∃ sent, createRequestsData crypto k scratch e false reportAck batch.messages = some sent ∧
      sent.frame.length = 24 + (plaintext e (envelope e false batch.messages)).length ∧
      Opened crypto k e (envelope e false batch.messages) sent.frame
        (plaintext e (envelope e false batch.messages)) ∧
      sent.quickAckId =
        if reportAck then
          some (quickAckIdOf crypto authKey (plaintext e (envelope e false batch.messages)))
        else none := by
  have small : 24 + 32 + (Native.spellAll (envelope e false batch.messages).messageBody).length +
      255 < 2 ^ 32 := by
    have fits := batch.fits
    have := length_envelope_le e false batch.messages
    omega
  obtain ⟨sent, key, aesKey, aesIv, built, keys, key_eq, frame_eq, ack_eq⟩ :=
    createRequestsData_eq crypto perm version scratch reportAck small
  have recovered := recovered_plaintext e (envelope e false batch.messages) small
  have length_data := length_plaintext e (envelope e false batch.messages)
  obtain ⟨aligned, least, most⟩ := additionalSize_two e.index small
  rw [← length_data] at aligned
  have length_key : key.length = 16 := by
    have length_digest := crypto.sha256.length_digest
      (slice authKey.1 88 32 ++ plaintext e (envelope e false batch.messages))
    rw [key_eq, length_slice (by omega)]
  have same :=
    crypto.ige.length_encrypt aesKey aesIv (plaintext e (envelope e false batch.messages))
  have decrypted := crypto.ige.decrypt_encrypt aesKey aesIv _ aligned
  refine ⟨sent, built, ?_, ?_, ack_eq⟩
  · rw [frame_eq, List.length_append, List.length_append, length_toLE, length_key, same]
    omega
  rw [frame_eq]
  have authentic : Authentic crypto false k k.authKeyPermId key
      (crypto.ige.encrypt aesKey aesIv (plaintext e (envelope e false batch.messages)))
      (plaintext e (envelope e false batch.messages)) := by
    refine ⟨rfl, ⟨authKey, perm, ⟨aesKey, aesIv, keys, decrypted.symm⟩, key_eq⟩, _, ?_,
      least, by omega⟩
    rw [same, length_data, recovered.messageLength]
  refine ⟨?_, ?_, fun scratch => ?_, recovered⟩
  · rwa [frameData_eq _ length_key, same]
  · rwa [frameKeyId_eq, frameKey_eq _ length_key, frameData_eq _ length_key]
  · rw [frameKeyId_eq, frameKey_eq _ length_key, frameData_eq _ length_key]
    obtain ⟨cipher, cipher_eq⟩ : ∃ cipher : Ciphertext, cipher.bytes =
        crypto.ige.encrypt aesKey aesIv (plaintext e (envelope e false batch.messages)) :=
      ⟨⟨_, by rw [same]; omega, by rwa [same], by rw [same]; omega⟩, rfl⟩
    rw [← cipher_eq] at authentic ⊢
    exact (openMessage_eq_true_iff length_key cipher).2 authentic

theorem createRequestsData_opened (crypto : Crypto) (perm : k.authKeyPerm = some authKey)
    (version : e.mtProtoVersion = 2) (scratch : Scratch) (reportAck : Bool) (batch : Batch) :
    ∃ sent plaintext, createRequestsData crypto k scratch e false reportAck batch.messages =
      some sent ∧
      Opened crypto k e (envelope e false batch.messages) sent.frame plaintext := by
  obtain ⟨sent, built, -, opened, -⟩ :=
    createRequestsData_reads crypto perm version scratch reportAck batch
  exact ⟨sent, _, built, opened⟩

end Recovered

/-! ## Both directions -/

/-- What is accepted from the server is authentic, and whatever goes out is accepted by the same
rules for the other direction and leaves the receiver with what went into it.  What
`onConnectionDataReceived` cuts out of a packet is such a message, and every batch that
`sendMessagesToConnection` makes goes out. -/
theorem messages_authentic (crypto : Crypto) :
    (∀ (k : AuthKey) (scratch : Scratch) (keyId : BitVec 64) (key : Block 16) (data : Ciphertext)
        (plaintext : List UInt8),
      decryptServerResponse crypto k 2 scratch keyId key.1 data.bytes = (true, plaintext) →
        Authentic crypto true k keyId key.1 data.bytes plaintext) ∧
      (∀ (k : AuthKey) (authKey : Block 256) (scratch : Scratch) (e : Surroundings)
        (reportAck : Bool) (batch : Batch),
        k.authKeyPerm = some authKey → e.mtProtoVersion = 2 →
          ∃ sent plaintext, createRequestsData crypto k scratch e false reportAck batch.messages =
            some sent ∧
            Opened crypto k e (envelope e false batch.messages) sent.frame plaintext) ∧
      (∀ (k : AuthKey) (scratch : Scratch) (allowsCustomPadding : Bool) (packet : List UInt8)
        (cipher : ℕ)
          (plaintext : List UInt8),
        24 + 32 < packet.length → packet.length < 2 ^ 32 →
          cipherLength allowsCustomPadding packet.length = some cipher →
          decryptServerResponse crypto k 2 scratch (frameKeyId packet) (frameKey packet)
            (slice packet 24 cipher) =
            (true, plaintext) →
          Authentic crypto true k (frameKeyId packet) (frameKey packet)
            (slice packet 24 cipher) plaintext) ∧
      ∀ (k : AuthKey) (authKey : Block 256) (scratch : Scratch) (e : Surroundings)
        (reportAck : Bool)
          (messages : List TL_message),
        (∀ m ∈ messages, Measured m) → k.authKeyPerm = some authKey → e.mtProtoVersion = 2 →
          ∀ requests ∈ sendMessagesToConnection [] 0 messages,
            ∃ sent plaintext, createRequestsData crypto k scratch e false reportAck requests =
              some sent ∧
              Opened crypto k e (envelope e false requests) sent.frame plaintext := by
  refine ⟨?_, ?_, ?_, ?_⟩
  · intro k scratch keyId key data plaintext accepted
    exact (openMessage_eq_true_iff key.2 data).1 accepted
  · intro k authKey scratch e reportAck batch perm version
    exact createRequestsData_opened crypto perm version scratch reportAck batch
  · intro k scratch allowsCustomPadding packet cipher plaintext long small passed accepted
    have length_key : (frameKey packet).length = 16 := length_slice (by omega)
    exact (openMessage_eq_true_iff length_key (Ciphertext.ofPacket long small passed)).1 accepted
  · intro k authKey scratch e reportAck messages measured perm version requests member
    obtain ⟨batch, rfl⟩ := exists_batch measured requests member
    exact createRequestsData_opened crypto perm version scratch reportAck batch

/-! ### A ping and its pong -/

/-- A message with the hashes that belong to it. -/
structure Sample where
  plaintext : List UInt8
  cipher : List UInt8
  digest : Block 32
  first : Block 32
  second : Block 32
  length_cipher : cipher.length = plaintext.length

namespace Sample

variable (s : Sample)

def key : Block 16 := ⟨slice s.digest.1 8 16, length_slice (by rw [s.digest.2]; decide)⟩

def aesKey : List UInt8 := aesKeySha256 s.first.1 s.second.1

def aesIv : List UInt8 := aesIvSha256 s.first.1 s.second.1

/-- The inputs of the hashes. -/
def digests (authKey : Block 256) (x : ℕ) : List (List UInt8 × Block 32) :=
  [(slice authKey.1 (88 + x) 32 ++ s.plaintext, s.digest),
    (s.key.1 ++ slice authKey.1 x 36, s.first), (slice authKey.1 (40 + x) 36 ++ s.key.1, s.second)]

/-- The plaintext and the ciphertext, each for the other. -/
def swap (data : List UInt8) : List UInt8 := Equiv.swap s.plaintext s.cipher data

theorem length_swap (data : List UInt8) : (s.swap data).length = data.length := by
  rw [swap, Equiv.swap_apply_def]
  split_ifs with plain encrypted
  · rw [plain, s.length_cipher]
  · rw [encrypted, s.length_cipher]
  · rfl

theorem swap_swap (data : List UInt8) : s.swap (s.swap data) = data := Equiv.swap_apply_self _ _ _

end Sample

/-- A ping of the client. -/
def samplePing : Sample where
  plaintext := toBE 32 0xdec0175adec0175a9a10553e9a10553e0400000000700b5e000000000c000000 ++
    toBE 32 0xec77be7a0700000000000000000102030405060708090a0b0c0d0e0f10111213 ++
    toBE 16 0x1415161718191a1b1c1d1e1f20212223
  cipher := toBE 32 0x83aaf214e0feb2fcff9ef48f3c53a0059ef09a063e5ac284ce3a512c953e36a5 ++
    toBE 32 0x92b669ad77e3d33aa8eb3556a3e6271dcb3f04dd63bb94d7b8eb4137e048e3c8 ++
    toBE 16 0x24f6085f2519d2e8275773198e9bfd72
  digest := ⟨toBE 32 0xc575aec7b035dbdf2dcdd279b634f9630c2a4041ffc1960f415affc13598c48b,
    length_toBE 32 _⟩
  first := ⟨toBE 32 0x2e951788b87fd996a85bb9a41d62296f5dee93d4c677f6789479a60b8e793a2c,
    length_toBE 32 _⟩
  second := ⟨toBE 32 0x99e4dc492c95b345866b71d38e4ebbad1ba126c5b6ac77c6b673af5710e88190,
    length_toBE 32 _⟩
  length_cipher := by simp only [List.length_append, length_toBE]

/-- The pong of the server. -/
def samplePong : Sample where
  plaintext := toBE 32 0xdec0175adec0175a9a10553e9a10553e0500000000700b5e0100000014000000 ++
    toBE 32 0xc57377340400000000700b5e0700000000000000000102030405060708090a0b
  cipher := toBE 32 0x239eb3b3e88c0d05ac2057a84294a91914691ae27cf8102ad4ff61ba05e15cbd ++
    toBE 32 0xae40aeab1404dbd8373e17a144e8b32ebd7071426deab918e0b8b761f9a0c242
  digest := ⟨toBE 32 0xa07a1b0c3812549f7cc2e859bf77c20b13ba50700433fee34e9bba5da970fa20,
    length_toBE 32 _⟩
  first := ⟨toBE 32 0x5a3959311013e9708268571afcdf75bf2523ad4ca14f4444fc27b3dbf1f16f13,
    length_toBE 32 _⟩
  second := ⟨toBE 32 0x5aad41368012f660e6757413f2c9eea6dd4d7224765c71a1de81aa52b6dd298b,
    length_toBE 32 _⟩
  length_cipher := by simp only [List.length_append, length_toBE]

def sampleKey : Block 256 :=
  ⟨(List.range 256).map UInt8.ofNat, by rw [List.length_map, List.length_range]⟩

/-- A hash function with the digests of a table. -/
def tableHash {n : ℕ} (table : List (List UInt8 × Block n)) : Hash n where
  digest message := ((table.lookup message).getD ⟨List.replicate n 0, List.length_replicate⟩).1
  length_digest message :=
    ((table.lookup message).getD ⟨List.replicate n 0, List.length_replicate⟩).2

/-- The cipher on two messages. -/
def pairCipher (s t : Sample) (key iv data : List UInt8) : List UInt8 :=
  if key = s.aesKey ∧ iv = s.aesIv then s.swap data
  else if key = t.aesKey ∧ iv = t.aesIv then t.swap data
  else data

theorem length_pairCipher (s t : Sample) (key iv data : List UInt8) :
    (pairCipher s t key iv data).length = data.length := by
  unfold pairCipher
  split_ifs
  · exact s.length_swap data
  · exact t.length_swap data
  · rfl

theorem pairCipher_pairCipher (s t : Sample) (key iv data : List UInt8) :
    pairCipher s t key iv (pairCipher s t key iv data) = data := by
  unfold pairCipher
  split_ifs
  · exact s.swap_swap data
  · exact t.swap_swap data
  · rfl

/-- The functions on two messages, with the offsets of their directions. -/
def pairCrypto (authKey : Block 256) (s t : Sample) (x y : ℕ) : Crypto where
  sha1 := tableHash []
  sha256 := tableHash (s.digests authKey x ++ t.digests authKey y)
  ige :=
    { encrypt := pairCipher s t
      decrypt := pairCipher s t
      length_encrypt := length_pairCipher s t
      length_decrypt := length_pairCipher s t
      decrypt_encrypt := fun key iv data _ => pairCipher_pairCipher s t key iv data }

def sampleCrypto : Crypto := pairCrypto sampleKey samplePing samplePong 0 8

def sampleAuthKey : AuthKey :=
  { authKeyPerm := some sampleKey, authKeyPermId := 0x0123456789abcdef }

def sampleScratch : Scratch :=
  { sha := ⟨List.replicate 68 0, List.length_replicate⟩
    messageKey := ⟨List.replicate 96 0, List.length_replicate⟩ }

def sampleSurroundings : Surroundings where
  mtProtoVersion := 2
  serverSalt := 0x5a17c0de5a17c0de
  sessionId := 0x3e55109a3e55109a
  messageTime id := (id.toNat * 1000 / 2 ^ 32 : ℕ)
  currentTime := 0x5e0b7000 * 1000
  generatedMessageId := 0x5e0b700000000008
  generatedSeqNo := 0
  pfsValues := (0, 0)
  index := 0
  padding := UInt8.ofNat
  pooled _ := 0

def sampleBatch : Batch where
  messages :=
    [{ msg_id := 0x5e0b700000000004, seqno := 0, bytes := 12,
        body := [.int32 0x7abe77ec, .int64 7] }]
  fits := by decide

example : (createRequestsData sampleCrypto sampleAuthKey sampleScratch sampleSurroundings false true
    sampleBatch.messages).map RequestsData.frame =
      some (toLE 8 0x0123456789abcdef ++ (samplePing.key.1 ++ samplePing.cipher)) := by
  decide +kernel

def samplePongData : Ciphertext where
  bytes := samplePong.cipher
  long := by decide
  whole := by decide
  small := by decide

/-- The packet with the pong in it, and three bytes behind it. -/
def samplePongPacket : List UInt8 :=
  toLE 8 0x0123456789abcdef ++ (samplePong.key.1 ++ (samplePong.cipher ++ [1, 2, 3]))

theorem samplePing_measured : ∀ m ∈ sampleBatch.messages, Measured m := by
  intro m mem
  obtain rfl := List.mem_singleton.1 mem
  exact ⟨by decide, by decide, by decide⟩

theorem messages_authentic_ping :
    (decryptServerResponse sampleCrypto sampleAuthKey 2 sampleScratch 0x0123456789abcdef
        samplePong.key.1
        samplePongData.bytes = (true, samplePong.plaintext) ∧
      Authentic sampleCrypto true sampleAuthKey 0x0123456789abcdef samplePong.key.1
        samplePongData.bytes
        samplePong.plaintext) ∧
      (∃ sent plaintext,
          createRequestsData sampleCrypto sampleAuthKey sampleScratch sampleSurroundings false true
          sampleBatch.messages = some sent ∧
        Opened sampleCrypto sampleAuthKey sampleSurroundings
          (envelope sampleSurroundings false sampleBatch.messages)
          sent.frame plaintext) ∧
      Authentic sampleCrypto true sampleAuthKey (frameKeyId samplePongPacket)
        (frameKey samplePongPacket)
        (slice samplePongPacket 24 64) samplePong.plaintext ∧
      ∀ requests ∈ sendMessagesToConnection [] 0 sampleBatch.messages,
        ∃ sent plaintext,
            createRequestsData sampleCrypto sampleAuthKey sampleScratch sampleSurroundings false
              true
            requests = some sent ∧
          Opened sampleCrypto sampleAuthKey sampleSurroundings
            (envelope sampleSurroundings false requests) sent.frame
            plaintext := by
  obtain ⟨authentic, opened, cut, gathered⟩ := messages_authentic sampleCrypto
  have accepted :
      decryptServerResponse sampleCrypto sampleAuthKey 2 sampleScratch 0x0123456789abcdef
        samplePong.key.1
      samplePongData.bytes = (true, samplePong.plaintext) := by decide +kernel
  have received :
    decryptServerResponse sampleCrypto sampleAuthKey 2 sampleScratch (frameKeyId samplePongPacket)
      (frameKey samplePongPacket) (slice samplePongPacket 24 64) =
        (true, samplePong.plaintext) := by decide +kernel
  refine ⟨⟨accepted, authentic _ _ _ _ samplePongData _ accepted⟩, ?_, ?_, ?_⟩
  · exact opened _ sampleKey _ _ _ sampleBatch rfl rfl
  · exact cut _ sampleScratch true _ _ _ (by decide) (by decide) (by decide) received
  · exact gathered _ sampleKey _ _ _ _ samplePing_measured rfl rfl

end Mtproto.Datacenter
