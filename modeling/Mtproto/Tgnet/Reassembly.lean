import Mtproto.Tgnet.Wire

/-!
# What the receive loop makes of a stream

The first part says what each way of keeping bytes for the next recv leaves in `restOfTheData`
(`Keeps`), the second what one iteration does with a complete or an incomplete item.  `Carry` names
the states a connection can be in between two recvs, `Holds` says what each of them means, and the
two loop theorems give the deliveries and the next state for a loop that started in a recv buffer
(`receiveLoop_plain`) and for one that started in the carried buffer (`receiveLoop_joined`), where
the loop may end in an object that the pool has deleted (`Leads`).
-/

namespace Mtproto.Tgnet

open Bytes NativeByteBuffer

/-! ## Keeping bytes for the next recv -/

/-- The connection keeps `bytes` in a buffer with the given limit and capacity. -/
def Keeps (s : ReceiveState) (bytes : List UInt8) (limit capacity : ℕ) : Prop :=
  ∃ b, s.restOfTheData = some b ∧ b.Wf ∧ b.filled = bytes ∧ b.limit = limit ∧ b.capacity = capacity

theorem le_byteCount (size : ℕ) : size ≤ byteCount size := by
  unfold byteCount
  split_ifs <;> omega

theorem byteCount_lt {size : ℕ} (h : size < 2 ^ 32) : byteCount size < 2 ^ 32 := by
  unfold byteCount
  split_ifs <;> omega

theorem getFreeBuffer_eq (size : ℕ) :
    getFreeBuffer size = ⟨List.replicate (byteCount size) 0, 0, size, byteCount size⟩ := by
  have hle := le_byteCount size
  simp [getFreeBuffer, setLimit, rewind, new, Nat.not_lt.2 hle]

theorem wf_getFreeBuffer {size : ℕ} (h : size < 2 ^ 32) : (getFreeBuffer size).Wf := by
  rw [getFreeBuffer_eq]
  exact ⟨Nat.zero_le _, le_byteCount size, List.length_replicate, byteCount_lt h⟩

/-- A pool buffer after the unread bytes of `src` have been written to it. -/
theorem getFreeBuffer_writeBytes {size : ℕ} {src : NativeByteBuffer} (h : size < 2 ^ 32)
    (hs : src.Wf) (hfit : src.unread.length ≤ size) :
    ((getFreeBuffer size).writeBytes src).1.Wf ∧
      ((getFreeBuffer size).writeBytes src).1.filled = src.unread ∧
      ((getFreeBuffer size).writeBytes src).1.position = src.unread.length ∧
      ((getFreeBuffer size).writeBytes src).1.limit = size ∧
      ((getFreeBuffer size).writeBytes src).1.capacity = byteCount size := by
  have hzero : (getFreeBuffer size).position = 0 := by rw [getFreeBuffer_eq]
  have hlimit : (getFreeBuffer size).limit = size := by rw [getFreeBuffer_eq]
  have hcapacity : (getFreeBuffer size).capacity = byteCount size := by rw [getFreeBuffer_eq]
  obtain ⟨-, wf, filled, position, limit, capacity⟩ :=
    writeBytes_eq (wf_getFreeBuffer h) hs (by omega)
  refine ⟨wf, ?_, by omega, by omega, by omega⟩
  rw [filled, NativeByteBuffer.filled, hzero, List.take_zero, List.nil_append]

/-- Cutting the limit down to the position keeps what has been written. -/
theorem setLimit_position {b : NativeByteBuffer} (h : b.Wf) :
    (b.setLimit b.position).Wf ∧ (b.setLimit b.position).filled = b.filled ∧
      (b.setLimit b.position).limit = b.position ∧
      (b.setLimit b.position).capacity = b.capacity := by
  have hle : b.position ≤ b.capacity := h.position_le.trans h.limit_le
  rw [setLimit, if_neg (Nat.not_lt.2 hle), if_neg (lt_irrefl _)]
  exact ⟨⟨le_rfl, hle, h.length_eq, h.capacity_lt⟩, rfl, rfl, rfl⟩

theorem keepInNewBuffer_keeps {r : Receiving} (wf : r.buffer.Wf)
    (short : r.buffer.unread.length ≤ 16384) :
    (keepInNewBuffer r).state.lastPacketLength = 0 ∧
      Keeps (keepInNewBuffer r).state r.buffer.unread r.buffer.unread.length (byteCount 16384) := by
  obtain ⟨wf', filled, position, -, capacity⟩ := getFreeBuffer_writeBytes (by decide) wf short
  obtain ⟨wf'', filled', limit, capacity'⟩ := setLimit_position wf'
  exact ⟨rfl, _, rfl, wf'', filled'.trans filled, limit.trans position, capacity'.trans capacity⟩

/-- A buffer that has not been read yet, marked as written up to its limit. -/
theorem setPosition_limit {b : NativeByteBuffer} (h : b.Wf) :
    (b.setPosition b.limit).Wf ∧ (b.setPosition b.limit).filled = b.filled ++ b.unread ∧
      (b.setPosition b.limit).position = b.limit ∧ (b.setPosition b.limit).limit = b.limit ∧
      (b.setPosition b.limit).capacity = b.capacity := by
  rw [setPosition, if_neg (lt_irrefl _)]
  exact ⟨⟨le_rfl, h.limit_le, h.length_eq, h.capacity_lt⟩, take_limit h, rfl, rfl, rfl⟩

section Keep

variable {b : NativeByteBuffer} {n : ℕ}

theorem keepHeader_null (wf : b.Wf) (short : b.unread.length ≤ 16384) :
    (keepHeader ⟨b, .null, n, none⟩).state.lastPacketLength = 0 ∧
      Keeps (keepHeader ⟨b, .null, n, none⟩).state b.unread b.unread.length (byteCount 16384) :=
  keepInNewBuffer_keeps wf short

/-- A length word cut short behind other items moves to a new buffer. -/
theorem keepHeader_buffer_of_ne (wf : b.Wf) (short : b.unread.length ≤ 16384)
    (behind : b.position ≠ 0) :
    (keepHeader ⟨b, .buffer, 0, none⟩).state.lastPacketLength = 0 ∧
      Keeps (keepHeader ⟨b, .buffer, 0, none⟩).state b.unread b.unread.length
        (byteCount 16384) := by
  have hkeep : keepHeader ⟨b, .buffer, 0, none⟩ = keepInNewBuffer ⟨b, .buffer, 0, none⟩ :=
    if_pos behind
  rw [hkeep]
  exact keepInNewBuffer_keeps wf short

/-- A length word cut short at the front of the carried buffer stays there. -/
theorem keepHeader_buffer_of_eq (wf : b.Wf) (front : b.position = 0) :
    (keepHeader ⟨b, .buffer, 0, none⟩).state.lastPacketLength = 0 ∧
      Keeps (keepHeader ⟨b, .buffer, 0, none⟩).state b.unread b.unread.length b.capacity := by
  have hkeep : keepHeader ⟨b, .buffer, 0, none⟩ = ⟨b.setPosition b.limit, .buffer, 0, none⟩ :=
    if_neg (not_not.2 front)
  have hlen := length_unread wf
  obtain ⟨wf', filled, -, limit, capacity⟩ := setPosition_limit wf
  rw [hkeep]
  refine ⟨rfl, _, rfl, wf', ?_, limit.trans (by omega), capacity⟩
  rw [filled, NativeByteBuffer.filled, front, List.take_zero, List.nil_append]

/-- A packet cut short goes into a new buffer when there is none, or when it does not fit. -/
theorem keepBody_new {rest : RestOfTheData} (h len : ℕ) (wf : b.Wf)
    (short : b.unread.length ≤ len) (bound : len < 2 ^ 32)
    (new : rest = .null ∨ rest = .buffer ∧ b.capacity < len) :
    (keepBody ⟨b.advance h, rest, n, none⟩ b.position len).state.lastPacketLength = len ∧
      Keeps (keepBody ⟨b.advance h, rest, n, none⟩ b.position len).state b.unread len
        (byteCount len) := by
  have hkeep : keepBody ⟨b.advance h, rest, n, none⟩ b.position len =
      ⟨((getFreeBuffer len).writeBytes b).2, .other ((getFreeBuffer len).writeBytes b).1, len,
        none⟩ := by
    rcases new with rfl | ⟨rfl, small⟩
    · simp [keepBody, Receiving.rest?, setPosition_position_advance wf]
    · simp [keepBody, Receiving.rest?, small, setPosition_position_advance wf]
  obtain ⟨wf', filled, -, limit, capacity⟩ := getFreeBuffer_writeBytes bound wf short
  rw [hkeep]
  exact ⟨rfl, _, rfl, wf', filled, limit, capacity⟩

/-- Otherwise the carried buffer itself is kept, with everything it holds. -/
theorem keepBody_buffer {h len : ℕ} (wf : b.Wf) (hh : h ≤ b.unread.length)
    (room : len ≤ b.capacity) :
    (keepBody ⟨b.advance h, .buffer, 0, none⟩ b.position len).state.lastPacketLength = len ∧
      Keeps (keepBody ⟨b.advance h, .buffer, 0, none⟩ b.position len).state
        ((b.filled ++ b.unread).take len) len b.capacity := by
  have hkeep : keepBody ⟨b.advance h, .buffer, 0, none⟩ b.position len =
      ⟨((b.advance h).setPosition (b.advance h).limit).setLimit len, .buffer, len, none⟩ := by
    simp [keepBody, Receiving.rest?, Receiving.modifyRest, Nat.not_lt.2 room]
  obtain ⟨wf', filled, position, limit, capacity⟩ := setPosition_limit (wf.advance hh)
  have hall : (b.advance h).filled ++ (b.advance h).unread = b.filled ++ b.unread := by
    rw [filled_advance wf hh, unread_advance, List.append_assoc, List.take_append_drop]
  rw [hkeep]
  generalize (b.advance h).setPosition (b.advance h).limit = c at *
  have hroom : len ≤ c.capacity := by
    rw [capacity]
    exact room
  refine ⟨rfl, c.setLimit len, rfl, ?_⟩
  rw [setLimit, if_neg (Nat.not_lt.2 hroom)]
  refine ⟨⟨?_, hroom, wf'.length_eq, wf'.capacity_lt⟩, ?_, rfl, capacity⟩
  · simp only
    split_ifs <;> omega
  · rw [← hall, ← filled]
    simp only [NativeByteBuffer.filled, List.take_take]
    congr 1
    split_ifs <;> omega

end Keep

/-! ## One iteration -/

section Iteration

variable {p : ProtocolType} {room : Bool} {r : Receiving}

variable (room) in
theorem iteration_quickAck {ackId : ℕ} {t : List UInt8} (wf : r.buffer.Wf)
    (accepted : (Item.quickAck ackId).Accepted p)
    (unread : r.buffer.unread = (Item.quickAck ackId).wire p ++ t) :
    iteration p room r = .next { r with buffer := r.buffer.advance 4 } (.quickAck ackId) := by
  rw [Item.wire_quickAck] at unread
  rw [iteration, readHeader_quickAck wf accepted unread]

/-- The length check passes, so only the number of unread bytes decides. -/
theorem receivePacket_of_accepted {long : Bool} {payload : List UInt8}
    (accepted : (Item.packet long payload).Accepted p) (mark len : ℕ) :
    receivePacket p room r mark payload.length len =
      if payload.length > r.buffer.remaining then .leave (keepBody r mark len)
      else
        let packet := r.buffer.setLimit (u32 (r.buffer.position + payload.length))
        let buffer := (packet.setPosition packet.limit).setLimit r.buffer.limit
        if DeletesBuffer room { r with buffer := buffer } then .dangling
        else .next (parseLater (releaseRest { r with buffer := buffer }))
          (.data packet.unread) := by
  obtain ⟨hmod, hmax, -⟩ := accepted
  have hcheck : ¬ (p ≠ .DD ∧ payload.length % 4 ≠ 0 ∨ payload.length > 2 * 1024 * 1024) := by
    rintro (⟨hdd, hne⟩ | hbig)
    · exact hne (hmod hdd)
    · omega
  rw [receivePacket, if_neg hcheck]

variable (room) in
/-- A complete packet is handed on whole, and the buffer moves behind it. -/
theorem iteration_packet {long : Bool} {payload t : List UInt8} (wf : r.buffer.Wf)
    (accepted : (Item.packet long payload).Accepted p)
    (unread : r.buffer.unread = (Item.packet long payload).wire p ++ t) :
    iteration p room r =
      if DeletesBuffer room
        { r with buffer := r.buffer.advance ((Item.packet long payload).wire p).length } then
          .dangling
      else .next (parseLater (releaseRest
        { r with buffer := r.buffer.advance ((Item.packet long payload).wire p).length }))
        (.data payload) := by
  have hwire : (Item.packet long payload).wire p ++ t =
      (Item.packet long payload).header p ++ (payload ++ t) := by
    rw [Item.wire, Item.body, List.append_assoc]
  have hheader := readHeader_packet wf accepted (unread.trans hwire)
  rw [iteration, hheader]
  simp only
  rw [receivePacket_of_accepted accepted]
  set h := ((Item.packet long payload).header p).length with hh
  have hle : h ≤ r.buffer.unread.length := by
    rw [unread, hwire, List.length_append]
    omega
  have wf' := wf.advance hle
  have unread' : (r.buffer.advance h).unread = payload ++ t := by
    rw [unread_advance, unread, hwire, hh, List.drop_left]
  have hle' : payload.length ≤ (r.buffer.advance h).unread.length := by
    rw [unread', List.length_append]
    omega
  rw [if_neg (by rw [remaining_eq wf']; omega)]
  simp only
  rw [u32_position_add wf' hle', restore_limit_packet wf' hle', unread_setLimit_packet wf' hle',
    unread', List.take_left, advance_advance, Item.length_wire, Item.body]

theorem iteration_incomplete_header {i : Item} {n : ℕ} (wf : r.buffer.Wf)
    (accepted : i.Accepted p) (pos : 0 < n) (short : n < (i.header p).length)
    (unread : r.buffer.unread = (i.wire p).take n) :
    iteration p room r = .leave (keepIncomplete p i r) := by
  have hunread : r.buffer.unread = (i.header p).take n := by
    rw [unread, Item.wire, List.take_append_of_le_length short.le]
  rw [iteration, readHeader_incomplete wf accepted pos short hunread]

theorem iteration_incomplete_body {long : Bool} {payload : List UInt8} {n : ℕ} (wf : r.buffer.Wf)
    (accepted : (Item.packet long payload).Accepted p)
    (headed : ((Item.packet long payload).header p).length ≤ n)
    (short : n < ((Item.packet long payload).wire p).length)
    (unread : r.buffer.unread = ((Item.packet long payload).wire p).take n) :
    iteration p room r =
      .leave (keepBody
        { r with buffer := r.buffer.advance ((Item.packet long payload).header p).length }
        r.buffer.position ((Item.packet long payload).wire p).length) := by
  have hlen : r.buffer.unread.length = n := by
    rw [unread, List.length_take]
    omega
  have hunread : r.buffer.unread = (Item.packet long payload).header p ++
      payload.take (n - ((Item.packet long payload).header p).length) := by
    rw [unread, Item.wire, Item.body, List.take_append, List.take_of_length_le headed]
  rw [iteration, readHeader_packet wf accepted hunread]
  simp only
  rw [receivePacket_of_accepted accepted]
  have wf' := wf.advance (n := ((Item.packet long payload).header p).length) (by omega)
  rw [if_pos]
  rw [remaining_eq wf', unread_advance, List.length_drop, hlen]
  rw [Item.length_wire, Item.body] at short
  omega

end Iteration

/-! ## The state between two recvs -/

/-- The items that `n` bytes of a stream complete, the items that are left, and how many bytes of
the first of these belong to the `n`. -/
def split (p : ProtocolType) : List Item → ℕ → List Item × List Item × ℕ
  | [], n => ([], [], n)
  | i :: items, n =>
    if (i.wire p).length ≤ n then
      let (done, todo, left) := split p items (n - (i.wire p).length)
      (i :: done, todo, left)
    else ([], i :: items, n)

/-- The quick acks after the last packet of `done`, or all of them after `acks`. -/
def trail (acks : List Item) : List Item → List Item
  | [] => acks
  | i :: done => trail (if i.isQuickAck then acks ++ [i] else []) done

/-- Behind `acks`, the items `done` end with a packet, and nothing of another one follows. -/
def EndsBehindPacket (acks done : List Item) (left : ℕ) : Prop :=
  done ≠ [] ∧ trail acks done = [] ∧ left = 0

instance (acks done : List Item) (left : ℕ) : Decidable (EndsBehindPacket acks done left) :=
  inferInstanceAs (Decidable (_ ∧ _ ∧ _))

theorem endsBehindPacket_quickAck {acks done : List Item} {ackId left : ℕ} :
    EndsBehindPacket acks (.quickAck ackId :: done) left ↔
      EndsBehindPacket (acks ++ [.quickAck ackId]) done left := by
  refine ⟨fun h => ⟨?_, h.2⟩, fun h => ⟨List.cons_ne_nil _ _, h.2⟩⟩
  rintro rfl
  exact List.append_ne_nil_of_right_ne_nil acks (List.cons_ne_nil _ _) h.2.1

theorem endsBehindPacket_packet {acks done : List Item} {long : Bool} {payload : List UInt8}
    {left : ℕ} (more : done ≠ [] ∨ left ≠ 0) :
    EndsBehindPacket acks (.packet long payload :: done) left ↔ EndsBehindPacket [] done left := by
  refine ⟨fun h => ⟨?_, h.2⟩, fun h => ⟨List.cons_ne_nil _ _, h.2⟩⟩
  exact more.resolve_right (not_not.2 h.2.2)

/-- What a connection keeps between two recvs. -/
inductive Carry where
  | nothing
  /-- An incomplete length word or quick ack, in a buffer of this capacity. -/
  | header (capacity : ℕ)
  /-- An incomplete packet whose length is known, in a buffer of this capacity. -/
  | body (capacity : ℕ)
  /-- Quick acks that have been delivered and are still in the buffer. -/
  | acks (delivered : List Item) (capacity : ℕ)
  /-- Quick acks that have been delivered, taken for the beginning of an incomplete packet. -/
  | misread (delivered : List Item)
  deriving DecidableEq, Repr

namespace Carry

/-- What is kept of `left` bytes when parsing started in a recv buffer. -/
def plain (p : ProtocolType) (todo : List Item) (left : ℕ) : Carry :=
  match todo with
  | [] => .nothing
  | i :: _ =>
    if left = 0 then .nothing
    else if left < (i.header p).length then .header (byteCount 16384)
    else .body (byteCount (i.wire p).length)

/-- What is kept of `left` bytes when parsing started in the carried buffer and `acks` lie before
these bytes. -/
def joined (p : ProtocolType) (capacity : ℕ) (acks todo : List Item) (left : ℕ) : Carry :=
  match todo with
  | [] => if acks = [] then .nothing else .acks acks capacity
  | i :: _ =>
    if left = 0 then if acks = [] then .nothing else .acks acks capacity
    else if left < (i.header p).length then
      if acks = [] ∧ ¬ (p = .EF ∧ i.isQuickAck) then .header capacity else .header (byteCount 16384)
    else if capacity < (i.wire p).length then .body (byteCount (i.wire p).length)
    else if acks = [] then .body capacity
    else .misread acks

/-- The capacity of the buffer that takes `length` more bytes after `kept` carried ones. -/
def joinedCapacity (capacity kept length : ℕ) : ℕ :=
  if length ≤ capacity - kept then capacity else byteCount (kept + length)

/-- What is kept after a recv buffer of `length` bytes. -/
def next (p : ProtocolType) (items : List Item) (left length : ℕ) (carry : Carry) : Carry :=
  let (done, todo, left') := split p items (left + length)
  match carry with
  | .nothing => plain p todo left'
  | .header capacity =>
    joined p (joinedCapacity capacity left length) (trail [] done) todo left'
  | .body capacity => if done = [] then .body capacity else plain p todo left'
  | .acks delivered capacity =>
    joined p (joinedCapacity capacity (wires p delivered).length length) (trail delivered done) todo
      left'
  | .misread delivered => .misread delivered

/-- The capacity of the carried buffer, where a recv buffer of `length` bytes ends right behind a
packet in it. -/
def usedUp (p : ProtocolType) (items : List Item) (left length : ℕ) (carry : Carry) : Option ℕ :=
  let (done, _, left') := split p items (left + length)
  match carry with
  | .nothing | .misread _ => none
  | .header capacity =>
    if EndsBehindPacket [] done left' then some (joinedCapacity capacity left length) else none
  | .body capacity => if done.length = 1 ∧ left' = 0 then some capacity else none
  | .acks delivered capacity =>
    if EndsBehindPacket delivered done left' then
      some (joinedCapacity capacity (wires p delivered).length length)
    else none

/-- Only bytes that have not been delivered are kept, and they are taken for what they are. -/
def Sound : Carry → Prop
  | .nothing | .header _ | .body _ => True
  | .acks _ _ | .misread _ => False

instance : (carry : Carry) → Decidable carry.Sound
  | .nothing | .header _ | .body _ => isTrue trivial
  | .acks _ _ | .misread _ => isFalse id

end Carry

/-- Quick acks that a client can be told about. -/
def QuickAcks (p : ProtocolType) (acks : List Item) : Prop :=
  ∀ i ∈ acks, i.isQuickAck = true ∧ i.Accepted p

theorem quickAcks_nil (p : ProtocolType) : QuickAcks p [] := fun _ h => absurd h List.not_mem_nil

/-- The state of a connection that has received everything before `items` and `left` bytes of
the first of them. -/
def Holds (p : ProtocolType) (s : ReceiveState) (items : List Item) (left : ℕ) : Carry → Prop
  | .nothing => s.restOfTheData = none ∧ left = 0
  | .header capacity =>
    0 < left ∧ s.lastPacketLength = 0 ∧ Keeps s ((wires p items).take left) left capacity
  | .body capacity =>
    ∃ long payload rest, items = .packet long payload :: rest ∧
      left < ((Item.packet long payload).wire p).length ∧
      s.lastPacketLength = ((Item.packet long payload).wire p).length ∧
      Keeps s (((Item.packet long payload).wire p).take left)
        ((Item.packet long payload).wire p).length capacity
  | .acks delivered capacity =>
    left = 0 ∧ delivered ≠ [] ∧ QuickAcks p delivered ∧ s.lastPacketLength = 0 ∧
      Keeps s (wires p delivered) (wires p delivered).length capacity
  | .misread delivered =>
    ∃ long payload rest capacity, items = .packet long payload :: rest ∧ delivered ≠ [] ∧
      QuickAcks p delivered ∧ ((Item.packet long payload).header p).length ≤ left ∧
      left < ((Item.packet long payload).wire p).length ∧
      s.lastPacketLength = ((Item.packet long payload).wire p).length ∧
      Keeps s ((wires p delivered ++ (wires p items).take left).take
        ((Item.packet long payload).wire p).length)
        ((Item.packet long payload).wire p).length capacity

/-! ## The loop on the bytes of a stream -/

/-- `left` bytes of `todo` that complete none of its items. -/
def Partial (p : ProtocolType) (todo : List Item) (left : ℕ) : Prop :=
  match todo with
  | [] => left = 0
  | i :: _ => left < (i.wire p).length

section Loop

/-- The deliveries of a recv buffer and the state behind it, unless a deleted object is read. -/
def Leads (result : Option (ReceiveState × List Delivery)) (dangling : Prop) (ds : List Delivery)
    (next : ReceiveState → Prop) : Prop :=
  (dangling → result = none) ∧ (¬ dangling → ∃ s, result = some (s, ds) ∧ next s)

theorem leads_of_not {result : Option (ReceiveState × List Delivery)} {dangling : Prop}
    {ds : List Delivery} {next : ReceiveState → Prop} (alive : ¬ dangling)
    (leads : ∃ s, result = some (s, ds) ∧ next s) : Leads result dangling ds next :=
  ⟨fun h => absurd h alive, fun _ => leads⟩

variable {p : ProtocolType} {room : Bool} {r r' : Receiving} {fuel : ℕ}

theorem receiveLoop_stop (wf : r.buffer.Wf) (nil : r.buffer.unread = []) :
    receiveLoop p room (fuel + 1) r = some (r.state, []) := by
  have hdone : ¬ r.buffer.hasRemaining = true := by
    rw [hasRemaining_iff wf]
    exact not_not.2 nil
  rw [receiveLoop, if_neg hdone]

theorem receiveLoop_leave (wf : r.buffer.Wf) (more : r.buffer.unread ≠ [])
    (left : iteration p room r = .leave r') :
    receiveLoop p room (fuel + 1) r = some (r'.state, []) := by
  rw [receiveLoop, if_pos ((hasRemaining_iff wf).2 more), left]

theorem receiveLoop_dangling (wf : r.buffer.Wf) (more : r.buffer.unread ≠ [])
    (step : iteration p room r = .dangling) : receiveLoop p room (fuel + 1) r = none := by
  rw [receiveLoop, if_pos ((hasRemaining_iff wf).2 more), step]

theorem receiveLoop_next {d : Delivery} {s : ReceiveState} {ds : List Delivery}
    (wf : r.buffer.Wf) (more : r.buffer.unread ≠ []) (step : iteration p room r = .next r' d)
    (rest : receiveLoop p room fuel r' = some (s, ds)) :
    receiveLoop p room (fuel + 1) r = some (s, d :: ds) := by
  rw [receiveLoop, if_pos ((hasRemaining_iff wf).2 more), step]
  simp only [rest, Option.map_some]

/-- One more delivery in front. -/
theorem Leads.cons {d : Delivery} {ds : List Delivery} {dangling : Prop}
    {next : ReceiveState → Prop}
    (leads : Leads (receiveLoop p room fuel r') dangling ds next) (wf : r.buffer.Wf)
    (more : r.buffer.unread ≠ []) (step : iteration p room r = .next r' d) :
    Leads (receiveLoop p room (fuel + 1) r) dangling (d :: ds) next := by
  refine ⟨fun h => ?_, fun h => ?_⟩
  · rw [receiveLoop, if_pos ((hasRemaining_iff wf).2 more), step]
    simp only [leads.1 h, Option.map_none]
  · obtain ⟨s, loop, holds⟩ := leads.2 h
    exact ⟨s, receiveLoop_next wf more step loop, holds⟩

variable {b : NativeByteBuffer} {n left : ℕ} {todo : List Item} {i : Item} {rest : List Item}

theorem wires_take_of_lt (rest : List Item) (short : left < (i.wire p).length) :
    (wires p (i :: rest)).take left = (i.wire p).take left := by
  rw [wires_cons, List.take_append_of_le_length short.le]

theorem take_wire_ne_nil (pos : left ≠ 0) : (i.wire p).take left ≠ [] := by
  have := Item.length_wire_pos (p := p) (i := i)
  rw [← List.length_pos_iff, List.length_take]
  omega

/-- Only a data frame is longer than its header. -/
theorem exists_packet_of_header_le (headed : (i.header p).length ≤ left)
    (short : left < (i.wire p).length) : ∃ long payload, i = .packet long payload := by
  cases i with
  | packet long payload => exact ⟨long, payload, rfl⟩
  | quickAck ackId =>
    rw [Item.wire_quickAck] at short
    omega

theorem keepIncomplete_null (wf : b.Wf) (short : b.unread.length ≤ 16384) :
    (keepIncomplete p i ⟨b, .null, n, none⟩).state.lastPacketLength = 0 ∧
      Keeps (keepIncomplete p i ⟨b, .null, n, none⟩).state b.unread b.unread.length
        (byteCount 16384) := by
  unfold keepIncomplete
  split_ifs
  · exact keepInNewBuffer_keeps wf short
  · exact keepHeader_null wf short

/-- The loop stops at an incomplete item, parsing having started in a recv buffer. -/
theorem receiveLoop_plain_left (wf : b.Wf) (accepted : ∀ i ∈ todo, i.Accepted p)
    (partly : Partial p todo left) (unread : b.unread = (wires p todo).take left) :
    ∃ s, receiveLoop p room (fuel + 1) ⟨b, .null, n, none⟩ = some (s, []) ∧
      Holds p s todo left (Carry.plain p todo left) := by
  cases todo with
  | nil => exact ⟨_, receiveLoop_stop wf (by simpa using unread), rfl, partly⟩
  | cons i rest =>
    have haccepted : i.Accepted p := accepted i (List.mem_cons_self ..)
    have short : left < (i.wire p).length := partly
    rw [wires_take_of_lt rest short] at unread
    have hlen : b.unread.length = left := by
      rw [unread, List.length_take]
      omega
    by_cases hzero : left = 0
    · refine ⟨_, receiveLoop_stop wf (by rw [unread, hzero, List.take_zero]), ?_⟩
      rw [Carry.plain, if_pos hzero]
      exact ⟨rfl, hzero⟩
    have more : b.unread ≠ [] := by
      rw [unread]
      exact take_wire_ne_nil hzero
    by_cases hheader : left < (i.header p).length
    · have hle := Item.length_header_le (p := p) (i := i)
      refine ⟨_, receiveLoop_leave wf more
        (iteration_incomplete_header wf haccepted (by omega) hheader unread), ?_⟩
      obtain ⟨last, keeps⟩ := keepIncomplete_null (p := p) (i := i) (n := n) wf (by omega)
      rw [hlen, unread, ← wires_take_of_lt rest short] at keeps
      rw [Carry.plain, if_neg hzero, if_pos hheader]
      exact ⟨by omega, last, keeps⟩
    · obtain ⟨long, payload, rfl⟩ := exists_packet_of_header_le (by omega) short
      have hbound := Item.length_wire_lt haccepted
      refine ⟨_, receiveLoop_leave wf more
        (iteration_incomplete_body wf haccepted (by omega) short unread), ?_⟩
      obtain ⟨last, keeps⟩ := keepBody_new (n := n) ((Item.packet long payload).header p).length
        ((Item.packet long payload).wire p).length wf (by omega) (by omega) (Or.inl rfl)
      rw [unread] at keeps
      rw [Carry.plain, if_neg hzero, if_neg hheader]
      exact ⟨long, payload, rest, rfl, short, last, keeps⟩

variable (room) in
theorem iteration_plain {t : List UInt8} (wf : b.Wf) (accepted : i.Accepted p)
    (unread : b.unread = i.wire p ++ t) :
    iteration p room ⟨b, .null, n, none⟩ =
      .next ⟨b.advance (i.wire p).length, .null, n, none⟩ i.delivery := by
  cases i with
  | packet long payload =>
    rw [iteration_packet room wf accepted unread, if_neg fun deletes => by cases deletes.1]
    rfl
  | quickAck ackId =>
    rw [Item.wire_quickAck, Item.length_header_quickAck]
    exact iteration_quickAck room wf accepted unread

/-- Consuming the first of the items that lie before `t`. -/
theorem unread_advance_wire {t : List UInt8} (unread : b.unread = i.wire p ++ t) :
    (i.wire p).length ≤ b.unread.length ∧ b.unread ≠ [] ∧
      (b.advance (i.wire p).length).unread = t := by
  have hpos := Item.length_wire_pos (p := p) (i := i)
  refine ⟨?_, ?_, ?_⟩
  · rw [unread, List.length_append]
    omega
  · rw [← List.length_pos_iff, unread, List.length_append]
    omega
  · rw [unread_advance, unread, List.drop_left]

variable (room) in
/-- Parsing that started in a recv buffer delivers every complete item and keeps the rest. -/
theorem receiveLoop_plain {done : List Item} (enough : done.length < fuel) (wf : b.Wf)
    (accepted : ∀ i ∈ done ++ todo, i.Accepted p) (partly : Partial p todo left)
    (unread : b.unread = wires p done ++ (wires p todo).take left) :
    ∃ s, receiveLoop p room fuel ⟨b, .null, n, none⟩ = some (s, done.map Item.delivery) ∧
      Holds p s todo left (Carry.plain p todo left) := by
  induction done generalizing b fuel with
  | nil =>
    obtain ⟨fuel, rfl⟩ : ∃ k, fuel = k + 1 := ⟨fuel - 1, by omega⟩
    exact receiveLoop_plain_left wf accepted partly unread
  | cons i done ih =>
    obtain ⟨fuel, rfl⟩ : ∃ k, fuel = k + 1 := ⟨fuel - 1, by omega⟩
    rw [wires_cons, List.append_assoc] at unread
    obtain ⟨hle, more, hrest⟩ := unread_advance_wire unread
    have hfuel : done.length < fuel := by simpa using enough
    obtain ⟨s, loop, holds⟩ := ih hfuel (wf.advance hle)
      (fun j hj => accepted j (List.mem_cons_of_mem _ hj)) hrest
    have step := iteration_plain room (n := n) wf (accepted i (List.mem_cons_self ..)) unread
    exact ⟨s, receiveLoop_next wf more step loop, holds⟩

/-! ### Parsing that started in the carried buffer -/

theorem wires_eq_nil_iff (items : List Item) : wires p items = [] ↔ items = [] := by
  cases items with
  | nil => simp
  | cons i items =>
    have := List.length_pos_iff.1 (Item.length_wire_pos (p := p) (i := i))
    simp [this]

theorem position_eq_zero_iff {acks : List Item} (wf : b.Wf) (filled : b.filled = wires p acks) :
    b.position = 0 ↔ acks = [] := by
  rw [← wires_eq_nil_iff (p := p), ← filled, ← List.length_eq_zero_iff, length_filled wf]

/-- The loop stops at an incomplete item behind `acks`, parsing having started in the carried
buffer. -/
theorem receiveLoop_joined_left {acks : List Item} (quick : QuickAcks p acks) (wf : b.Wf)
    (accepted : ∀ i ∈ todo, i.Accepted p) (partly : Partial p todo left)
    (filled : b.filled = wires p acks) (some_bytes : acks ≠ [] ∨ b.unread ≠ [])
    (unread : b.unread = (wires p todo).take left) :
    ∃ s, receiveLoop p room (fuel + 1) ⟨b, .buffer, 0, none⟩ = some (s, []) ∧
      Holds p s todo left (Carry.joined p b.capacity acks todo left) := by
  have hfilled := length_filled wf
  have hstop (hzero : left = 0) (hunread : b.unread = []) (hne : acks ≠ []) :
      ∃ s, receiveLoop p room (fuel + 1) ⟨b, .buffer, 0, none⟩ = some (s, []) ∧
        Holds p s todo left (.acks acks b.capacity) := by
    refine ⟨_, receiveLoop_stop wf hunread, hzero, hne, quick, rfl, b, rfl, wf, filled, ?_, rfl⟩
    rw [← filled, hfilled]
    exact ((unread_eq_nil_iff wf).1 hunread).symm
  cases todo with
  | nil =>
    have hunread : b.unread = [] := by simpa using unread
    have hne : acks ≠ [] := some_bytes.resolve_right (not_not.2 hunread)
    rw [Carry.joined, if_neg hne]
    exact hstop partly hunread hne
  | cons i rest =>
    have haccepted : i.Accepted p := accepted i (List.mem_cons_self ..)
    have short : left < (i.wire p).length := partly
    rw [wires_take_of_lt rest short] at unread
    have hlen : b.unread.length = left := by
      rw [unread, List.length_take]
      omega
    by_cases hzero : left = 0
    · have hunread : b.unread = [] := by rw [unread, hzero, List.take_zero]
      have hne : acks ≠ [] := some_bytes.resolve_right (not_not.2 hunread)
      rw [Carry.joined, if_pos hzero, if_neg hne]
      exact hstop hzero hunread hne
    have more : b.unread ≠ [] := by
      rw [unread]
      exact take_wire_ne_nil hzero
    by_cases hheader : left < (i.header p).length
    · have hle := Item.length_header_le (p := p) (i := i)
      refine ⟨_, receiveLoop_leave wf more
        (iteration_incomplete_header wf haccepted (by omega) hheader unread), ?_⟩
      rw [Carry.joined, if_neg hzero, if_pos hheader, keepIncomplete]
      have hnew := keepInNewBuffer_keeps (r := ⟨b, .buffer, 0, none⟩) wf (by simp only; omega)
      by_cases hack : p = .EF ∧ i.isQuickAck = true
      · rw [if_pos hack, if_neg (fun h => h.2 hack)]
        simp only [hlen] at hnew
        rw [unread, ← wires_take_of_lt rest short] at hnew
        exact ⟨by omega, hnew⟩
      · rw [if_neg hack]
        by_cases hacks : acks = []
        · have hkeep := keepHeader_buffer_of_eq wf ((position_eq_zero_iff wf filled).2 hacks)
          rw [hlen, unread, ← wires_take_of_lt rest short] at hkeep
          rw [if_pos ⟨hacks, hack⟩]
          exact ⟨by omega, hkeep⟩
        · have hkeep := keepHeader_buffer_of_ne wf (by omega)
            (fun h => hacks ((position_eq_zero_iff wf filled).1 h))
          rw [hlen, unread, ← wires_take_of_lt rest short] at hkeep
          rw [if_neg (fun h => hacks h.1)]
          exact ⟨by omega, hkeep⟩
    · obtain ⟨long, payload, rfl⟩ := exists_packet_of_header_le (by omega) short
      have hbound := Item.length_wire_lt haccepted
      refine ⟨_, receiveLoop_leave wf more
        (iteration_incomplete_body wf haccepted (by omega) short unread), ?_⟩
      rw [Carry.joined, if_neg hzero, if_neg hheader]
      by_cases hroom : b.capacity < ((Item.packet long payload).wire p).length
      · obtain ⟨last, keeps⟩ := keepBody_new (n := 0) ((Item.packet long payload).header p).length
          ((Item.packet long payload).wire p).length wf (by omega) (by omega) (Or.inr ⟨rfl, hroom⟩)
        rw [unread] at keeps
        rw [if_pos hroom]
        exact ⟨long, payload, rest, rfl, short, last, keeps⟩
      · obtain ⟨last, keeps⟩ := keepBody_buffer
          (h := ((Item.packet long payload).header p).length) wf (by omega) (Nat.not_lt.1 hroom)
        rw [filled, unread] at keeps
        rw [if_neg hroom]
        by_cases hacks : acks = []
        · rw [if_pos hacks]
          rw [hacks, wires_nil, List.nil_append, List.take_take, Nat.min_eq_right short.le] at keeps
          exact ⟨long, payload, rest, rfl, short, last, keeps⟩
        · rw [if_neg hacks]
          rw [← wires_take_of_lt rest short] at keeps
          exact ⟨long, payload, rest, _, rfl, hacks, quick, by omega, short, last, keeps⟩

/-- After a packet the carried buffer is dropped when it is used up. -/
theorem releaseRest_joined_nil (wf : b.Wf) (nil : b.unread = []) :
    releaseRest ⟨b, .buffer, 0, none⟩ = ⟨b, .null, 0, none⟩ := by
  have hdone : b.hasRemaining = false := by
    rw [← Bool.not_eq_true, hasRemaining_iff wf]
    exact not_not.2 nil
  exact if_pos (Or.inr ⟨rfl, hdone⟩)

/-- Otherwise its unread bytes move to the front. -/
theorem releaseRest_joined_cons (wf : b.Wf) (more : b.unread ≠ []) :
    ∃ c, releaseRest ⟨b, .buffer, 0, none⟩ = ⟨c, .buffer, 0, none⟩ ∧ c.Wf ∧ c.filled = [] ∧
      c.unread = b.unread ∧ c.capacity = b.capacity := by
  obtain ⟨wf', unread, front, capacity⟩ := compact_eq wf more
  refine ⟨_, if_neg ?_, wf', ?_, unread, capacity⟩
  · rintro (⟨h, -⟩ | ⟨-, h⟩)
    · exact h rfl
    · exact Bool.noConfusion (h.symm.trans ((hasRemaining_iff wf).2 more))
  · rw [NativeByteBuffer.filled, front, List.take_zero]

variable (room) in
/-- The pool deletes a carried buffer that a packet uses up, unless it survives. -/
theorem deletesBuffer_joined_iff (wf : b.Wf) :
    DeletesBuffer room ⟨b, .buffer, 0, none⟩ ↔
      b.unread = [] ∧ survivesReuse room b.capacity = false := by
  by_cases nil : b.unread = []
  · simp [DeletesBuffer, releaseRest_joined_nil wf nil, nil]
  · obtain ⟨c, hc, -⟩ := releaseRest_joined_cons wf nil
    simp [DeletesBuffer, hc, nil]

/-- Parsing that started in the carried buffer, behind `acks`, delivers every complete item, unless
a packet at the end of the buffer makes the pool delete it. -/
theorem receiveLoop_joined {done acks : List Item} (quick : QuickAcks p acks)
    (enough : done.length < fuel) (wf : b.Wf)
    (accepted : ∀ i ∈ done ++ todo, i.Accepted p) (partly : Partial p todo left)
    (filled : b.filled = wires p acks) (some_bytes : acks ≠ [] ∨ b.unread ≠ [])
    (unread : b.unread = wires p done ++ (wires p todo).take left) :
    Leads (receiveLoop p room fuel ⟨b, .buffer, 0, none⟩)
      (EndsBehindPacket acks done left ∧ survivesReuse room b.capacity = false)
      (done.map Item.delivery)
      fun s => Holds p s todo left (Carry.joined p b.capacity (trail acks done) todo left) := by
  induction done generalizing b fuel acks with
  | nil =>
    obtain ⟨fuel, rfl⟩ : ∃ k, fuel = k + 1 := ⟨fuel - 1, by omega⟩
    exact leads_of_not (fun h => h.1.1 rfl)
      (receiveLoop_joined_left quick wf accepted partly filled some_bytes unread)
  | cons i done ih =>
    obtain ⟨fuel, rfl⟩ : ∃ k, fuel = k + 1 := ⟨fuel - 1, by omega⟩
    rw [wires_cons, List.append_assoc] at unread
    have haccepted := accepted i (List.mem_cons_self ..)
    have htail : ∀ j ∈ done ++ todo, j.Accepted p :=
      fun j hj => accepted j (List.mem_cons_of_mem _ hj)
    have hfuel : done.length < fuel := by simpa using enough
    obtain ⟨hle, more, hrest⟩ := unread_advance_wire unread
    cases i with
    | quickAck ackId =>
      have step := iteration_quickAck room (r := ⟨b, .buffer, 0, none⟩) wf haccepted unread
      rw [Item.wire_quickAck, Item.length_header_quickAck] at hle hrest
      have hfilled : (b.advance 4).filled = wires p (acks ++ [.quickAck ackId]) := by
        rw [filled_advance wf hle, filled, unread, Item.wire_quickAck,
          List.take_left' (Item.length_header_quickAck _), wires_append, wires_cons, wires_nil,
          List.append_nil, Item.wire_quickAck]
      have hquick : QuickAcks p (acks ++ [.quickAck ackId]) := by
        intro j hj
        rcases List.mem_append.1 hj with hj | hj
        · exact quick j hj
        · rw [List.mem_singleton.1 hj]
          exact ⟨rfl, haccepted⟩
      have loop := ih hquick hfuel (wf.advance hle) htail hfilled (Or.inl (by simp)) hrest
      rw [endsBehindPacket_quickAck]
      exact loop.cons wf more step
    | packet long payload =>
      have step := iteration_packet room (r := ⟨b, .buffer, 0, none⟩) wf haccepted unread
      have wf' := wf.advance hle
      have deletes := deletesBuffer_joined_iff room wf'
      by_cases hnil : (b.advance ((Item.packet long payload).wire p).length).unread = []
      · -- The buffer is used up: nothing can be left of the stream, so the two modes agree.
        obtain ⟨hdone, hleft⟩ := List.append_eq_nil_iff.1 (hrest.symm.trans hnil)
        obtain rfl := (wires_eq_nil_iff _).1 hdone
        have hzero : left = 0 := by
          cases todo with
          | nil => exact partly
          | cons i rest =>
            by_contra hpos
            rw [wires_take_of_lt rest partly] at hleft
            exact take_wire_ne_nil hpos hleft
        have ends : EndsBehindPacket acks [Item.packet long payload] left :=
          ⟨List.cons_ne_nil _ _, rfl, hzero⟩
        by_cases survives : survivesReuse room b.capacity = false
        · rw [if_pos (deletes.2 ⟨hnil, survives⟩)] at step
          exact ⟨fun _ => receiveLoop_dangling wf more step, fun h => absurd ⟨ends, survives⟩ h⟩
        · refine leads_of_not (fun h => survives h.2) ?_
          rw [if_neg fun h => survives (deletes.1 h).2] at step
          simp only [releaseRest_joined_nil wf' hnil] at step
          obtain ⟨s, loop, holds⟩ :=
            receiveLoop_plain room (n := 0) hfuel wf' htail partly hrest
          refine ⟨s, receiveLoop_next wf more step loop, ?_⟩
          have hmode : Carry.joined p b.capacity (trail acks [.packet long payload]) todo left =
              Carry.plain p todo left := by
            cases todo with
            | nil => rfl
            | cons i rest =>
              rw [Carry.joined, Carry.plain, if_pos hzero, if_pos hzero]
              rfl
          rw [hmode]
          exact holds
      · rw [if_neg fun h => hnil (deletes.1 h).1] at step
        obtain ⟨c, hc, wfc, filledc, unreadc, capacityc⟩ := releaseRest_joined_cons wf' hnil
        simp only [hc] at step
        have loop := ih (quickAcks_nil p) hfuel wfc htail filledc (Or.inr (unreadc ▸ hnil))
          (unreadc.trans hrest)
        rw [capacityc] at loop
        have hmore : done ≠ [] ∨ left ≠ 0 := by
          by_contra none_left
          obtain ⟨hdone, hleft⟩ := not_or.1 none_left
          rw [not_not.1 hdone, not_not.1 hleft, List.take_zero] at hrest
          exact hnil hrest
        rw [endsBehindPacket_packet hmore]
        exact loop.cons wf more step

end Loop

end Mtproto.Tgnet
