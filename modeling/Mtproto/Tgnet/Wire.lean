import Mtproto.Tgnet.Receive

/-!
# Frames on the wire

A decrypted stream is a concatenation of data frames and quick-ack words.  `Item.wire` gives the
bytes of one of them for each protocol, `Item.Accepted` the lengths that pass the check of the
receive loop, and the lemmas below say what the first half of the loop body makes of a header that
is complete (`readHeader_packet`, `readHeader_quickAck`) or cut short (`readHeader_incomplete`).
-/

namespace Mtproto.Tgnet

open Bytes NativeByteBuffer

/-- One element of a stream. -/
inductive Item where
  /-- A data frame; `long` selects the four-byte header of the EF protocol. -/
  | packet (long : Bool) (payload : List UInt8)
  /-- A quick ack. -/
  | quickAck (ackId : ℕ)
  deriving DecidableEq, Repr

namespace Item

/-- The length word of a data frame, or the whole of a quick ack. -/
def header (p : ProtocolType) : Item → List UInt8
  | .packet long payload =>
    match p with
    | .EF =>
        if long then 0x7f :: toLE 3 (payload.length / 4)
        else [UInt8.ofNat (payload.length / 4)]
    | _ => toLE 4 payload.length
  | .quickAck ackId =>
    match p with
    | .EF => toBE 4 (ackId + 2 ^ 31)
    | _ => toLE 4 (ackId + 2 ^ 31)

/-- The bytes after the header. -/
def body : Item → List UInt8
  | .packet _ payload => payload
  | .quickAck _ => []

/-- The bytes of an item. -/
def wire (p : ProtocolType) (i : Item) : List UInt8 := i.header p ++ i.body

/-- What the client is to be told about an item. -/
def delivery : Item → Delivery
  | .packet _ payload => .data payload
  | .quickAck ackId => .quickAck ackId

def isQuickAck : Item → Bool
  | .packet _ _ => false
  | .quickAck _ => true

/-- The item fits its header, and a data frame has a length the receive loop accepts. -/
def Accepted (p : ProtocolType) : Item → Prop
  | .packet long payload =>
    (p ≠ .DD → payload.length % 4 = 0) ∧ payload.length ≤ 2 * 1024 * 1024 ∧
      (p = .EF → long = false → payload.length / 4 < 0x7f)
  | .quickAck ackId => ackId < 2 ^ 31

instance (p : ProtocolType) : (i : Item) → Decidable (i.Accepted p)
  | .packet long payload => inferInstanceAs (Decidable ((p ≠ .DD → payload.length % 4 = 0) ∧
      payload.length ≤ 2 * 1024 * 1024 ∧ (p = .EF → long = false → payload.length / 4 < 0x7f)))
  | .quickAck ackId => inferInstanceAs (Decidable (ackId < 2 ^ 31))

end Item

/-- The bytes of a stream. -/
def wires (p : ProtocolType) (items : List Item) : List UInt8 := items.flatMap (Item.wire p)

section Lengths

variable {p : ProtocolType} {i : Item}

@[simp] theorem wires_nil : wires p [] = [] := rfl

@[simp] theorem wires_cons (items : List Item) : wires p (i :: items) = i.wire p ++ wires p items :=
  rfl

@[simp] theorem wires_append (items items' : List Item) :
    wires p (items ++ items') = wires p items ++ wires p items' := List.flatMap_append

namespace Item

theorem length_header_pos : 0 < (i.header p).length := by
  cases i with
  | packet long payload => cases p <;> cases long <;> simp [header]
  | quickAck ackId => cases p <;> simp [header]

theorem length_header_le : (i.header p).length ≤ 4 := by
  cases i with
  | packet long payload => cases p <;> cases long <;> simp [header]
  | quickAck ackId => cases p <;> simp [header]

theorem length_header_quickAck (ackId : ℕ) : ((quickAck ackId).header p).length = 4 := by
  cases p <;> simp [header]

theorem wire_quickAck (ackId : ℕ) : (quickAck ackId).wire p = (quickAck ackId).header p := by
  simp [wire, body]

theorem length_wire : (i.wire p).length = (i.header p).length + i.body.length :=
  List.length_append

theorem length_wire_pos : 0 < (i.wire p).length := by
  have := length_header_pos (p := p) (i := i)
  rw [length_wire]
  omega

theorem length_wire_lt (accepted : i.Accepted p) : (i.wire p).length < 2 ^ 31 := by
  have hhead := length_header_le (p := p) (i := i)
  rw [length_wire]
  cases i with
  | packet long payload =>
    have hlen := accepted.2.1
    simp only [body]
    omega
  | quickAck ackId =>
    simp only [body, List.length_nil]
    omega

end Item

end Lengths

/-! ## Reading a header -/

/-- The test `fByte & (1 << 7)` of the EF protocol. -/
theorem and_high_bit_ne_zero (x : UInt8) : x &&& 0x80 ≠ 0 ↔ 128 ≤ x.toNat := by
  have hall : ∀ n : Fin 256, UInt8.ofFin n &&& 0x80 ≠ 0 ↔ 128 ≤ n.val := by decide +kernel
  exact hall x.toFin

/-- The first byte of an EF quick ack has its high bit set. -/
theorem toBE_four_high {n : ℕ} (h : n < 2 ^ 31) :
    ∃ x t, toBE 4 (n + 2 ^ 31) = x :: t ∧ t.length = 3 ∧ 128 ≤ x.toNat := by
  refine ⟨UInt8.ofNat ((n + 2 ^ 31) / 256 / 256 / 256), _, rfl, rfl, ?_⟩
  rw [UInt8.toNat_ofNat']
  omega

section ReadHeader

variable {p : ProtocolType} {r : Receiving}

theorem readHeader_quickAck {ackId : ℕ} {t : List UInt8} (wf : r.buffer.Wf)
    (accepted : (Item.quickAck ackId).Accepted p)
    (unread : r.buffer.unread = (Item.quickAck ackId).header p ++ t) :
    readHeader p r = .quickAck (r.buffer.advance 4) ackId := by
  have hid : ackId < 2 ^ 31 := accepted
  have hlen : 4 ≤ r.buffer.unread.length := by
    rw [unread, List.length_append, Item.length_header_quickAck]
    omega
  have htake : r.buffer.unread.take 4 = (Item.quickAck ackId).header p := by
    rw [unread, List.take_left' (Item.length_header_quickAck _)]
  have hremaining : ¬ r.buffer.remaining < 4 := by
    rw [remaining_eq wf]
    omega
  have hlow : (ackId + 2 ^ 31) % 2 ^ 31 = ackId := by omega
  have hword : ackId + 2 ^ 31 < 256 ^ 4 := by omega
  cases p with
  | EF =>
    obtain ⟨x, u, hx, -, hhigh⟩ := toBE_four_high hid
    have hbyte := readByte_eq wf (x := x) (t := u ++ t) (by rw [unread, Item.header, hx]; rfl)
    simp only [readHeader, hbyte, if_pos ((and_high_bit_ne_zero x).2 hhigh),
      setPosition_position_advance wf, if_neg hremaining, readBigInt32_eq wf hlen, htake]
    rw [Item.header, beNat_toBE_of_lt hword, hlow]
  | EE | DD =>
    simp only [readHeader, if_neg hremaining, readUint32_eq wf hlen, htake, Item.header,
      leNat_toLE_of_lt hword, hlow]
    rw [if_pos (by omega)]

theorem readHeader_packet {long : Bool} {payload t : List UInt8} (wf : r.buffer.Wf)
    (accepted : (Item.packet long payload).Accepted p)
    (unread : r.buffer.unread = (Item.packet long payload).header p ++ t) :
    readHeader p r = .packet (r.buffer.advance ((Item.packet long payload).header p).length)
      payload.length ((Item.packet long payload).wire p).length := by
  obtain ⟨hmod, hmax, hshort⟩ := accepted
  rw [Item.length_wire]
  have hword (hh : ((Item.packet long payload).header p).length = 4) :
      4 ≤ r.buffer.unread.length ∧ ¬ r.buffer.remaining < 4 ∧
        r.buffer.unread.take 4 = (Item.packet long payload).header p := by
    have hlen : 4 ≤ r.buffer.unread.length := by
      rw [unread, List.length_append, hh]
      omega
    refine ⟨hlen, ?_, ?_⟩
    · rw [remaining_eq wf]
      omega
    · rw [unread, List.take_left' hh]
  cases p with
  | EF =>
    have hquad : payload.length / 4 * 4 = payload.length := by
      have := hmod (by decide)
      omega
    cases long with
    | false =>
      have hsmall : payload.length / 4 < 0x7f := hshort rfl rfl
      have hbyte := readByte_eq wf (x := UInt8.ofNat (payload.length / 4)) (t := t)
        (by rw [unread]; rfl)
      have hnat : (UInt8.ofNat (payload.length / 4)).toNat = payload.length / 4 := by
        rw [UInt8.toNat_ofNat']
        omega
      have hlow : ¬ UInt8.ofNat (payload.length / 4) &&& 0x80 ≠ 0 := by
        rw [and_high_bit_ne_zero, hnat]
        omega
      have hne : UInt8.ofNat (payload.length / 4) ≠ 0x7f := by
        intro e
        have := congrArg UInt8.toNat e
        rw [hnat] at this
        simp at this
        omega
      simp only [readHeader, hbyte, if_neg hlow, if_pos hne, hnat, hquad, Item.header, Item.body]
      simp [Nat.add_comm]
    | true =>
      obtain ⟨hlen, hremaining, htake⟩ := hword (by simp [Item.header])
      have hbyte := readByte_eq wf (x := 0x7f) (t := toLE 3 (payload.length / 4) ++ t)
        (by rw [unread]; rfl)
      have hlow : ¬ (0x7f : UInt8) &&& 0x80 ≠ 0 := by decide
      have hvalue : leNat (0x7f :: toLE 3 (payload.length / 4)) / 2 ^ 8 = payload.length / 4 := by
        have h7f : (0x7f : UInt8).toNat = 127 := rfl
        rw [leNat, leNat_toLE_of_lt (by omega), h7f]
        omega
      simp only [readHeader, hbyte, if_neg hlow, ne_eq, not_true_eq_false, if_false,
        setPosition_position_advance wf, if_neg hremaining, readUint32_eq wf hlen, htake,
        Item.header, Item.body, if_true, hvalue, hquad]
      simp [Nat.add_comm]
  | EE | DD =>
    obtain ⟨hlen, hremaining, htake⟩ := hword (by simp [Item.header])
    have hsmall : ¬ 2 ^ 31 ≤ payload.length := by omega
    have hvalue : leNat (toLE 4 payload.length) = payload.length := leNat_toLE_of_lt (by omega)
    simp only [readHeader, if_neg hremaining, readUint32_eq wf hlen, htake, Item.header, Item.body,
      hvalue, if_neg hsmall]
    rw [u32_of_lt (by omega)]
    simp [Nat.add_comm]

/-- How a header that is cut short is kept: an EF quick ack always goes into a new buffer. -/
def keepIncomplete (p : ProtocolType) (i : Item) (r : Receiving) : Receiving :=
  if p = .EF ∧ i.isQuickAck then keepInNewBuffer r else keepHeader r

theorem readHeader_incomplete {i : Item} {n : ℕ} (wf : r.buffer.Wf) (accepted : i.Accepted p)
    (pos : 0 < n) (short : n < (i.header p).length)
    (unread : r.buffer.unread = (i.header p).take n) :
    readHeader p r = .incomplete (keepIncomplete p i r) := by
  have hheader := Item.length_header_le (p := p) (i := i)
  have hremaining : r.buffer.remaining < 4 := by
    rw [remaining_eq wf, unread, List.length_take]
    omega
  obtain ⟨m, rfl⟩ : ∃ m, n = m + 1 := ⟨n - 1, by omega⟩
  cases p with
  | EF =>
    cases i with
    | quickAck ackId =>
      obtain ⟨x, u, hx, -, hhigh⟩ := toBE_four_high (n := ackId) accepted
      have hbyte := readByte_eq wf (x := x) (t := u.take m) (by rw [unread, Item.header, hx]; rfl)
      simp only [readHeader, hbyte, if_pos ((and_high_bit_ne_zero x).2 hhigh),
        setPosition_position_advance wf, if_pos hremaining, keepIncomplete, Item.isQuickAck,
        and_self, if_true]
    | packet long payload =>
      cases long with
      | false => simp [Item.header] at short
      | true =>
        have hbyte := readByte_eq wf (x := 0x7f) (t := (toLE 3 (payload.length / 4)).take m)
          (by rw [unread]; rfl)
        have hlow : ¬ (0x7f : UInt8) &&& 0x80 ≠ 0 := by decide
        simp only [readHeader, hbyte, if_neg hlow, ne_eq, not_true_eq_false, if_false,
          setPosition_position_advance wf, if_pos hremaining, keepIncomplete, Item.isQuickAck,
          and_false, Bool.false_eq_true]
  | EE | DD =>
      simp only [readHeader, if_pos hremaining, keepIncomplete, reduceCtorEq, false_and, if_false]

end ReadHeader

end Mtproto.Tgnet
