import Mtproto.Tgnet.Unwatched

/-!
# The bounds of the native buffer

Whatever is called on a `NativeByteBuffer`, the position stays at most the limit and the limit at
most the capacity.  The other bounds hold as long as the test in front of an access means what it
says: a sum `_position + length` that wraps around passes it, and then the method touches bytes
behind the limit or moves the position back.  `readBytes` compares the length with what is left, and
it keeps the bounds always.
-/

namespace Mtproto.Tgnet.Memory

open Bytes Lib Lib.Interruptible

/-! ## Calls -/

namespace Op

/-- The calls that compare a sum with the limit. -/
def tests : Op → Bool
  | position _ | limit _ | flip | clear | rewind | compact | clearCapacity | bytes _ | readBytes
      _ | lend _
  | lendAll _ => false
  | _ => true

/-- Their pieces; how long an array is stands in the bytes of the buffer. -/
def pieces (b : NativeByteBuffer) : Op → List Piece
  | skip length => [.blank length.toNat]
  | writeInt32 _ | writeBool _ | readInt32 | readUint32 | readBigInt32 | readBool => [.bytes 4]
  | writeInt64 _ | writeDouble _ | readInt64 | readUint64 | readDouble => [.bytes 8]
  | writeByte _ | readByte => [.bytes 1]
  | writeBytes d => [.block d.val.length 0]
  | writeBytesOf d => if d.val.length = 0 then [] else [.block d.val.length 0]
  | writeByteArray d => arrayPieces d.val.length
  | writeString s => arrayPieces (u32 s.length)
  | readString | readByteArray => framePieces .block b
  | readByteBuffer copy => framePieces (if copy then .block else passedBy) b
  | _ => []

/-- The reads, the writes and `skip`.  A buffer that another one copies as a whole is rewound on
purpose. -/
def forward : Op → Bool
  | position _ | limit _ | flip | clear | rewind | compact | clearCapacity | bytes _ | lend
      _ | lendAll _ => false
  | _ => true

/-- How far a skip, an operation on raw bytes or one on a word of a fixed width should move the
position. -/
def length : Op → Option ℕ
  | skip length => some length.toNat
  | writeInt32 _ | writeBool _ | readInt32 | readUint32 | readBigInt32 | readBool => some 4
  | writeInt64 _ | writeDouble _ | readInt64 | readUint64 | readDouble => some 8
  | writeByte _ | readByte => some 1
  | writeBytes d | writeBytesOf d => some d.val.length
  | readBytes length => some length.toNat
  | _ => none

/-- No sum that the call compares with the limit wraps around to a value that passes. -/
def Fits (op : Op) (b : NativeByteBuffer) : Prop := ExactAll b.limit b.position (op.pieces b)

end Op

/-- What one call should do. -/
structure Lawful (op : Op) (b : NativeByteBuffer) : Prop where
  inBounds : InBounds (call op b).buffer
  inside : ∀ r ∈ (call op b).accessed, r.Inside b.limit
  forward : op.forward = true → b.position ≤ (call op b).buffer.position
  exact : ∀ n, op.length = some n →
    (call op b).buffer.position = b.position + n ∨ (call op b).buffer = b

section Calls

variable {b : NativeByteBuffer} {op : Op}

theorem InBounds.position_lt (bounds : InBounds b) : b.position < 2 ^ 32 :=
  lt_of_le_of_lt bounds.position_le bounds.limit_lt

theorem drop_eq {α : Type} (body : Body α) (m : Memory) : (Op.drop body m).2 = (body m).2 := by
  unfold Op.drop
  rcases run : body m with ⟨_ | a, t⟩
  · rw [bind_of_none run]
  · rw [bind_of_some run]
    rfl

theorem walk_skip (n : ℕ) (m : Memory) : Walk [.blank n] m (skip n m).2 := by
  have run : skip n m =
      (if u32 (m.buffer.position + n) > m.buffer.limit then pure () else move n : Body Unit) m :=
        rfl
  rw [run]
  by_cases test : u32 (m.buffer.position + n) > m.buffer.limit
  · rw [if_pos test]
    exact .refused test rfl rfl
  · rw [if_neg test]
    have goes : Goes (.blank n) m (move n m).2 := ⟨rfl, rfl, rfl, (List.append_nil _).symm⟩
    exact .passed (Nat.not_lt.1 test) goes walk_done

theorem one_readInt32 (m : Memory) : OnePiece (.bytes 4) readInt32 m := (one_readWord 4).map _

theorem one_readInt64 (m : Memory) : OnePiece (.bytes 8) readInt64 m := (one_readWord 8).map _

theorem one_writeInt32 (x : BitVec 32) {m : Memory} (small : m.buffer.position < 2 ^ 32) :
    OnePiece (.bytes 4) (writeInt32 x) m := by
  have one := one_putWord (toLE 4 x.toNat) small
  rwa [length_toLE] at one

theorem one_writeInt64 (x : BitVec 64) {m : Memory} (small : m.buffer.position < 2 ^ 32) :
    OnePiece (.bytes 8) (writeInt64 x) m := by
  have one := one_putWord (toLE 8 x.toNat) small
  rwa [length_toLE] at one

theorem walk_readBool (m : Memory) : Walk [.bytes 4] m (readBool m).2 := by
  apply (one_readInt32 m).bind
  intro constructor t _ _
  split
  · exact walk_done
  · split
    · exact walk_done
    · exact .done rfl rfl

/-- A call that tests goes through its pieces. -/
theorem walk_call (op : Op) (small : b.position < 2 ^ 32) (tests : op.tests = true) :
    Walk (op.pieces b) { buffer := b } (call op b) := by
  cases op with
  | skip length => exact walk_skip _ _
  | writeInt32 x => exact (one_writeInt32 x small).walk
  | writeInt64 x => exact (one_writeInt64 x small).walk
  | writeDouble d => exact (one_writeInt64 d small).walk
  | writeBool value =>
      cases value with
      | true => exact (one_writeInt32 _ small).walk
      | false => exact (one_writeInt32 _ small).walk
  | writeByte i => exact (one_putWord [i] small).walk
  | writeBytes d => exact (one_writeBytes d.val).walk
  | writeBytesOf d =>
      unfold call Op.run writeBytesOf Op.pieces
      dsimp only
      split
      · exact walk_done
      · exact (one_writeBytes d.val).walk
  | writeByteArray d => exact walk_writeByteArray d.val small
  | writeString s =>
      have le : u32 s.length ≤ s.length := Nat.mod_le _ _
      have length : (s.take (u32 s.length)).length = u32 s.length := by
        rw [List.length_take, Nat.min_eq_left le]
      show Walk (arrayPieces (u32 s.length)) _ _
      rw [← length]
      exact walk_writeByteArray (m := { buffer := b }) _ small
  | readInt32 | readUint32 =>
      unfold call Op.run
      rw [drop_eq]
      exact (one_readInt32 _).walk
  | readBigInt32 | readByte =>
      unfold call Op.run
      rw [drop_eq]
      exact ((one_readWord _).map _).walk
  | readInt64 | readUint64 | readDouble =>
      unfold call Op.run
      rw [drop_eq]
      exact (one_readInt64 _).walk
  | readBool =>
      unfold call Op.run
      rw [drop_eq]
      exact walk_readBool _
  | readString | readByteArray =>
      unfold call Op.run
      rw [drop_eq]
      exact walk_frame (m := { buffer := b }) one_frameBody_copyOut
  | readByteBuffer copy =>
      unfold call Op.run Op.pieces
      rw [drop_eq]
      cases copy with
      | true => exact walk_frame (m := { buffer := b }) one_frameBody_copyOut
      | false => exact walk_frame (m := { buffer := b }) one_frameBody_slice
  | _ => cases tests

/-! ### Calls without a test -/

theorem remaining_eq_sub (bounds : InBounds b) : b.remaining = b.limit - b.position := by
  have := bounds.position_le
  have := bounds.limit_lt
  unfold NativeByteBuffer.remaining u32
  omega

theorem InBounds.setPosition (bounds : InBounds b) (p : ℕ) : InBounds (b.setPosition p) := by
  unfold NativeByteBuffer.setPosition
  split
  · exact bounds
  · exact ⟨Nat.not_lt.1 ‹_›, bounds.limit_le, bounds.capacity_lt⟩

theorem InBounds.setLimit (bounds : InBounds b) (l : ℕ) : InBounds (b.setLimit l) := by
  unfold NativeByteBuffer.setLimit
  split
  · exact bounds
  · refine ⟨?_, Nat.not_lt.1 ‹_›, bounds.capacity_lt⟩
    show (if b.position > l then l else b.position) ≤ l
    split <;> omega

/-- A call that need not move ahead and has no length of its own. -/
theorem lawful_of_inside (forward : op.forward = false) (length : op.length = none)
    (inBounds : InBounds (call op b).buffer)
    (inside : ∀ r ∈ (call op b).accessed, r.Inside b.limit) :
    Lawful op b := by
  refine ⟨inBounds, inside, ?_, ?_⟩
  · rw [forward]
    exact fun h => Bool.noConfusion h
  · rw [length]
    exact fun _ h => Option.noConfusion rfl (heq_of_eq h)

theorem inside_left (bounds : InBounds b) : Range.Inside b.limit ⟨b.position, b.remaining⟩ := by
  have := bounds.position_le
  intro i hi
  have hi : i < b.remaining := hi
  rw [remaining_eq_sub bounds] at hi
  show b.position + i < b.limit
  omega

theorem inside_front {n : ℕ} (le : n ≤ b.limit) : Range.Inside b.limit ⟨0, n⟩ := by
  intro i hi
  have hi : i < n := hi
  show 0 + i < b.limit
  omega

theorem lawful_compact (bounds : InBounds b) : Lawful .compact b := by
  have := bounds.position_le
  have := bounds.limit_le
  have := bounds.capacity_lt
  have run : Memory.compact { buffer := b } = (if b.position = b.limit then pure () else do
      touch ⟨b.position, b.remaining⟩
      touch ⟨0, b.remaining⟩
      modify fun m => { m with buffer := m.buffer.compact } : Body Unit) { buffer := b } := rfl
  apply lawful_of_inside rfl rfl
  · show InBounds (Memory.compact { buffer := b }).2.buffer
    rw [run]
    split
    · exact bounds
    · show InBounds b.compact
      unfold NativeByteBuffer.compact
      rw [if_neg ‹_›]
      refine ⟨?_, le_rfl, bounds.capacity_lt⟩
      show b.remaining ≤ b.capacity
      rw [remaining_eq_sub bounds]
      omega
  · show ∀ r ∈ (Memory.compact { buffer := b }).2.accessed, _
    rw [run]
    split
    · exact fun _ mem => absurd mem List.not_mem_nil
    · intro r mem
      have mem : r ∈ [⟨b.position, b.remaining⟩, ⟨0, b.remaining⟩] := mem
      rcases List.mem_pair.1 mem with rfl | rfl
      · exact inside_left bounds
      · exact inside_front (by rw [remaining_eq_sub bounds]; omega)

/-- Nothing happens, or what is left is copied and the position goes to the limit. -/
theorem lend_cases (room : Bool) (m : Memory) :
    (Memory.lend room m).2 = m ∨ (Memory.lend room m).2 = { m with
      buffer := m.buffer.setPosition m.buffer.limit
      accessed := m.accessed ++ [⟨m.buffer.position, m.buffer.remaining⟩] } := by
  have run : Memory.lend room m = (if m.buffer.remaining = 0 ∨ ¬ room then pure () else do
      let _ ← copyOut m.buffer.remaining
      modify fun m => { m with buffer := m.buffer.setPosition m.buffer.limit } : Body Unit) m :=
        bind_of_some rfl
  rw [run]
  split
  · exact .inl rfl
  · exact .inr rfl

theorem lawful_lend (room : Bool) (bounds : InBounds b) : Lawful (.lend room) b := by
  have hcall : call (.lend room) b = (Memory.lend room { buffer := b }).2 := by rw [call, Op.run]
  rcases lend_cases room { buffer := b } with idle | copied
  · rw [idle] at hcall
    apply lawful_of_inside rfl rfl
    · rwa [hcall]
    · rw [hcall]
      exact fun _ mem => absurd mem List.not_mem_nil
  · rw [copied] at hcall
    apply lawful_of_inside rfl rfl
    · rw [hcall]
      exact bounds.setPosition b.limit
    · rw [hcall]
      intro r mem
      rw [List.mem_singleton.1 mem]
      exact inside_left bounds

theorem lawful_lendAll (room : Bool) (bounds : InBounds b) : Lawful (.lendAll room) b := by
  have rewound : InBounds b.rewind := ⟨Nat.zero_le _, bounds.limit_le, bounds.capacity_lt⟩
  apply lawful_of_inside rfl rfl
  · cases room
    · exact rewound
    · exact rewound
  · cases room
    · exact fun _ mem => absurd mem List.not_mem_nil
    · intro r mem
      rw [show r = ⟨0, b.limit⟩ from List.mem_singleton.1 mem]
      exact inside_front le_rfl

/-- The length is more than what is left, or the bytes are copied and passed by. -/
theorem readBytes_cases (n : ℕ) (m : Memory) :
    (Memory.readBytes n m).2 = { m with error := true } ∨
      n ≤ m.buffer.remaining ∧ (Memory.readBytes n m).2 = { m with
        buffer := m.buffer.step n
        accessed := m.accessed ++ [⟨m.buffer.position, n⟩] } := by
  have run : Memory.readBytes n m = (if n > m.buffer.remaining then failed else do
      let bytes ← copyOut n
      move n
      pure bytes : Body (List UInt8)) m := bind_of_some rfl
  rw [run]
  split
  · exact .inl rfl
  · exact .inr ⟨Nat.not_lt.1 ‹_›, rfl⟩

/-- The length is compared with what is left, so that there is no sum to wrap around. -/
theorem lawful_readBytes (length : BitVec 32) (bounds : InBounds b) :
    Lawful (.readBytes length) b := by
  have := bounds.position_le
  have := bounds.limit_lt
  have hcall : call (.readBytes length) b = (Memory.readBytes length.toNat { buffer := b }).2 := by
    rw [call, Op.run, drop_eq]
  rcases readBytes_cases length.toNat { buffer := b } with refused | ⟨short, passed⟩
  · rw [refused] at hcall
    refine ⟨?_, ?_, ?_, ?_⟩
    · rwa [hcall]
    · rw [hcall]
      exact fun _ mem => absurd mem List.not_mem_nil
    · rw [hcall]
      exact fun _ => le_rfl
    · rw [hcall]
      exact fun _ _ => .inr rfl
  · rw [passed] at hcall
    have short : length.toNat ≤ b.remaining := short
    rw [remaining_eq_sub bounds] at short
    have sum : u32 (b.position + length.toNat) = b.position + length.toNat := u32_of_lt (by omega)
    have position : (call (.readBytes length) b).buffer.position = b.position + length.toNat := by
      rw [hcall]
      exact sum
    refine ⟨⟨?_, ?_, ?_⟩, ?_, ?_, ?_⟩
    · rw [position, hcall]
      show b.position + length.toNat ≤ b.limit
      omega
    · rw [hcall]
      exact bounds.limit_le
    · rw [hcall]
      exact bounds.capacity_lt
    · rw [hcall]
      intro r mem i hi
      rw [List.mem_singleton.1 mem] at hi ⊢
      have hi : i < length.toNat := hi
      show b.position + i < b.limit
      omega
    · rw [position]
      exact fun _ => Nat.le_add_right _ _
    · rintro _ ⟨⟩
      exact .inl position

/-- Without a test nothing goes wrong. -/
theorem lawful_of_no_test (op : Op) (bounds : InBounds b) (tests : op.tests = false) :
    Lawful op b := by
  have none : ∀ r ∈ ([] : List Range), r.Inside b.limit := fun _ mem => absurd mem List.not_mem_nil
  have front : b.position ≤ b.capacity := bounds.position_le.trans bounds.limit_le
  cases op with
  | position p => exact lawful_of_inside rfl rfl (bounds.setPosition _) none
  | limit l => exact lawful_of_inside rfl rfl (bounds.setLimit _) none
  | flip => exact lawful_of_inside rfl rfl ⟨Nat.zero_le _, front, bounds.capacity_lt⟩ none
  | clear => exact lawful_of_inside rfl rfl ⟨Nat.zero_le _, le_rfl, bounds.capacity_lt⟩ none
  | rewind =>
      exact lawful_of_inside rfl rfl ⟨Nat.zero_le _, bounds.limit_le, bounds.capacity_lt⟩ none
  | compact => exact lawful_compact bounds
  | clearCapacity => exact lawful_of_inside rfl rfl bounds none
  | bytes content =>
      exact lawful_of_inside rfl rfl ⟨bounds.position_le, bounds.limit_le, bounds.capacity_lt⟩ none
  | readBytes length => exact lawful_readBytes length bounds
  | lend room => exact lawful_lend room bounds
  | lendAll room => exact lawful_lendAll room bounds
  | _ => cases tests

/-! ### Calls with a test -/

theorem sealed_pieces (op : Op) (b : NativeByteBuffer) : Sealed 0 (op.pieces b) := by
  cases op with
  | skip length =>
      have := length.isLt
      refine .inr ?_
      show 0 + length.toNat < 2 ^ 32
      omega
  | writeBytes d => exact .inl rfl
  | writeBytesOf d =>
      unfold Op.pieces
      dsimp only
      split
      · trivial
      · exact .inl rfl
  | writeByteArray d | writeString s => exact ⟨trivial, rfl, .inl trivial⟩
  | readString | readByteArray => exact sealed_frame (fun _ _ => rfl) b
  | readByteBuffer copy =>
      cases copy with
      | true => exact sealed_frame (fun _ _ => rfl) b
      | false => exact sealed_frame (fun _ _ => rfl) b
  | writeInt32 | writeInt64 | writeDouble | writeBool | writeByte | readInt32 | readUint32
  | readBigInt32 | readInt64
    | readUint64 | readDouble | readByte | readBool => exact .inl trivial
  | _ => trivial

/-- A call with a length is one piece of that length, or it has nothing to do. -/
theorem pieces_of_length {n : ℕ} (tests : op.tests = true) (length : op.length = some n) :
    op.pieces b = [] ∨ ∃ p, op.pieces b = [p] ∧ p.length = n := by
  cases op with
  | writeBytesOf d =>
      cases length
      unfold Op.pieces
      dsimp only
      split
      · exact .inl rfl
      · exact .inr ⟨_, rfl, Nat.add_zero _⟩
  | writeBytes d =>
      cases length
      exact .inr ⟨_, rfl, Nat.add_zero _⟩
  | skip | writeInt32 | writeInt64 | writeDouble | writeBool | writeByte | readInt32 | readUint32
  | readBigInt32
    | readInt64 | readUint64 | readDouble | readByte | readBool =>
      cases length
      exact .inr ⟨_, rfl, rfl⟩
  | writeByteArray | writeString | readString | readByteArray | readByteBuffer => cases length
  | _ => cases tests

theorem Walk.exact {p : Piece} {m t : Memory} (walk : Walk [p] m t)
    (exact : Exact m.buffer.limit m.buffer.position p.length) :
    t.buffer.position = m.buffer.position + p.length ∨ t.buffer = m.buffer := by
  cases walk with
  | refused _ buffer _ => exact .inr buffer
  | passed test goes rest =>
      obtain ⟨buffer, -⟩ := rest
      rw [buffer, goes.position]
      exact .inl (exact.eq test)

theorem lawful_of_fits (tests : op.tests = true) (bounds : InBounds b) (fits : op.Fits b) :
    Lawful op b := by
  have walk := walk_call op bounds.position_lt tests
  obtain ⟨inside, le⟩ := walk.forward bounds fits (fun _ mem => absurd mem List.not_mem_nil)
  refine ⟨walk.inBounds bounds, inside, fun _ => le, ?_⟩
  intro n length
  rcases pieces_of_length (b := b) tests length with idle | ⟨p, one, rfl⟩
  · rw [idle] at walk
    obtain ⟨buffer, -⟩ := walk
    exact .inr buffer
  · unfold Op.Fits at fits
    rw [one] at walk fits
    exact walk.exact fits.1

theorem fits_of_lawful (tests : op.tests = true) (bounds : InBounds b) (lawful : Lawful op b) :
    op.Fits b := by
  have walk := walk_call op bounds.position_lt tests
  have closed : Sealed (b.position - b.position) (op.pieces b) := by
    rw [Nat.sub_self]
    exact sealed_pieces op b
  have forward : op.forward = true := by
    cases op with
    | _ =>
        first
          | rfl
          | cases tests
  by_contra inexact
  rcases walk.astray bounds le_rfl closed inexact with ⟨r, mem, outside⟩ | back
  · exact outside (lawful.inside r mem)
  · exact absurd (lawful.forward forward) (Nat.not_le.2 back)

/-- A call keeps the bounds exactly when the sums that it compares with the limit do not wrap around
and pass. -/
theorem lawful_iff_fits (op : Op) (bounds : InBounds b) : Lawful op b ↔ op.Fits b := by
  by_cases tests : op.tests = true
  · exact ⟨fits_of_lawful tests bounds, lawful_of_fits tests bounds⟩
  · have none : op.pieces b = [] := by
      cases op with
      | _ =>
          first
            | rfl
            | exact absurd rfl tests
    refine ⟨fun _ => ?_, fun _ => lawful_of_no_test op bounds (Bool.not_eq_true _ ▸ tests)⟩
    unfold Op.Fits
    rw [none]
    trivial

theorem InBounds.call (bounds : InBounds b) (op : Op) : InBounds (call op b).buffer := by
  by_cases tests : op.tests = true
  · exact (walk_call op bounds.position_lt tests).inBounds bounds
  · exact (lawful_of_no_test op bounds (Bool.not_eq_true _ ▸ tests)).inBounds

end Calls

/-! ## Runs -/

/-- The constructors: a store of its own, or a buffer over bytes that are there. -/
inductive Start where
  | new (size : BitVec 32)
  | sliced (bytes : Chunk)

def Start.buffer : Start → NativeByteBuffer
  | new size => .new size.toNat
  | sliced bytes => .sliced bytes.val

theorem Start.inBounds (start : Start) : InBounds start.buffer := by
  cases start with
  | new size => exact ⟨Nat.zero_le _, le_rfl, size.isLt⟩
  | sliced bytes => exact ⟨Nat.zero_le _, le_rfl, bytes.property⟩

/-- The buffer after some calls. -/
def run (b : NativeByteBuffer) (ops : List Op) : NativeByteBuffer :=
  ops.foldl (fun b op => (call op b).buffer) b

/-- Every call of a run has the property, in the buffer that it finds. -/
def Throughout (P : Op → NativeByteBuffer → Prop) (b : NativeByteBuffer) (ops : List Op) : Prop :=
  ∀ before op after, ops = before ++ op :: after → P op (run b before)

section Runs

variable {b : NativeByteBuffer}

/-- The position stays at most the limit and the limit at most the capacity, whatever is called. -/
theorem InBounds.run (bounds : InBounds b) (ops : List Op) : InBounds (run b ops) := by
  induction ops generalizing b with
  | nil => exact bounds
  | cons op ops ih => exact ih (bounds.call op)

/-- From every constructor and through every run the position is at most the limit and the limit at
most the capacity.  Every byte accessed lies in front of the limit, no read, write or skip moves the
position back, and those with a length move it by just that or leave the buffer as it is, if and
only if no sum that a call compares with the limit wraps around to a value that passes.  The methods
whose accesses are watched here are those of the streams. -/
theorem bounds_iff (start : Start) (ops : List Op) :
    InBounds (run start.buffer ops) ∧
      (Throughout Lawful start.buffer ops ↔ Throughout Op.Fits start.buffer ops) ∧
      ∀ m : Memory, m.buffer.Wf → m.buffer.limit + 8 < 2 ^ 32 → Unwatched m := by
  refine ⟨start.inBounds.run ops, ⟨?_, ?_⟩, unwatched_of_room⟩
  · intro lawful before op after split
    exact (lawful_iff_fits op (start.inBounds.run before)).1 (lawful before op after split)
  · intro fits before op after split
    exact (lawful_iff_fits op (start.inBounds.run before)).2 (fits before op after split)

/-- Sixteen bytes: `skip` by four less than nothing moves the position from eight back to four. -/
theorem skip_back : ¬ ∀ (start : Start) (ops : List Op), Throughout Lawful start.buffer ops := by
  intro all
  have lawful : Lawful (.skip 0xfffffffc) (run (Start.new 16).buffer [.position 8]) :=
    all (.new 16) [.position 8, .skip 0xfffffffc] [.position 8] (.skip 0xfffffffc) [] rfl
  have forward := lawful.forward rfl
  revert forward
  decide

end Runs

end Mtproto.Tgnet.Memory
