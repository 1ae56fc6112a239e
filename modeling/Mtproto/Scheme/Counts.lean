import Mtproto.Scheme.Confined
import Mtproto.Scheme.Restored

/-!
# The counts of the vectors

`TL_msgs_ack`, `TL_msg_resend_req` and `TL_resPQ` end with a vector of words.  Its number is
compared with the bytes that are left, in `size_t`, and `size_t` has 32 bits on two of the platforms
that the library is built for and 64 on the others.  The parsers have it as a parameter here, and
the stream is any buffer with its invariant: a comparison that does not wrap around keeps the loop
in front of the limit, and on 32 bits it can wrap around.
-/

namespace Mtproto.Scheme.Counts

open Lib Lib.Interruptible Tgnet Bytes Scan

/-! ## The comparison -/

/-- The widths of `size_t`. -/
inductive SizeT where
  | bits32
  | bits64
deriving DecidableEq, Repr

def SizeT.bits : SizeT → ℕ
  | bits32 => 32
  | bits64 => 64

/-- `count * sizeof(int64_t) + stream->position()`, in `size_t`. -/
def SizeT.needed (w : SizeT) (count position : ℕ) : ℕ :=
  (count * 8 % 2 ^ w.bits + position) % 2 ^ w.bits

theorem SizeT.needed_eq (w : SizeT) (count position : ℕ) :
    w.needed count position = (count * 8 + position) % 2 ^ w.bits := by
  rw [SizeT.needed, Nat.mod_add_mod]

theorem SizeT.needed_of_lt {w : SizeT} {count position : ℕ}
    (h : count * 8 + position < 2 ^ w.bits) :
    w.needed count position = count * 8 + position := by
  rw [w.needed_eq, Nat.mod_eq_of_lt h]

/-- A `uint32_t` count and a `uint32_t` position are small for 64 bits. -/
theorem SizeT.needed_bits64 {count position : ℕ} (hcount : count < 2 ^ 32)
    (hposition : position < 2 ^ 32) :
    SizeT.bits64.needed count position = count * 8 + position := by
  apply SizeT.needed_of_lt
  show count * 8 + position < 2 ^ 64
  omega

/-! ## The parsers -/

/-- The magic number and the number of elements. -/
def declared : Scan ℕ := do
  vectorMagic
  readUint32

/-- The comparison and the loop behind it. -/
def elements (w : SizeT) (count : ℕ) : Scan (List (BitVec 64)) := do
  let p ← position
  let l ← limit
  check (¬ w.needed count p > l)
  collect (fun _ => readInt64) 0 count

/-- What stands in front of the vector, under the names of the classes. -/
inductive Fields where
  | msgs_ack
  | msg_resend_req
  | resPQ (nonce server_nonce pq : Option (List UInt8))
deriving DecidableEq, Repr

structure Object where
  fields : Fields
  vector : List (BitVec 64)
deriving DecidableEq, Repr

/-- An object that ends with a vector. -/
def withVector (w : SizeT) (front : Scan Fields) : Scan Object := do
  let fields ← front
  let count ← declared
  let vector ← elements w count
  pure { fields, vector }

def TL_msgs_ack.front : Scan Fields := pure .msgs_ack

def TL_msg_resend_req.front : Scan Fields := pure .msg_resend_req

/-- An error of these reads does not end the function. -/
def TL_resPQ.front : Scan Fields := do
  let nonce ← readBytes 16
  let server_nonce ← readBytes 16
  let pq ← readByteArray
  pure (.resPQ nonce server_nonce pq)

def TL_msgs_ack.readParams (w : SizeT) : Scan Object :=
  withVector w TL_msgs_ack.front

def TL_msg_resend_req.readParams (w : SizeT) : Scan Object :=
  withVector w TL_msg_resend_req.front

def TL_resPQ.readParams (w : SizeT) : Scan Object :=
  withVector w TL_resPQ.front

/-- The classes. -/
inductive Class where
  | msgs_ack
  | msg_resend_req
  | resPQ
deriving DecidableEq, Repr

namespace Class

def front : Class → Scan Fields
  | msgs_ack => TL_msgs_ack.front
  | msg_resend_req => TL_msg_resend_req.front
  | resPQ => TL_resPQ.front

def readParams (w : SizeT) : Class → Scan Object
  | msgs_ack => TL_msgs_ack.readParams w
  | msg_resend_req => TL_msg_resend_req.readParams w
  | resPQ => TL_resPQ.readParams w

theorem readParams_eq (w : SizeT) (c : Class) : c.readParams w = withVector w c.front := by
  cases c <;> rfl

/-- What is read in front of the comparison; the result is the number of elements. -/
def header (c : Class) : Scan ℕ := do
  let _ ← c.front
  declared

end Class

/-! ## Reading keeps the limit -/

/-- From a buffer with its invariant the position moves inside the limit. -/
def Lawful (s t : Stream) : Prop := s.buffer.Wf → s.Inside t

theorem Lawful.wf {s t : Stream} (h : Lawful s t) (hs : s.buffer.Wf) : t.buffer.Wf := by
  obtain ⟨buffer, le_limit⟩ := h hs
  rw [buffer]
  exact ⟨le_limit, hs.limit_le, hs.length_eq, hs.capacity_lt⟩

instance : Std.Refl Lawful := ⟨fun _ hs => ⟨rfl, hs.position_le⟩⟩

instance : IsTrans Stream Lawful :=
  ⟨fun _ _ _ first second hs => (first hs).trans (second (first.wf hs))⟩

/-- A reader that moves the position inside the limit only. -/
def Steps {α : Type} (read : Reader α) : Prop :=
  ∀ s : Input, s.buffer.Wf →
    (read s).2.buffer = { s.buffer with position := (read s).2.buffer.position } ∧
      (read s).2.buffer.position ≤ s.buffer.limit

section Lawful

variable {α : Type}

theorem lawful_scan {look : Input → ℕ} {read : Reader α} (h : Steps read) :
    Moves Lawful (scan look read) := by
  constructor
  intro s hs
  obtain ⟨buffer, le_limit⟩ := h s.toInput hs
  exact ⟨buffer, le_limit⟩

/-- A buffer with its invariant has its position inside the limit. -/
theorem lawful_of_held {m : Scan α} (held : Moves Stream.Held m) : Moves Lawful m :=
  ⟨fun s hs => held.moves s hs.position_le⟩

theorem steps_readBytes (length : ℕ) : Steps (Input.readBytes length) := by
  intro s hs
  have := hs.position_le
  have := hs.limit_le
  have := hs.capacity_lt
  unfold Input.readBytes
  rw [NativeByteBuffer.remaining_eq hs, NativeByteBuffer.length_unread hs]
  split
  · exact ⟨rfl, hs.position_le⟩
  · refine ⟨rfl, ?_⟩
    show u32 (s.buffer.position + length) ≤ s.buffer.limit
    rw [u32_of_lt (by omega)]
    omega

instance : Moves Lawful readUint32 := lawful_of_held inferInstance

instance : Moves Lawful readInt64 := lawful_of_held inferInstance

instance (length : ℕ) : Moves Lawful (readBytes length) := lawful_scan (steps_readBytes length)

instance : Moves Lawful readByteArray := lawful_of_held inferInstance

instance : Moves Lawful (failed : Scan α) := lawful_of_held inferInstance

instance (c : Prop) [Decidable c] : Moves Lawful (check c) := lawful_of_held inferInstance

instance : Moves Lawful declared := by
  unfold declared vectorMagic
  infer_instance

instance (c : Class) : Moves Lawful c.front := by
  cases c
  · exact inferInstanceAs (Moves Lawful (pure Fields.msgs_ack))
  · exact inferInstanceAs (Moves Lawful (pure Fields.msg_resend_req))
  · unfold Class.front TL_resPQ.front
    infer_instance

instance (c : Class) : Moves Lawful c.header := by
  unfold Class.header
  infer_instance

end Lawful

/-! ## The loop -/

section Loop

variable {s t : Stream} {w : SizeT} {c : Class} {count : ℕ}

/-- A word that fits is read. -/
theorem readInt64_of_le (hs : s.buffer.Wf) (fits : s.buffer.position + 8 ≤ s.buffer.limit) :
    ∃ x r, readInt64 s =
      (some x, { s with buffer.position := s.buffer.position + 8, reach := r }) := by
  have := hs.limit_le
  have := hs.capacity_lt
  have hsum : u32 (s.buffer.position + 8) = s.buffer.position + 8 := u32_of_lt (by omega)
  refine ⟨BitVec.ofNat 64 (leNat (s.ahead 8)), max s.reach (s.buffer.position + 8), ?_⟩
  have hword : Input.word 8 s.toInput = (leNat (s.ahead 8), s.step 8) := by
    rw [Input.word, hsum, if_neg (by omega)]
  have hlook : lookWord 8 s.toInput = s.buffer.position + 8 := by
    rw [lookWord, hsum, if_neg (by omega)]
  simp only [readInt64, scan, Input.readInt64, hword, hlook, Input.step, NativeByteBuffer.step,
    hsum]

/-- The loop reads its words when they fit. -/
theorem collect_of_le (i : ℕ) (hs : s.buffer.Wf)
    (fits : s.buffer.position + count * 8 ≤ s.buffer.limit) :
    ∃ xs r, xs.length = count ∧ collect (fun _ => readInt64) i count s =
      (some xs, { s with buffer.position := s.buffer.position + count * 8, reach := r }) := by
  induction count generalizing s i with
  | zero => exact ⟨[], s.reach, rfl, rfl⟩
  | succ n ih =>
    obtain ⟨x, r, first⟩ := readInt64_of_le hs (by omega)
    obtain ⟨xs, r', length, rest⟩ :=
      ih (s := { s with buffer.position := s.buffer.position + 8, reach := r }) (i + 1)
        ⟨by show s.buffer.position + 8 ≤ s.buffer.limit; omega, hs.limit_le, hs.length_eq,
          hs.capacity_lt⟩
        (by show s.buffer.position + 8 + n * 8 ≤ s.buffer.limit; omega)
    refine ⟨x :: xs, r', by rw [List.length_cons, length], ?_⟩
    unfold collect
    rw [bind_of_some first, bind_of_some rest]
    have sum : s.buffer.position + 8 + n * 8 = s.buffer.position + (n + 1) * 8 := by omega
    simp only [sum]
    rfl

/-- The comparison is made in the state behind the header. -/
theorem elements_of_le (h : w.needed count s.buffer.position ≤ s.buffer.limit) :
    elements w count s = collect (fun _ => readInt64) 0 count s := by
  have hposition : position s = (some s.buffer.position, s) := rfl
  have hlimit : limit s = (some s.buffer.limit, s) := rfl
  have hcheck : check (¬ w.needed count s.buffer.position > s.buffer.limit) s = (some (), s) := by
    rw [check, if_pos (Nat.not_lt.2 h)]
    rfl
  unfold elements
  rw [bind_of_some hposition, bind_of_some hlimit, bind_of_some hcheck]

/-- What stands behind the header. -/
theorem readParams_of_header (h : c.header s = (some count, t)) :
    ∃ fields, c.readParams w s =
      (elements w count >>= fun vector => pure (Object.mk fields vector)) t := by
  unfold Class.header at h
  rw [Class.readParams_eq]
  unfold withVector
  rcases hfront : c.front s with ⟨_ | fields, u⟩
  · rw [bind_of_none hfront] at h
    cases h
  · rw [bind_of_some hfront] at h ⊢
    refine ⟨fields, ?_⟩
    rw [bind_of_some h]

/-- The number is a `uint32_t`. -/
theorem declared_lt (h : declared s = (some count, t)) : count < 2 ^ 32 := by
  unfold declared at h
  rcases hmagic : vectorMagic s with ⟨_ | _, u⟩
  · rw [bind_of_none hmagic] at h
    cases h
  · rw [bind_of_some hmagic] at h
    have hword : (Input.word 4 u.toInput).1 = count := Option.some.inj (congrArg Prod.fst h)
    rw [← hword]
    unfold Input.word
    split
    · exact Nat.two_pow_pos 32
    · exact leNat_ahead_lt u.toInput 4

theorem count_lt (h : c.header s = (some count, t)) : count < 2 ^ 32 := by
  unfold Class.header at h
  rcases hfront : c.front s with ⟨_ | fields, u⟩
  · rw [bind_of_none hfront] at h
    cases h
  · rw [bind_of_some hfront] at h
    exact declared_lt h

theorem wf_of_declared (hs : s.buffer.Wf) (h : declared s = (some count, t)) : t.buffer.Wf := by
  have lawful : Lawful s (declared s).2 := Moves.moves s
  rw [h] at lawful
  exact lawful.wf hs

theorem wf_of_header (hs : s.buffer.Wf) (h : c.header s = (some count, t)) : t.buffer.Wf := by
  have lawful : Lawful s (c.header s).2 := Moves.moves s
  rw [h] at lawful
  exact lawful.wf hs

/-- With a `size_t` of 64 bits the vector is that of the parsers of `Deserialize`. -/
theorem longVector_eq (hs : s.buffer.Wf) : longVector s = (declared >>= elements .bits64) s := by
  unfold longVector
  rcases hmagic : vectorMagic s with ⟨_ | _, u⟩
  · have hdeclared : declared s = (none, u) := bind_of_none hmagic
    rw [bind_of_none hmagic, bind_of_none hdeclared]
  · rw [bind_of_some hmagic]
    have hread : readUint32 u = (some (Input.word 4 u.toInput).1, (readUint32 u).2) := rfl
    have hdeclared : declared s = (some (Input.word 4 u.toInput).1, (readUint32 u).2) := by
      unfold declared
      rw [bind_of_some hmagic, hread]
    have hcount := declared_lt hdeclared
    have behind := wf_of_declared hs hdeclared
    have hposition : (readUint32 u).2.buffer.position < 2 ^ 32 :=
      lt_of_le_of_lt (behind.position_le.trans behind.limit_le) behind.capacity_lt
    have hneeded := SizeT.needed_bits64 hcount hposition
    rw [bind_of_some hread, bind_of_some hdeclared]
    show (check _ >>= _ : Scan (List (BitVec 64))) _ = (check _ >>= _ : Scan (List (BitVec 64))) _
    rw [hneeded]

end Loop

/-! ## What the comparison promises -/

/-- The number of elements is bounded by the input: when the comparison passes, the elements fit in
the bytes that are left, the loop reads every one of them in front of the limit and without an
error, and there are at most as many as fit. -/
def Bounded (w : SizeT) (c : Class) (s : Stream) : Prop :=
  ∀ count t, c.header s = (some count, t) → w.needed count t.buffer.position ≤ t.buffer.limit →
    count * 8 ≤ t.buffer.limit - t.buffer.position ∧
      ∃ object u, c.readParams w s = (some object, u) ∧
        u.buffer = { t.buffer with position := t.buffer.position + count * 8 } ∧
        u.error = t.error ∧
        object.vector.length ≤ (t.buffer.limit - t.buffer.position) / 8

/-- The sum has not wrapped around, or what is left of it is refused. -/
def Unwrapped (w : SizeT) (c : Class) (s : Stream) : Prop :=
  ∀ count t, c.header s = (some count, t) →
    count * 8 + t.buffer.position < 2 ^ w.bits ∨
      t.buffer.limit < (count * 8 + t.buffer.position) % 2 ^ w.bits

/-- Elements that fit are read. -/
theorem bounded_of_fits {w : SizeT} {c : Class} {s t : Stream} {count : ℕ} (hs : s.buffer.Wf)
    (h : c.header s = (some count, t)) (passed : w.needed count t.buffer.position ≤ t.buffer.limit)
    (fits : t.buffer.position + count * 8 ≤ t.buffer.limit) :
    ∃ object u, c.readParams w s = (some object, u) ∧
      u.buffer = { t.buffer with position := t.buffer.position + count * 8 } ∧
      u.error = t.error ∧ object.vector.length = count := by
  obtain ⟨fields, run⟩ := readParams_of_header (w := w) h
  obtain ⟨xs, r, length, loop⟩ := collect_of_le 0 (wf_of_header hs h) fits
  rw [← elements_of_le passed] at loop
  rw [run, bind_of_some loop]
  exact ⟨⟨fields, xs⟩, _, rfl, rfl, rfl, length⟩

/-- The comparison bounds the number of elements exactly when the sum does not wrap around to a
place in front of the limit, and in 64 bits it never does. -/
theorem counts_bounded_iff (w : SizeT) (c : Class) (s : Stream) (wf : s.buffer.Wf) :
    Bounded w c s ↔ w = .bits64 ∨ Unwrapped w c s := by
  have wide : w = .bits64 → Unwrapped w c s := by
    rintro rfl count t header
    have := count_lt header
    have behind := wf_of_header wf header
    have := behind.position_le
    have := behind.limit_le
    have := behind.capacity_lt
    left
    show count * 8 + t.buffer.position < 2 ^ 64
    omega
  constructor
  · intro bounded
    right
    intro count t header
    by_cases passed : w.needed count t.buffer.position ≤ t.buffer.limit
    · left
      obtain ⟨fits, -⟩ := bounded count t header passed
      have behind := wf_of_header wf header
      have := behind.position_le
      have := behind.limit_le
      have := behind.capacity_lt
      have : 2 ^ 32 ≤ 2 ^ w.bits := by cases w <;> decide
      omega
    · right
      rw [← w.needed_eq]
      exact Nat.not_le.1 passed
  · intro condition count t header passed
    have unwrapped : Unwrapped w c s := condition.elim wide id
    have fits : count * 8 + t.buffer.position ≤ t.buffer.limit := by
      rcases unwrapped count t header with small | refused
      · rwa [SizeT.needed_of_lt small] at passed
      · rw [← w.needed_eq] at refused
        exact absurd passed (Nat.not_le.2 refused)
    obtain ⟨object, u, run, buffer, error, length⟩ :=
      bounded_of_fits wf header passed (by omega)
    refine ⟨by omega, object, u, run, buffer, error, ?_⟩
    rw [length]
    omega

/-! ## On a 32-bit platform -/

/-- The magic number and `2 ^ 29` elements, with nothing behind them. -/
def wrapping : Stream :=
  { buffer := .sliced (toLE 4 0x1cb5c415 ++ toLE 4 (2 ^ 29)) }

theorem counts_bounded_iff_wrapping :
    Bounded .bits64 .msgs_ack wrapping ↔ SizeT.bits64 = .bits64 ∨
      Unwrapped .bits64 .msgs_ack wrapping :=
  counts_bounded_iff .bits64 .msgs_ack wrapping ⟨by decide, by decide, by decide, by decide⟩

/-- Eight times `2 ^ 29` is zero in 32 bits: the comparison passes, and there is no element. -/
theorem msgs_ack_not_bounded : ¬ Bounded .bits32 .msgs_ack wrapping := by
  intro bounded
  obtain ⟨fits, -⟩ := bounded (2 ^ 29)
    { wrapping with buffer := { wrapping.buffer with position := 8 }, reach := 8 } (by decide)
      (by decide)
  revert fits
  decide

end Mtproto.Scheme.Counts
