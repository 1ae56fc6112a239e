import Mtproto.Scheme.Counts
import Mtproto.Streams.Calls

/-!
# The codecs with both directions

`TL_config`, `TL_dcOption`, `TL_user`, `TL_msgs_ack` and `TL_msg_resend_req` are written by
`serializeToStream` and read by `readParams`.  A `Codec` is a writer and a reader in step: what the
one writes the other reads.  Codecs are put together field by field, in the order of the two
functions, so that no list of the bytes of an object is ever written down.
-/

namespace Mtproto.Scheme.Codecs

open Lib Lib.Interruptible Tgnet Bytes Scan Streams Streams.Native

/-! ## Writers -/

/-- The calls on a stream. -/
abbrev Calls := List (Value (List UInt8))

/-- A serializer, which makes calls; the crash is a null pointer that is followed. -/
abbrev Writer := Interruptible Calls Unit

def put (v : Value (List UInt8)) : Writer := modify fun calls => calls ++ [v]

/-- `if (…) { … }`. -/
def whenSet (present : Prop) [Decidable present] (w : Writer) : Writer :=
  if present then w else pure ()

/-- A pointer that is followed. -/
def deref {α : Type} (f : α → Writer) : Option α → Writer
  | some a => f a
  | none => crash

/-- A vector: the number of its elements is cast to `uint32_t`, and so many are written. -/
def vector {α : Type} (f : α → Writer) (as : List α) : Writer := do
  put (.int32 0x1cb5c415)
  put (.int32 (BitVec.ofNat 32 as.length))
  each f (as.take (u32 as.length))

/-- The serializer makes these calls. -/
def Writes (m : Writer) (calls : Calls) : Prop := ∀ before, m before = (some (), before ++ calls)

section Writes

variable {α : Type} {m n : Writer} {calls more : Calls}

theorem writes_pure : Writes (pure ()) [] := by
  intro before
  rw [List.append_nil]
  rfl

theorem writes_put (v : Value (List UInt8)) : Writes (put v) [v] := fun _ => rfl

theorem Writes.bind (hm : Writes m calls) (hn : Writes n more) :
    Writes (m >>= fun _ => n) (calls ++ more) := by
  intro before
  rw [bind_of_some (hm before), hn, List.append_assoc]

theorem writes_vector {f : α → Writer} {as : List α} (hlength : as.length < 2 ^ 32)
    (h : Writes (each f as) calls) :
    Writes (vector f as) ([.int32 0x1cb5c415] ++
      ([.int32 (BitVec.ofNat 32 as.length)] ++ calls)) := by
  unfold vector
  rw [u32_of_lt hlength, List.take_length]
  exact (writes_put _).bind ((writes_put _).bind h)

end Writes

/-! ## Readers -/

/-- The reader finds `data`, returns `a` and leaves what follows; no error is set. -/
def Scans {α : Type} (r : Scan α) (data : List UInt8) (a : α) : Prop :=
  ∀ (s : Stream) (rest : List UInt8), s.toInput.Ahead data rest →
    ∃ reach, r s = (some a, { s with toInput := s.toInput.advance data.length, reach := reach })

section Scans

variable {α β : Type} {data more : List UInt8}

theorem scans_pure (a : α) : Scans (pure a) [] a := fun s _ _ => ⟨s.reach, rfl⟩

theorem scans_scan {look : Input → ℕ} {read : Reader α} {a : α} (h : Parses read data a) :
    Scans (scan look read) data a := by
  intro s rest ahead
  refine ⟨max s.reach (look s.toInput), ?_⟩
  unfold scan
  rw [h s.toInput rest ahead]

theorem Scans.bind {r : Scan α} {f : α → Scan β} {a : α} {b : β} (hr : Scans r data a)
    (hf : Scans (f a) more b) : Scans (r >>= f) (data ++ more) b := by
  intro s rest h
  obtain ⟨reach, first⟩ := hr s _ h.split
  obtain ⟨reach', second⟩ :=
    hf { s with toInput := s.toInput.advance data.length, reach := reach } rest h.split.next
  refine ⟨reach', ?_⟩
  rw [bind_of_some first, second, Input.advance_advance, List.length_append]

theorem parses_uint32 (x : BitVec 32) : Parses (Input.word 4) (spell (.int32 x)) x.toNat := by
  intro s rest h
  have hword := h.word
  rw [length_spell_int32] at hword ⊢
  rw [hword, spell, leNat_toLE_of_lt (by simpa using x.isLt)]

theorem scans_check {c : Prop} [Decidable c] (hc : c) : Scans (check c) [] () := by
  unfold check
  rw [if_pos hc]
  exact scans_pure ()

theorem scans_vectorMagic : Scans vectorMagic (spell (.int32 0x1cb5c415)) () := by
  rw [← List.append_nil (spell _)]
  exact (scans_scan (parses_uint32 _)).bind (scans_check rfl)

end Scans

/-! ## Codecs -/

/-- The reader reads `a` from the bytes of the writer's calls, of which there are at least `k`.  A
buffer holds fewer than `2 ^ 32` bytes. -/
def Codec {α : Type} (k : ℕ) (m : Writer) (r : Scan α) (a : α) : Prop :=
  ∃ calls, Writes m calls ∧ k ≤ (spellAll calls).length ∧
    ((spellAll calls).length < 2 ^ 32 → Scans r (spellAll calls) a)

section Codec

variable {α β : Type} {m n : Writer} {r : Scan α} {a : α} {j k : ℕ}

theorem Codec.mono (h : Codec k m r a) (hle : j ≤ k) : Codec j m r a := by
  obtain ⟨calls, writes, length, scans⟩ := h
  exact ⟨calls, writes, hle.trans length, scans⟩

theorem codec_pure (a : α) : Codec 0 (pure ()) (pure a) a :=
  ⟨[], writes_pure, Nat.zero_le _, fun _ => scans_pure a⟩

theorem Codec.bind {f : α → Scan β} {b : β} (hm : Codec k m r a) (hn : Codec 0 n (f a) b) :
    Codec k (m >>= fun _ => n) (r >>= f) b := by
  obtain ⟨calls, writes, length, scans⟩ := hm
  obtain ⟨more, writes', -, scans'⟩ := hn
  refine ⟨calls ++ more, writes.bind writes', ?_, ?_⟩
  · rw [spellAll_append, List.length_append]
    exact length.trans (Nat.le_add_right _ _)
  · intro small
    rw [spellAll_append, List.length_append] at small
    rw [spellAll_append]
    exact (scans (by omega)).bind (scans' (by omega))

/-- The last field of an object. -/
theorem Codec.last {f : α → Scan β} {b : β} (hm : Codec k m r a) (hf : f a = pure b) :
    Codec k m (r >>= f) b := by
  obtain ⟨calls, writes, length, scans⟩ := hm
  refine ⟨calls, writes, length, ?_⟩
  intro small
  rw [← List.append_nil (spellAll calls)]
  refine (scans small).bind ?_
  rw [hf]
  exact scans_pure b

/-- A test of the reader. -/
theorem Codec.check {c : Prop} [Decidable c] (hc : c) (hn : Codec k m r a) :
    Codec k m (check c >>= fun _ => r) a := by
  obtain ⟨calls, writes, length, scans⟩ := hn
  exact ⟨calls, writes, length, fun small => (scans_check hc).bind (scans small)⟩

theorem codec_scan {look : Input → ℕ} {read : Reader α} {v : Value (List UInt8)}
    (h : Parses read (spell v) a) (hk : k ≤ (spell v).length) :
    Codec k (put v) (scan look read) a := by
  have hspell : spellAll [v] = spell v := by
    rw [spellAll_cons, spellAll_nil, List.append_nil]
  refine ⟨[v], writes_put v, ?_, fun _ => ?_⟩
  · rwa [hspell]
  · rw [hspell]
    exact scans_scan h

theorem codec_int32 (x : BitVec 32) : Codec 0 (put (.int32 x)) readInt32 x :=
  codec_scan (parses_int32 x) (Nat.zero_le _)

theorem codec_uint32 (x : BitVec 32) : Codec 4 (put (.int32 x)) readUint32 x.toNat :=
  codec_scan (parses_uint32 x) (length_spell_int32 x).ge

theorem codec_int64 (x : BitVec 64) : Codec 0 (put (.int64 x)) readInt64 x :=
  codec_scan (parses_int64 x) (Nat.zero_le _)

/-- An element of a vector of words. -/
theorem codec_word (x : BitVec 64) : Codec 8 (put (.int64 x)) readInt64 x :=
  codec_scan (parses_int64 x) (length_spell_int64 x).ge

/-- A constructor, and the rest of the object. -/
theorem Codec.tagged {f : ℕ → Scan α} {x : BitVec 32} (hf : f x.toNat = r) (hm : Codec 0 m r a) :
    Codec 4 (put (.int32 x) >>= fun _ => m) (readUint32 >>= f) a := by
  rw [← hf] at hm
  exact (codec_uint32 x).bind hm

theorem codec_bool (x : Bool) : Codec 0 (put (.bool x)) readBool x :=
  codec_scan (parses_bool x) (Nat.zero_le _)

theorem codec_string {b : List UInt8} (hb : b.length < 2 ^ 24) :
    Codec 0 (put (.string b)) readString b :=
  codec_scan (parses_string hb) (Nat.zero_le _)

theorem codec_byteArray {b : List UInt8} (hb : b.length < 2 ^ 24) :
    Codec 0 (put (.byteArray b)) readByteArray (some b) :=
  codec_scan (parses_byteArray hb) (Nat.zero_le _)

/-- A field that is there when its bit is set. -/
theorem codec_flagged {present : Prop} [Decidable present] {x : Option α} {w : Option α → Writer}
    (hx : x.isSome ↔ present) (h : ∀ a, x = some a → Codec k (w (some a)) r a) :
    Codec 0 (whenSet present (w x)) (flagged present r) x := by
  unfold whenSet flagged
  cases x with
  | none =>
      have absent : ¬ present := by simpa using hx
      rw [if_neg absent, if_neg absent]
      exact codec_pure none
  | some a =>
      have set : present := hx.1 rfl
      rw [if_pos set, if_pos set]
      refine Codec.mono (k := k) ?_ (Nat.zero_le _)
      exact (h a rfl).last rfl

/-- The elements of a vector. -/
theorem codec_each {f : α → Writer} {r : Scan α} {as : List α} (i : ℕ)
    (h : ∀ a ∈ as, Codec k (f a) r a) :
    Codec (k * as.length) (each f as) (collect (fun _ => r) i as.length) as := by
  induction as generalizing i with
  | nil => exact codec_pure []
  | cons a as ih =>
    obtain ⟨calls, writes, length, scans⟩ := h a List.mem_cons_self
    obtain ⟨more, writes', length', scans'⟩ := ih (i + 1) fun a ha =>
      h a (List.mem_cons_of_mem _ ha)
    refine ⟨calls ++ more, writes.bind writes', ?_, ?_⟩
    · rw [spellAll_append, List.length_append, List.length_cons, Nat.mul_add, Nat.mul_one]
      omega
    · intro small
      rw [spellAll_append, List.length_append] at small
      rw [spellAll_append]
      refine (scans (by omega)).bind ?_
      rw [← List.append_nil (spellAll more)]
      exact (scans' (by omega)).bind (scans_pure _)

/-- A vector whose number is signed on the other side: so many elements that it would be negative do
not fit in a buffer. -/
theorem codec_signedVector {f : α → Writer} {element : Scan α} {as : List α}
    (hlength : as.length < 2 ^ 32)
    (h : ∀ a ∈ as, Codec 4 (f a) element a) : Codec 0 (vector f as) (signedVector element) as := by
  obtain ⟨calls, writes, length, scans⟩ := codec_each 0 h
  refine ⟨_, writes_vector hlength writes, Nat.zero_le _, ?_⟩
  rw [List.singleton_append, List.singleton_append, spellAll_cons, spellAll_cons]
  intro small
  rw [List.length_append, List.length_append, length_spell_int32, length_spell_int32] at small
  have hcount : (BitVec.ofNat 32 as.length).toInt.toNat = as.length := by
    rw [BitVec.toInt_eq_toNat_of_lt (by rw [BitVec.toNat_ofNat]; omega), BitVec.toNat_ofNat,
      Int.toNat_natCast]
    omega
  refine scans_vectorMagic.bind ((scans_scan (parses_int32 _)).bind ?_)
  rw [hcount]
  exact scans (by omega)

/-- A vector of words, whose number is compared with what is left. -/
theorem codec_elements (w : Counts.SizeT) (f : List (BitVec 64) → α) {words : List (BitVec 64)}
    (hlength : words.length < 2 ^ 32) :
    Codec 0 (vector (fun x => put (.int64 x)) words)
      (do let count ← Counts.declared; let words ← Counts.elements w count; pure (f words))
        (f words) := by
  obtain ⟨calls, writes, length, scans⟩ :=
    codec_each 0 fun x (_ : x ∈ words) => codec_word x
  refine ⟨_, writes_vector hlength writes, Nat.zero_le _, ?_⟩
  rw [List.singleton_append, List.singleton_append, spellAll_cons, spellAll_cons]
  intro small
  rw [List.length_append, List.length_append, length_spell_int32, length_spell_int32] at small
  have hcount : (BitVec.ofNat 32 words.length).toNat = words.length := by
    rw [BitVec.toNat_ofNat]
    omega
  have hdeclared : Scans Counts.declared
      (spell (.int32 0x1cb5c415) ++ spell (.int32 (BitVec.ofNat 32 words.length)))
        words.length := by
    have huint32 := parses_uint32 (BitVec.ofNat 32 words.length)
    rw [hcount] at huint32
    exact scans_vectorMagic.bind (scans_scan huint32)
  rw [← List.append_assoc, ← List.append_nil (spellAll calls)]
  refine hdeclared.bind (Scans.bind ?_ (scans_pure _))
  intro s rest h
  have hposition := h.fits.2
  have hlimit := h.wf.limit_le.trans_lt h.wf.capacity_lt
  have hwide : 2 ^ 32 ≤ 2 ^ w.bits := by cases w <;> decide
  have hneeded : w.needed words.length s.buffer.position ≤ s.buffer.limit := by
    rw [Counts.SizeT.needed_of_lt (by omega)]
    omega
  rw [Counts.elements_of_le hneeded]
  exact scans (by omega) s rest h

/-- The same for the vector of the parsers of `Deserialize`. -/
theorem codec_longVector (f : List (BitVec 64) → α) {words : List (BitVec 64)}
    (hlength : words.length < 2 ^ 32) :
    Codec 0 (vector (fun x => put (.int64 x)) words)
      (do let words ← longVector; pure (f words)) (f words) := by
  obtain ⟨calls, writes, length, scans⟩ := codec_elements .bits64 f hlength
  refine ⟨calls, writes, length, fun small s rest h => ?_⟩
  obtain ⟨reach, run⟩ := scans small s rest h
  refine ⟨reach, ?_⟩
  rw [bind_congr_at (Counts.longVector_eq h.wf), bind_assoc_at]
  exact run

end Codec

/-! ## Round trips -/

/-- The writer follows no null pointer, and where there is room for its calls they set no error;
from the place where their bytes begin the reader finds an equal value, sets no error and stops
where they end. -/
def RoundTrips {α : Type} (write : Writer) (read : Scan α) (a : α) : Prop :=
  ∃ calls, write [] = (some (), calls) ∧
    ∀ o : Output, o.Room (spellAll calls).length →
      (writeAll Native.write calls o).error = o.error ∧
      ∀ s : Stream,
        s.buffer = { (writeAll Native.write calls o).buffer with position := o.buffer.position } →
        ∃ t, read s = (some a, t) ∧ t.buffer = (writeAll Native.write calls o).buffer ∧
          t.error = s.error

section RoundTrips

variable {α : Type} {write : Writer} {read : Scan α} {a b : α} {k : ℕ} {calls : Calls}

/-- What has been written lies ahead of where it begins. -/
theorem unread_wrote {o : Output} {data : List UInt8} (h : o.Room data.length) :
    ({ (o.wrote data).buffer with position := o.buffer.position } : NativeByteBuffer).unread =
      data ++ ((o.buffer.buffer.drop (o.buffer.position + data.length)).take
        (o.buffer.limit - o.buffer.position - data.length)) := by
  have hlength : (o.buffer.buffer.take o.buffer.position).length = o.buffer.position := by
    rw [List.length_take, Nat.min_eq_left h.position_le_length]
  have hfits := h.fits
  show ((splice o.buffer.buffer o.buffer.position data).drop o.buffer.position).take
    (o.buffer.limit - o.buffer.position) = _
  rw [splice, List.append_assoc, List.drop_append_of_le_length hlength.ge,
    List.drop_of_length_le hlength.le, List.nil_append, List.take_append,
    List.take_of_length_le (by omega)]

/-- A codec is a round trip. -/
theorem Codec.roundTrips (h : Codec k write read a) : RoundTrips write read a := by
  obtain ⟨calls, writes, -, scans⟩ := h
  refine ⟨calls, writes [], ?_⟩
  intro o room
  rw [writeAll_spell room]
  refine ⟨rfl, ?_⟩
  intro s start
  have hfits := room.fits
  have hlimit := room.wf.limit_le
  have hcapacity := room.wf.capacity_lt
  have written : (o.wrote (spellAll calls)).buffer.Wf := by
    have hwrote : o.Room ((spellAll calls).length + 0) := room
    exact hwrote.wrote.wf
  have ahead : s.toInput.Ahead (spellAll calls)
      ((o.buffer.buffer.drop (o.buffer.position + (spellAll calls).length)).take
        (o.buffer.limit - o.buffer.position - (spellAll calls).length)) := by
    refine ⟨?_, ?_⟩
    · rw [start]
      exact ⟨room.wf.position_le, hlimit, written.length_eq, hcapacity⟩
    · rw [start]
      exact unread_wrote room
  obtain ⟨reach, run⟩ := scans (by omega) s _ ahead
  refine ⟨_, run, ?_, rfl⟩
  show s.buffer.advance (spellAll calls).length = _
  rw [start]
  rfl

/-- Two values that are written by the same calls are the same. -/
theorem RoundTrips.unique (hcalls : write [] = (some (), calls))
    (hlength : (spellAll calls).length < 2 ^ 32)
    (ha : RoundTrips write read a) (hb : RoundTrips write read b) : a = b := by
  obtain ⟨calls', hcalls', reads⟩ := ha
  obtain ⟨calls'', hcalls'', reads'⟩ := hb
  obtain rfl : calls = calls' := congrArg Prod.snd (hcalls.symm.trans hcalls')
  obtain rfl : calls = calls'' := congrArg Prod.snd (hcalls.symm.trans hcalls'')
  have room : (Output.fresh (spellAll calls).length).Room (spellAll calls).length :=
    ⟨rfl, NativeByteBuffer.wf_new hlength, (Nat.zero_add _).le⟩
  obtain ⟨-, first⟩ := reads _ room
  obtain ⟨-, second⟩ := reads' _ room
  obtain ⟨t, run, -⟩ := first { buffer := _ } rfl
  obtain ⟨t', run', -⟩ := second { buffer := _ } rfl
  exact Option.some.inj (congrArg Prod.fst (run.symm.trans run'))

end RoundTrips

end Mtproto.Scheme.Codecs
