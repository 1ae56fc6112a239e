import Mtproto.Streams.Calls
import Mtproto.Streams.SerializedData

/-!
# One wire format

Every value has one spelling (`Value.wire`).  Each of the three streams, the native buffer, the Java
buffer and `SerializedData`, writes exactly this spelling and reads it back, whatever the sequence
of calls.
-/

namespace Mtproto.Streams

open Bytes

/-! ## The format -/

/-- A text as a `std::string`. -/
def utf8 (text : List Char) : List UInt8 := text.flatMap String.utf8EncodeChar

/-- A text as a Java `String`. -/
def utf16 (text : List Char) : List UInt16 := text.flatMap Utf16.units

namespace Value

/-- The bytes of a framed value. -/
def framed : Value (List Char) → Option (List UInt8)
  | .byteArray b => some b
  | .string text => some (utf8 text)
  | _ => none

/-- The lengths that the three bytes of a length prefix can tell. -/
def Short (v : Value (List Char)) : Prop := ∀ b, v.framed = some b → b.length < 2 ^ 24

/-- The spelling of a value. -/
def wire : Value (List Char) → List UInt8
  | .int32 x => Java.writeInt x
  | .int64 x => Java.writeLong x
  | .bool x => Java.writeBoolean x
  | .bytes b => b
  | .byteArray b => Java.writeByteArray b
  | .string text => Java.writeByteArray (utf8 text)

end Value

/-- The spelling of a sequence of values. -/
def wire (values : List (Value (List Char))) : List UInt8 := values.flatMap Value.wire

theorem length_writeByteArray_mod_four (b : List UInt8) :
    (Java.writeByteArray b).length % 4 = 0 := by
  unfold Java.writeByteArray
  split_ifs with h
  · simp only [List.cons_append, List.length_cons, List.length_append, List.length_replicate,
      Java.paddingLength]
    omega
  · simp only [List.cons_append, List.length_cons, List.length_append, List.length_replicate,
      length_toLE, Java.paddingLength]
    omega

/-! ## Sequences of calls -/

section Sequences

variable {W S σ : Type} (f : List Char → σ)

/-- A writer that appends the spelling of one value, as long as there is room, appends that of a
sequence: `P w data n` says that `w` holds `data` and has room for `n` bytes. -/
theorem writeAll_wire (write : Value σ → W → W) {P : W → List UInt8 → ℕ → Prop}
    (hstep : ∀ (v : Value (List Char)) w data n, v.Short → P w data (v.wire.length + n) →
      P (write (v.map f) w) (data ++ v.wire) n)
    {values : List (Value (List Char))} (hshort : ∀ v ∈ values, v.Short) {w : W} {data : List UInt8}
    {n : ℕ}
    (h : P w data ((wire values).length + n)) :
    P (writeAll write (values.map (Value.map f)) w) (data ++ wire values) n := by
  induction values generalizing w data with
  | nil => simpa [writeAll, wire] using h
  | cons v values ih =>
    rw [wire, List.flatMap_cons, List.length_append, Nat.add_assoc] at h
    have hv := hstep v w data _ (hshort v (by simp)) h
    have hvs := ih (fun v hv => hshort v (by simp [hv])) hv
    rw [wire, List.flatMap_cons, ← List.append_assoc]
    exact hvs

/-- A reader that finds the spelling of one value reads a sequence: `P s data` says that `data` is
unread. -/
theorem readAll_wire (read : Call → S → Option (Value σ) × S) {P : S → List UInt8 → Prop}
    (hstep : ∀ (v : Value (List Char)) s rest, v.Short → P s (v.wire ++ rest) →
      ∃ t, read v.call s = (some (v.map f), t) ∧ P t rest)
    {values : List (Value (List Char))} (hshort : ∀ v ∈ values, v.Short) {s : S}
    (h : P s (wire values)) :
    ∃ t, readAll read (values.map Value.call) s = (some (values.map (Value.map f)), t) ∧
      P t [] := by
  induction values generalizing s with
  | nil => exact ⟨s, rfl, h⟩
  | cons v values ih =>
    rw [wire, List.flatMap_cons] at h
    obtain ⟨t, hread, ht⟩ := hstep v s _ (hshort v (by simp)) h
    obtain ⟨u, hreads, hu⟩ := ih (fun v hv => hshort v (by simp [hv])) ht
    refine ⟨u, ?_, hu⟩
    rw [List.map_cons, readAll, hread]
    simp only [hreads, List.map_cons]

end Sequences

/-! ## The native buffer -/

namespace Native

open Tgnet

theorem framed_eq (b : List UInt8) : Output.framed b = Java.writeByteArray b := by
  have hadd : Output.addition b.length =
      Java.paddingLength (b.length + if b.length ≤ 253 then 1 else 4) := by
    simp only [Output.addition, Java.paddingLength, u32]
    split_ifs <;> omega
  rw [Output.framed, Java.OutputBuffer.writeByteArray_eq, hadd]
  congr 2
  unfold Output.lengthBytes Java.OutputBuffer.lengthPuts
  split_ifs <;> rfl

theorem writeBoolean_eq (x : Bool) :
    Java.writeBoolean x = toLE 4 (if x then 0x997275b5 else 0xbc799737) := by
  cases x <;> rfl

theorem spell_map (v : Value (List Char)) : spell (v.map utf8) = v.wire := by
  cases v with
  | int32 x | int64 x | bytes b => rfl
  | bool x => exact (writeBoolean_eq x).symm
  | byteArray b => exact framed_eq b
  | string text => exact framed_eq _

/-- One write. -/
theorem write_wire {v : Value (List Char)} {o : Output} (h : o.Room v.wire.length) :
    write (v.map utf8) o = o.wrote v.wire := by
  rw [← spell_map] at h ⊢
  exact write_spell h

/-- One read. -/
theorem read_wire {v : Value (List Char)} {s : Input} {rest : List UInt8} (hv : v.Short)
    (h : s.Ahead v.wire rest) : read v.call s = (some (v.map utf8), s.advance v.wire.length) := by
  rw [← spell_map] at h ⊢
  cases v with
  | int32 x =>
    rw [Value.call, read, parses_int32 x s rest h]
    rfl
  | int64 x =>
    rw [Value.call, read, parses_int64 x s rest h]
    rfl
  | bool x =>
    rw [Value.call, read, parses_bool x s rest h]
    rfl
  | bytes b =>
    rw [Value.call, read, parses_bytes b s rest h]
    rfl
  | byteArray b =>
    rw [Value.call, read, parses_byteArray (hv b rfl) s rest h]
    rfl
  | string text =>
    rw [Value.call, read, parses_string (hv _ rfl) s rest h]
    rfl

end Native

/-! ## The Java buffer -/

theorem encode_utf16 (text : List Char) : Utf16.encode (utf16 text) = utf8 text := by
  have hchars : (text.map some).map (·.getD '?') = text := by
    rw [List.map_map]
    exact List.map_id _
  rw [Utf16.encode, utf16, Utf16.chars_flatMap_units, hchars]
  rfl

theorem newString_utf8 (malformed : List UInt8 → List UInt16) (text : List Char) :
    Java.newString malformed (utf8 text) = utf16 text := by
  rw [Java.newString, ← encode_utf16, Utf16.decode?_encode, utf16, Utf16.chars_flatMap_units,
    Option.getD_some, List.map_map]
  congr 1
  exact List.map_id _

namespace Buffer

open Java

def write : Value (List UInt16) → OutputBuffer → OutputBuffer
  | .int32 x => OutputBuffer.writeInt x
  | .int64 x => OutputBuffer.writeLong x
  | .bool x => OutputBuffer.writeBoolean x
  | .bytes b => OutputBuffer.writeBytes b
  | .byteArray b => OutputBuffer.writeByteArray b
  | .string s => OutputBuffer.writeString s

/-- The readers work on the bytes between the position and the limit. -/
def read (malformed : List UInt8 → List UInt16) :
    Call → List UInt8 → Option (Value (List UInt16)) × List UInt8
  | .int32, s => let (x, s) := readInt s; (some (.int32 x), s)
  | .int64, s => let (x, s) := readLong s; (some (.int64 x), s)
  | .bool, s => let (x, s) := readBoolean s; (some (.bool x), s)
  | .bytes length, s => let (b, s) := readBytes length s; (some (.bytes b), s)
  | .byteArray, s => let (b, s) := readByteArray s; (some (.byteArray b), s)
  | .string, s => let (b, s) := readString malformed s; (some (.string b), s)

theorem write_wire {v : Value (List Char)} {o : OutputBuffer} (h : o.Room v.wire.length) :
    write (v.map utf16) o = o.wrote v.wire := by
  cases v with
  | int32 x => exact OutputBuffer.writeInt_wrote (by simpa [Value.wire, writeInt] using h)
  | int64 x => exact OutputBuffer.writeLong_wrote (by simpa [Value.wire, writeLong] using h)
  | bool x =>
    exact OutputBuffer.writeBoolean_wrote (by simpa [Value.wire, writeBoolean, writeInt] using h)
  | bytes b => exact OutputBuffer.writeBytes_wrote h
  | byteArray b => exact OutputBuffer.writeByteArray_wrote h
  | string text =>
    rw [Value.map, write, OutputBuffer.writeString, encode_utf16]
    exact OutputBuffer.writeByteArray_wrote h

theorem read_wire {malformed : List UInt8 → List UInt16} {v : Value (List Char)} {rest : List UInt8}
    (hv : v.Short) : read malformed v.call (v.wire ++ rest) = (some (v.map utf16), rest) := by
  cases v with
  | int32 x => simp only [read, Value.call, Value.wire, readInt_writeInt, Value.map]
  | int64 x => simp only [read, Value.call, Value.wire, readLong_writeLong, Value.map]
  | bool x => simp only [read, Value.call, Value.wire, readBoolean_writeBoolean, Value.map]
  | bytes b =>
    have hget : Buffer.getBytes b.length (b ++ rest) = (some b, rest) :=
      Buffer.getBytes_eq_some.2 ⟨rfl, rfl⟩
    simp only [read, Value.call, Value.wire, readBytes, Buffer.catching, hget, Value.map]
  | byteArray b =>
    have hframe : readFramed (writeByteArray b ++ rest) = (some b, rest) :=
      readFramed_of_framed (framed_writeByteArray (hv b rfl))
    simp only [read, Value.call, Value.wire, readByteArray, Buffer.catching, hframe, Value.map]
  | string text =>
    have hframe : readFramed (writeByteArray (utf8 text) ++ rest) = (some (utf8 text), rest) :=
      readFramed_of_framed (framed_writeByteArray (hv _ rfl))
    simp only [read, Value.call, Value.wire, readString, hframe, newString_utf8, Value.map]

end Buffer

/-! ## `SerializedData` -/

namespace Serialized

open Java Java.SerializedData

def write (v : Value (List UInt16)) (o : Out) : Out :=
  match v with
  | .int32 x => (SerializedData.writeInt x o).2
  | .int64 x => (SerializedData.writeLong x o).2
  | .bool x => (SerializedData.writeBoolean x o).2
  | .bytes b => (SerializedData.writeBytes b o).2
  | .byteArray b => (SerializedData.writeByteArray b o).2
  | .string s => (SerializedData.writeString s o).2

/-- A null and an exception both count as no value. -/
def read (malformed : List UInt8 → List UInt16) (exception : Bool) (call : Call) (s : In) :
    Option (Value (List UInt16)) × In :=
  match call with
  | .int32 => (SerializedData.readInt s).map (fun x => some (.int32 x)) id
  | .int64 => (SerializedData.readLong s).map (fun x => some (.int64 x)) id
  | .bool => (SerializedData.readBoolean exception s).map (Option.map .bool) id
  | .bytes length => (SerializedData.readData length s).map (fun b => some (.bytes b)) id
  | .byteArray => (SerializedData.readByteArray exception s).map (fun b => b.join.map .byteArray) id
  | .string =>
      (SerializedData.readString malformed exception s).map (fun b => b.join.map .string) id

theorem write_wire {v : Value (List Char)} {o : Out} (h : o.justCalc = false) :
    write (v.map utf16) o = o.wrote v.wire := by
  cases v with
  | int32 x => rw [Value.map, write, writeInt_wrote h, Value.wire]
  | int64 x => rw [Value.map, write, writeLong_wrote h, Value.wire]
  | bool x => rw [Value.map, write, writeBoolean_wrote h, Value.wire]
  | bytes b => rw [Value.map, write, SerializedData.writeBytes, emit_wrote h, Value.wire]
  | byteArray b => rw [Value.map, write, writeByteArray_wrote h, Value.wire]
  | string text =>
    rw [Value.map, write, SerializedData.writeString, encode_utf16, writeByteArray_wrote h,
      Value.wire]

theorem readInt_of_left {s : In} {x : BitVec 32} {rest : List UInt8}
    (h : s.inbuf = Java.writeInt x ++ rest) : SerializedData.readInt s = (x, s.left rest 4) := by
  have hword := readWord_append (w := 32) (Java.writeInt x) (by simp [Java.writeInt]) h
  rw [Java.writeInt, length_toLE, leNat_toLE_of_lt (by simpa using x.isLt)] at hword
  rw [SerializedData.readInt, hword]
  simp

theorem readLong_of_left {s : In} {x : BitVec 64} {rest : List UInt8}
    (h : s.inbuf = Java.writeLong x ++ rest) : SerializedData.readLong s = (x, s.left rest 8) := by
  have hword := readWord_append (w := 64) (Java.writeLong x) (by simp [Java.writeLong]) h
  rw [Java.writeLong, length_toLE, leNat_toLE_of_lt (by simpa using x.isLt)] at hword
  rw [SerializedData.readLong, hword]
  simp

theorem read_wire {malformed : List UInt8 → List UInt16} {exception : Bool} {v : Value (List Char)}
    {s : In} {rest : List UInt8} (hv : v.Short) (h : s.inbuf = v.wire ++ rest) :
    ∃ n, read malformed exception v.call s = (some (v.map utf16), s.left rest n) := by
  cases v with
  | int32 x =>
    refine ⟨4, ?_⟩
    rw [Value.call, read, readInt_of_left h]
    rfl
  | int64 x =>
    refine ⟨8, ?_⟩
    rw [Value.call, read, readLong_of_left h]
    rfl
  | bool x =>
    refine ⟨4, ?_⟩
    have hbool : SerializedData.readBoolean exception s = (some x, s.left rest 4) := by
      rw [SerializedData.readBoolean]
      cases x with
      | true =>
        rw [readInt_of_left (x := 0x997275b5) h]
        exact if_pos rfl
      | false =>
        rw [readInt_of_left (x := 0xbc799737) h]
        exact (if_neg (by decide)).trans (if_pos rfl)
    rw [Value.call, read, hbool]
    rfl
  | bytes b =>
    refine ⟨b.length, ?_⟩
    obtain ⟨inbuf, len⟩ := s
    obtain rfl := h
    rw [Value.call, read, SerializedData.readData, Value.wire, fill_append]
    rfl
  | byteArray b =>
    obtain ⟨n, hframe⟩ := readFramed_writeByteArray (hv b rfl) h
    refine ⟨n, ?_⟩
    rw [Value.call, read, SerializedData.readByteArray, hframe]
    rfl
  | string text =>
    obtain ⟨n, hframe⟩ := readFramed_writeByteArray (hv _ rfl) h
    refine ⟨n, ?_⟩
    rw [Value.call, read, SerializedData.readString, hframe]
    simp only [Option.map_some, newString_utf8]
    rfl

end Serialized

/-! ## Agreement -/

section Agreement

variable {values : List (Value (List Char))}

theorem Native.writeAll_wire (hshort : ∀ v ∈ values, v.Short) {o : Tgnet.Output}
    (h : o.Room (wire values).length) :
    (writeAll Native.write (values.map (Value.map utf8)) o).buffer.filled =
        o.buffer.filled ++ wire values ∧
      (writeAll Native.write (values.map (Value.map utf8)) o).error = o.error := by
  have hrun := Streams.writeAll_wire utf8 Native.write
    (P := fun w data n => w.Room n ∧ w.buffer.filled = data ∧ w.error = o.error) ?_ hshort (w := o)
    (n := 0) ⟨h, rfl, rfl⟩
  · exact ⟨hrun.2.1, hrun.2.2⟩
  · rintro v w data n - ⟨hroom, rfl, herror⟩
    rw [Native.write_wire (hroom.mono (Nat.le_add_right _ _))]
    exact ⟨hroom.wrote, Tgnet.Output.filled_wrote hroom, herror⟩

theorem Buffer.writeAll_wire (hshort : ∀ v ∈ values, v.Short) {o : Java.OutputBuffer}
    (h : o.Room (wire values).length) :
    (writeAll Buffer.write (values.map (Value.map utf16)) o).buffer.filled =
      o.buffer.filled ++ wire values := by
  have hrun := Streams.writeAll_wire utf16 Buffer.write
    (P := fun w data n => w.Room n ∧ w.buffer.filled = data) ?_ hshort (w := o) (n := 0) ⟨h, rfl⟩
  · exact hrun.2
  · rintro v w data n - ⟨hroom, rfl⟩
    rw [Buffer.write_wire (hroom.mono (Nat.le_add_right _ _))]
    exact ⟨hroom.wrote, Java.OutputBuffer.filled_wrote hroom⟩

theorem Serialized.writeAll_wire (hshort : ∀ v ∈ values, v.Short) {o : Java.SerializedData.Out}
    (h : o.justCalc = false) :
    (writeAll Serialized.write (values.map (Value.map utf16)) o).outbuf =
      o.outbuf ++ wire values := by
  have hrun := Streams.writeAll_wire utf16 Serialized.write
    (P := fun w data _ => w.justCalc = false ∧ w.outbuf = data) ?_ hshort (w := o) (n := 0) ⟨h, rfl⟩
  · exact hrun.2
  · rintro v w data n - ⟨hreal, rfl⟩
    rw [Serialized.write_wire hreal]
    exact ⟨hreal, rfl⟩

theorem Native.readAll_wire (hshort : ∀ v ∈ values, v.Short) {s : Tgnet.Input} (hwf : s.buffer.Wf)
    (h : s.buffer.unread = wire values) :
    ∃ t, readAll Native.read (values.map Value.call) s = (some (values.map (Value.map utf8)), t) ∧
      t.buffer.position = t.buffer.limit ∧ t.error = s.error := by
  have hrun := Streams.readAll_wire utf8 Native.read
    (P := fun t data => t.buffer.Wf ∧ t.buffer.unread = data ∧ t.error = s.error) ?_ hshort
    ⟨hwf, h, rfl⟩
  · obtain ⟨t, hread, htwf, hrest, herror⟩ := hrun
    exact ⟨t, hread, (Tgnet.NativeByteBuffer.unread_eq_nil_iff htwf).1 hrest, herror⟩
  · rintro v t rest hv ⟨htwf, hunread, herror⟩
    have hahead : t.Ahead v.wire rest := ⟨htwf, hunread⟩
    have hnext : (t.advance v.wire.length).Ahead [] rest := Tgnet.Input.Ahead.next hahead
    exact ⟨_, Native.read_wire hv hahead, hnext.wf, hnext.unread, herror⟩

theorem Buffer.readAll_wire (malformed : List UInt8 → List UInt16)
    (hshort : ∀ v ∈ values, v.Short) :
    readAll (Buffer.read malformed) (values.map Value.call) (wire values) =
      (some (values.map (Value.map utf16)), []) := by
  have hrun := Streams.readAll_wire utf16 (Buffer.read malformed)
    (P := fun s data => s = data) ?_ hshort rfl
  · obtain ⟨t, hread, rfl⟩ := hrun
    exact hread
  · rintro v s rest hv rfl
    exact ⟨rest, Buffer.read_wire hv, rfl⟩

theorem Serialized.readAll_wire (malformed : List UInt8 → List UInt16) (exception : Bool)
    (hshort : ∀ v ∈ values, v.Short) {s : Java.SerializedData.In} (h : s.inbuf = wire values) :
    ∃ t, readAll (Serialized.read malformed exception) (values.map Value.call) s =
        (some (values.map (Value.map utf16)), t) ∧ t.inbuf = [] := by
  refine Streams.readAll_wire utf16 _ (P := fun s data => Java.SerializedData.In.inbuf s =
    data) ?_ hshort h
  intro v s rest hv hs
  obtain ⟨n, hread⟩ := Serialized.read_wire hv hs
  exact ⟨_, hread, rfl⟩

theorem length_wire_mod_four {v : Value (List Char)} {b : List UInt8} (h : v.framed = some b) :
    v.wire.length % 4 = 0 := by
  cases v with
  | int32 x | int64 x | bool x | bytes b => cases h
  | byteArray b => exact length_writeByteArray_mod_four b
  | string text => exact length_writeByteArray_mod_four _

/-- The three streams write the same bytes for every sequence of values, with every byte array and
string aligned, and each reads them back to the end. -/
theorem one_wire_format (values : List (Value (List Char))) (hshort : ∀ v ∈ values, v.Short) :
    (∀ o : Tgnet.Output, o.Room (wire values).length →
      (writeAll Native.write (values.map (Value.map utf8)) o).buffer.filled =
          o.buffer.filled ++ wire values ∧
        (writeAll Native.write (values.map (Value.map utf8)) o).error = o.error) ∧
    (∀ o : Java.OutputBuffer, o.Room (wire values).length →
      (writeAll Buffer.write (values.map (Value.map utf16)) o).buffer.filled =
        o.buffer.filled ++ wire values) ∧
    (∀ o : Java.SerializedData.Out, o.justCalc = false →
      (writeAll Serialized.write (values.map (Value.map utf16)) o).outbuf =
        o.outbuf ++ wire values) ∧
    (∀ v ∈ values, v.framed ≠ none → v.wire.length % 4 = 0) ∧
    (∀ s : Tgnet.Input, s.buffer.Wf → s.buffer.unread = wire values →
      ∃ t, readAll Native.read (values.map Value.call) s = (some (values.map (Value.map utf8)), t) ∧
        t.buffer.position = t.buffer.limit ∧ t.error = s.error) ∧
    (∀ malformed, readAll (Buffer.read malformed) (values.map Value.call) (wire values) =
      (some (values.map (Value.map utf16)), [])) ∧
    (∀ malformed exception, ∀ s : Java.SerializedData.In, s.inbuf = wire values →
      ∃ t, readAll (Serialized.read malformed exception) (values.map Value.call) s =
        (some (values.map (Value.map utf16)), t) ∧ t.inbuf = []) := by
  refine ⟨fun o => Native.writeAll_wire hshort, fun o => Buffer.writeAll_wire hshort,
    fun o => Serialized.writeAll_wire hshort, ?_, fun s => Native.readAll_wire hshort,
    fun malformed => Buffer.readAll_wire malformed hshort,
    fun malformed exception s => Serialized.readAll_wire malformed exception hshort⟩
  intro v _ hv
  obtain ⟨b, hb⟩ := Option.ne_none_iff_exists'.1 hv
  exact length_wire_mod_four hb

/-- A sequence with a value of every kind, and an array behind each form of the length. -/
def sample : List (Value (List Char)) :=
  [.int32 7, .int64 8, .bool true, .bytes [1, 2, 3], .byteArray [4, 5],
    .byteArray (List.replicate 254 6), .string ['a', 'é']]

theorem one_wire_format_sample :
    (∀ v ∈ sample, v.Short) ∧
    ∀ malformed, readAll (Buffer.read malformed) (sample.map Value.call) (wire sample) =
      (some (sample.map (Value.map utf16)), []) := by
  have hshort : ∀ v ∈ sample, v.Short := by
    intro v hv b hb
    simp only [sample, List.mem_cons, List.not_mem_nil, or_false] at hv
    rcases hv with rfl | rfl | rfl | rfl | rfl | rfl | rfl <;> cases hb <;> decide +kernel
  exact ⟨hshort, (one_wire_format sample hshort).2.2.2.2.2.1⟩

end Agreement

end Mtproto.Streams
