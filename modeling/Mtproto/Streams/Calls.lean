import Mtproto.Streams.Native

/-!
# Sequences of calls

The calls of the writers as data, so that a program that serializes something is the list of its
calls, and the rules by which readers are composed: a reader that finds the spelling of a value
returns the value and leaves what follows.
-/

namespace Mtproto.Streams

open Bytes

/-! ## Values and calls -/

/-- A value of a stream, over the strings `σ` of the language. -/
inductive Value (σ : Type)
  | int32 (x : BitVec 32)
  | int64 (x : BitVec 64)
  | bool (x : Bool)
  | bytes (b : List UInt8)
  | byteArray (b : List UInt8)
  | string (s : σ)
deriving DecidableEq, Repr

/-- The read that matches a write; the number of raw bytes is known to the caller. -/
inductive Call
  | int32
  | int64
  | bool
  | bytes (length : ℕ)
  | byteArray
  | string
deriving DecidableEq, Repr

namespace Value

variable {σ τ : Type}

def call : Value σ → Call
  | .int32 _ => .int32
  | .int64 _ => .int64
  | .bool _ => .bool
  | .bytes b => .bytes b.length
  | .byteArray _ => .byteArray
  | .string _ => .string

/-- The same value with its string in another representation. -/
def map (f : σ → τ) : Value σ → Value τ
  | .int32 x => .int32 x
  | .int64 x => .int64 x
  | .bool x => .bool x
  | .bytes b => .bytes b
  | .byteArray b => .byteArray b
  | .string s => .string (f s)

end Value

/-! ## Sequences -/

section Sequences

variable {V W S : Type}

/-- The writes of a sequence of values. -/
def writeAll (write : V → W → W) (values : List V) (w : W) : W :=
  values.foldl (fun w v => write v w) w

/-- The reads of a sequence of values, up to the first that returns none. -/
def readAll (read : Call → S → Option V × S) : List Call → S → Option (List V) × S
  | [], s => (some [], s)
  | call :: calls, s =>
      match read call s with
      | (none, s) => (none, s)
      | (some v, s) =>
          match readAll read calls s with
          | (none, s) => (none, s)
          | (some vs, s) => (some (v :: vs), s)

end Sequences

/-! ## The native buffer -/

namespace Native

open Tgnet

def write : Value (List UInt8) → Output → Output
  | .int32 x => Output.writeInt32 x
  | .int64 x => Output.writeInt64 x
  | .bool x => Output.writeBool x
  | .bytes b => Output.writeBytes b
  | .byteArray b => Output.writeByteArray b
  | .string s => Output.writeString s

def read : Call → Input → Option (Value (List UInt8)) × Input
  | .int32, s => (Input.readInt32 s).map (fun x => some (.int32 x)) id
  | .int64, s => (Input.readInt64 s).map (fun x => some (.int64 x)) id
  | .bool, s => (Input.readBool s).map (fun x => some (.bool x)) id
  | .bytes length, s => (Input.readBytes length s).map (Option.map .bytes) id
  | .byteArray, s => (Input.readByteArray s).map (Option.map .byteArray) id
  | .string, s => (Input.readString s).map (fun b => some (.string b)) id

/-- The bytes of a call. -/
def spell : Value (List UInt8) → List UInt8
  | .int32 x => toLE 4 x.toNat
  | .int64 x => toLE 8 x.toNat
  | .bool x => toLE 4 (if x then 0x997275b5 else 0xbc799737)
  | .bytes b => b
  | .byteArray b => Output.framed b
  | .string s => Output.framed s

/-- The bytes of a sequence of calls. -/
def spellAll (calls : List (Value (List UInt8))) : List UInt8 := calls.flatMap spell

theorem spellAll_cons (v : Value (List UInt8)) (calls : List (Value (List UInt8))) :
    spellAll (v :: calls) = spell v ++ spellAll calls :=
  List.flatMap_cons

theorem spellAll_append (calls more : List (Value (List UInt8))) :
    spellAll (calls ++ more) = spellAll calls ++ spellAll more :=
  List.flatMap_append

@[simp] theorem spellAll_nil : spellAll [] = [] := rfl

@[simp] theorem length_spell_int32 (x : BitVec 32) : (spell (.int32 x)).length = 4 :=
  length_toLE 4 _

@[simp] theorem length_spell_int64 (x : BitVec 64) : (spell (.int64 x)).length = 8 :=
  length_toLE 8 _

/-- One write. -/
theorem write_spell {v : Value (List UInt8)} {o : Output} (h : o.Room (spell v).length) :
    write v o = o.wrote (spell v) := by
  cases v with
  | int32 x => exact Output.writeInt32_wrote (by simpa [spell] using h)
  | int64 x => exact Output.writeInt64_wrote (by simpa [spell] using h)
  | bool x => exact Output.writeBool_wrote (by simpa only [spell, length_toLE] using h)
  | bytes b => exact Output.writeBytes_wrote h
  | byteArray b => exact Output.writeByteArray_wrote h
  | string s => exact Output.writeByteArray_wrote h

/-- A sequence of writes. -/
theorem writeAll_spell {calls : List (Value (List UInt8))} {o : Output}
    (h : o.Room (spellAll calls).length) : writeAll write calls o = o.wrote (spellAll calls) := by
  induction calls generalizing o with
  | nil => simp [writeAll, spellAll, Output.wrote]
  | cons v calls ih =>
    rw [spellAll_cons, List.length_append] at h
    have hv := write_spell (h.mono (Nat.le_add_right _ _))
    show writeAll write calls (write v o) = _
    rw [hv, ih h.wrote, Output.wrote_wrote h, spellAll_cons]

/-- One write in size-calculation mode. -/
theorem write_counted {v : Value (List UInt8)} {o : Output} (h : o.calculateSizeOnly = true) :
    write v o = o.counted (spell v).length := by
  cases v with
  | int32 x => rw [write, Output.writeInt32_counted h, spell, length_toLE]
  | int64 x => rw [write, Output.writeInt64_counted h, spell, length_toLE]
  | bool x => rw [write, Output.writeBool_counted h, spell, length_toLE]
  | bytes b => exact Output.writeBytes_counted h
  | byteArray b => exact Output.writeByteArray_counted h
  | string s => exact Output.writeByteArray_counted h

/-- A sequence of writes in size-calculation mode. -/
theorem writeAll_counted {calls : List (Value (List UInt8))} {o : Output}
    (h : o.calculateSizeOnly = true) (hcapacity : o.buffer.capacity < 2 ^ 32) :
    writeAll write calls o = o.counted (spellAll calls).length := by
  induction calls generalizing o with
  | nil => exact (Output.counted_zero hcapacity).symm
  | cons v calls ih =>
    have hcounted : (o.counted (spell v).length).buffer.capacity < 2 ^ 32 :=
      Nat.mod_lt _ (by decide)
    show writeAll write calls (write v o) = _
    rw [write_counted h, ih (o := o.counted _) h hcounted, Output.counted_counted, spellAll_cons,
      List.length_append]

/-! ### Readers -/

/-- The reader finds `data`, returns `a` and leaves what follows. -/
def Parses {α : Type} (r : Reader α) (data : List UInt8) (a : α) : Prop :=
  ∀ s rest, Input.Ahead s data rest → r s = (a, s.advance data.length)

section Parses

variable {α β : Type} {data more : List UInt8}

theorem parses_pure (a : α) : Parses (pure a) [] a := fun _ _ _ => rfl

theorem Parses.bind {r : Reader α} {f : α → Reader β} {a : α} {b : β} (hr : Parses r data a)
    (hf : Parses (f a) more b) : Parses (r >>= f) (data ++ more) b := by
  intro s rest h
  have hmore : (s.advance data.length).Ahead more rest := h.split.next
  show f (r s).1 (r s).2 = _
  rw [hr s _ h.split, hf _ rest hmore, Input.advance_advance, List.length_append]

theorem Parses.map {r : Reader α} {a : α} (f : α → β) (hr : Parses r data a) :
    Parses (f <$> r) data (f a) := by
  intro s rest h
  show (f (r s).1, (r s).2) = _
  rw [hr s rest h]

theorem parses_int32 (x : BitVec 32) : Parses Input.readInt32 (spell (.int32 x)) x := by
  intro s rest h
  rw [Input.readInt32_of_ahead h, spell, length_toLE]

theorem parses_int64 (x : BitVec 64) : Parses Input.readInt64 (spell (.int64 x)) x := by
  intro s rest h
  rw [Input.readInt64_of_ahead h, spell, length_toLE]

theorem parses_bool (x : Bool) : Parses Input.readBool (spell (.bool x)) x := by
  intro s rest h
  rw [Input.readBool_of_ahead h, spell, length_toLE]

theorem parses_bytes (b : List UInt8) :
    Parses (Input.readBytes b.length) (spell (.bytes b)) (some b) :=
  fun _ _ h => Input.readBytes_of_ahead h

theorem parses_byteArray {b : List UInt8} (hb : b.length < 2 ^ 24) :
    Parses Input.readByteArray (spell (.byteArray b)) (some b) :=
  fun _ _ h => Input.readByteArray_of_ahead h hb

theorem parses_string {b : List UInt8} (hb : b.length < 2 ^ 24) :
    Parses Input.readString (spell (.string b)) b :=
  fun _ _ h => Input.readString_of_ahead h hb

/-- A counted loop of reads. -/
def readMany (r : Reader α) : ℕ → Reader (List α)
  | 0 => pure []
  | n + 1 => do
      let a ← r
      let as ← readMany r n
      pure (a :: as)

theorem parses_readMany {r : Reader α} {f : β → List UInt8} {g : β → α} {bs : List β}
    (h : ∀ b ∈ bs, Parses r (f b) (g b)) :
    Parses (readMany r bs.length) (bs.flatMap f) (bs.map g) := by
  induction bs with
  | nil => exact parses_pure []
  | cons b bs ih =>
    have hbs := ih fun b hb => h b (by simp [hb])
    have hb := h b (by simp)
    rw [List.flatMap_cons]
    refine hb.bind ?_
    rw [← List.append_nil (bs.flatMap f)]
    exact hbs.bind (parses_pure _)

end Parses

end Native

end Mtproto.Streams
