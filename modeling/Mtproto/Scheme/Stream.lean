import Mtproto.Lib.Relational
import Mtproto.Streams.Native

/-!
# The stream that is parsed

The parsers of `MTProtoScheme.cpp` and `ApiScheme.cpp` read a `NativeByteBuffer` and share an error
flag, which they set and then read on.  A `Scan` is such a parser; it is cut short where the source
returns in the middle of `readParams`.  Two things are written down for the statements and never
read by a parser: how far the parsers have looked at the bytes (`reach`), and what each round of the
loop over the messages of a container did (`iterations`).
-/

namespace Mtproto.Scheme

open Lib Lib.Interruptible Tgnet Bytes

/-- One round of the loop in `TL_msg_container::readParams`: where the loop began and the number of
the round, where the message starts and how long it says its body is, whether the parser relies on
that length, and how the round ends. -/
structure Iteration where
  first : ℕ
  index : ℕ
  start : ℕ
  bytes : ℕ
  relied : Bool
  stop : ℕ
  error : Bool
deriving DecidableEq, Repr

/-- The buffer and the flag behind `bool &error`. -/
structure Stream extends Input where
  reach : ℕ := 0
  iterations : List Iteration := []
deriving DecidableEq, Repr

/-- A `NativeByteBuffer` over bytes of the stream: where they are, how many there should be, and
those of them that there are. -/
structure Slice where
  offset : ℕ
  length : ℕ
  content : List UInt8
deriving DecidableEq, Repr

/-- A parser of one object. -/
abbrev Scan (α : Type) := Interruptible Stream α

namespace Scan

/-! ## Reading -/

/-- Reads, after having looked at the bytes before `look`. -/
def scan {α : Type} (look : Input → ℕ) (read : Reader α) : Scan α := fun s =>
  (some (read s.toInput).1,
    { s with toInput := (read s.toInput).2, reach := max s.reach (look s.toInput) })

/-- A word is looked at when it fits. -/
def lookWord (width : ℕ) (s : Input) : ℕ :=
  if u32 (s.buffer.position + width) > s.buffer.limit then 0 else s.buffer.position + width

/-- The bytes of a framed read are looked at when they fit. -/
def lookFrameBody (l sl : ℕ) (s : Input) : ℕ :=
  match (Input.frameBody l sl s).1 with
  | none => 0
  | some (offset, length) => offset + length

/-- How far a framed read looks: at its length, and at its bytes. -/
def lookFrame (s : Input) : ℕ :=
  if u32 (s.buffer.position + 1) > s.buffer.limit then 0
  else
    max (s.buffer.position + 1)
      (if leNat (s.ahead 1) ≥ 254 then
        if u32 ((s.step 1).buffer.position + 3) > s.buffer.limit then 0
        else
          max ((s.step 1).buffer.position + 3)
            (lookFrameBody (leNat ((s.step 1).ahead 3)) 4 ((s.step 1).step 3))
      else lookFrameBody (leNat (s.ahead 1)) 1 (s.step 1))

def readInt32 : Scan (BitVec 32) := scan (lookWord 4) Input.readInt32

/-- `readUint32`, as a number. -/
def readUint32 : Scan ℕ := scan (lookWord 4) (Input.word 4)

def readInt64 : Scan (BitVec 64) := scan (lookWord 8) Input.readInt64

def readBool : Scan Bool := scan (lookWord 4) Input.readBool

def readString : Scan (List UInt8) := scan lookFrame Input.readString

def readByteArray : Scan (Option (List UInt8)) := scan lookFrame Input.readByteArray

/-- The bytes of `readBytes` are looked at when they fit. -/
def lookBytes (length : ℕ) (s : Input) : ℕ :=
  if length > s.buffer.remaining then 0 else s.buffer.position + length

def readBytes (length : ℕ) : Scan (Option (List UInt8)) :=
  scan (lookBytes length) (Input.readBytes length)

/-- `new NativeByteBuffer(stream->bytes() + offset, length)`. -/
def slice (offset length : ℕ) : Scan Slice := fun s =>
  (some ⟨offset, length, s.range (offset, length)⟩,
    { s with reach := max s.reach (offset + length) })

/-- The range of a framed read, as a buffer of its own. -/
def frameSlice : Reader (Option Slice) := fun s =>
  ((Input.frame s).1.map fun r => ⟨r.1, r.2, s.range r⟩, (Input.frame s).2)

def readByteBuffer : Scan (Option Slice) := scan lookFrame frameSlice

/-! ## Control -/

def position : Scan ℕ := fun s => (some s.buffer.position, s)

def limit : Scan ℕ := fun s => (some s.buffer.limit, s)

/-- `position(uint32_t)`. -/
def setPosition (p : ℕ) : Scan Unit :=
  fun s => (some (), { s with buffer := s.buffer.setPosition p })

/-- `skip`: a sum beyond the limit is ignored, and the sum wraps around. -/
def skip (length : ℕ) : Scan Unit := fun s =>
  (some (),
    if u32 (s.buffer.position + length) > s.buffer.limit then s
    else { s with toInput := s.toInput.step length })

def error : Scan Bool := fun s => (some s.error, s)

/-- `error = value`. -/
def setError (value : Bool) : Scan Unit := fun s => (some (), { s with error := value })

/-- `error = true`, and the function returns. -/
def failed {α : Type} : Scan α := fun s => (none, { s with error := true })

/-- A field that is there when its flag is set. -/
def flagged {α : Type} (present : Prop) [Decidable present] (m : Scan α) : Scan (Option α) :=
  if present then do
    let a ← m
    pure (some a)
  else pure none

/-- Writes a round of the loop down. -/
def record (it : Iteration) : Scan Unit := fun s =>
  (some (), { s with iterations := s.iterations ++ [it] })

end Scan

/-! ## Where the readers lead -/

namespace Stream

/-- A buffer with its invariant, so far below `2 ^ 32` that no read of the source wraps around.  The
frames of a connection are at most two megabytes, and unpacking makes at most a thousandfold of
one. -/
structure Sound (s : Stream) : Prop where
  wf : s.buffer.Wf
  room : s.buffer.limit + 2 ^ 24 + 8 ≤ 2 ^ 32

/-- The same bytes, read up to another position inside the limit. -/
structure Inside (s t : Stream) : Prop where
  buffer : t.buffer = { s.buffer with position := t.buffer.position }
  le_limit : t.buffer.position ≤ s.buffer.limit

theorem Inside.limit {s t : Stream} (h : s.Inside t) : t.buffer.limit = s.buffer.limit := by
  rw [h.buffer]

theorem Inside.sound {s t : Stream} (h : s.Inside t) (hs : s.Sound) : t.Sound := by
  have hcapacity : t.buffer.capacity = s.buffer.capacity := by rw [h.buffer]
  have hbytes : t.buffer.buffer = s.buffer.buffer := by rw [h.buffer]
  refine ⟨⟨?_, ?_, ?_, ?_⟩, ?_⟩
  · rw [h.limit]
    exact h.le_limit
  · rw [h.limit, hcapacity]
    exact hs.wf.limit_le
  · rw [hbytes, hcapacity]
    exact hs.wf.length_eq
  · rw [hcapacity]
    exact hs.wf.capacity_lt
  · rw [h.limit]
    exact hs.room

theorem Inside.trans {s t u : Stream} (hst : s.Inside t) (htu : t.Inside u) : s.Inside u := by
  refine ⟨?_, ?_⟩
  · rw [htu.buffer, hst.buffer]
  · rw [← hst.limit]
    exact htu.le_limit

/-- Reading has gone on: the position has moved ahead, and an error stays. -/
structure After (s t : Stream) : Prop extends s.Inside t where
  position_le : s.buffer.position ≤ t.buffer.position
  iterations : t.iterations = s.iterations
  error : s.error = true → t.error = true

theorem After.refl {s : Stream} (hs : s.Sound) : s.After s :=
  ⟨⟨rfl, hs.wf.position_le⟩, le_rfl, rfl, id⟩

theorem After.trans {s t u : Stream} (hst : s.After t) (htu : t.After u) : s.After u := by
  refine ⟨hst.toInside.trans htu.toInside, hst.position_le.trans htu.position_le, ?_, ?_⟩
  · rw [htu.iterations, hst.iterations]
  · exact fun herror => htu.error (hst.error herror)

/-- From a sound stream reading goes on. -/
def Onward (s t : Stream) : Prop := s.Sound → s.After t

instance : Std.Refl Onward := ⟨fun _ => After.refl⟩

instance : IsTrans Stream Onward :=
  ⟨fun _ _ _ hst htu hs => (hst hs).trans (htu ((hst hs).sound hs))⟩

end Stream

/-- A reader of the buffer that takes some bytes ahead of it. -/
def Takes {α : Type} (read : Reader α) : Prop :=
  ∀ s : Input, s.buffer.Wf → s.buffer.limit + 2 ^ 24 + 8 ≤ 2 ^ 32 →
    ∃ n, s.buffer.position + n ≤ s.buffer.limit ∧ (read s).2.buffer = s.buffer.advance n ∧
      (s.error = true → (read s).2.error = true)

section Takes

variable {α : Type}

theorem moves_scan {look : Input → ℕ} {read : Reader α} (h : Takes read) :
    Moves Stream.Onward (Scan.scan look read) := by
  constructor
  intro s hs
  obtain ⟨n, hn, hbuffer, herror⟩ := h s.toInput hs.wf hs.room
  have hlast : (Scan.scan look read s).2.buffer = s.buffer.advance n := hbuffer
  refine ⟨⟨?_, ?_⟩, ?_, rfl, herror⟩
  · rw [hlast]
    rfl
  · rw [hlast]
    exact hn
  · rw [hlast]
    exact Nat.le_add_right _ _

/-- A step that fits. -/
theorem step_eq_advance {s : Input} {n : ℕ} (hwf : s.buffer.Wf)
    (h : s.buffer.position + n ≤ s.buffer.limit) : s.step n = s.advance n := by
  have := hwf.limit_le
  have := hwf.capacity_lt
  simp only [Input.step, NativeByteBuffer.step, Input.advance, NativeByteBuffer.advance]
  rw [u32_of_lt (by omega)]

/-- A word is read, or it does not fit and the error is set. -/
theorem word_cases {s : Input} {width : ℕ} (hwf : s.buffer.Wf)
    (hroom : s.buffer.limit + 2 ^ 24 + 8 ≤ 2 ^ 32) (hwidth : width ≤ 8) :
    (s.buffer.position + width ≤ s.buffer.limit ∧
        (Input.word width s).2 = s.advance width) ∨
      (s.buffer.limit < s.buffer.position + width ∧ Input.word width s = (0, s.failed)) := by
  have := hwf.position_le
  have hsum : u32 (s.buffer.position + width) = s.buffer.position + width := u32_of_lt (by omega)
  unfold Input.word
  rw [hsum]
  split
  · rename_i hgt
    exact .inr ⟨hgt, rfl⟩
  · rename_i hle
    rw [step_eq_advance hwf (by omega)]
    exact .inl ⟨by omega, rfl⟩

theorem takes_word {width : ℕ} (hwidth : width ≤ 8) : Takes (Input.word width) := by
  intro s hwf hroom
  rcases word_cases hwf hroom hwidth with ⟨hle, hread⟩ | ⟨-, hread⟩
  · rw [hread]
    exact ⟨width, hle, rfl, id⟩
  · rw [hread]
    exact ⟨0, hwf.position_le, rfl, fun _ => rfl⟩

theorem takes_readInt32 : Takes Input.readInt32 :=
  fun s => takes_word (show 4 ≤ 8 by decide) s

theorem takes_readInt64 : Takes Input.readInt64 :=
  fun s => takes_word (show 8 ≤ 8 by decide) s

theorem takes_readBool : Takes Input.readBool := by
  intro s hwf hroom
  obtain ⟨n, hn, hbuffer, herror⟩ := takes_readInt32 s hwf hroom
  unfold Input.readBool
  rcases hread : Input.readInt32 s with ⟨c, t⟩
  rw [hread] at hbuffer herror
  dsimp only
  split
  · exact ⟨n, hn, hbuffer, herror⟩
  · split
    · exact ⟨n, hn, hbuffer, herror⟩
    · exact ⟨n, hn, hbuffer, fun _ => rfl⟩

theorem frameBody_takes {s : Input} {l : ℕ} (sl : ℕ) (hwf : s.buffer.Wf)
    (hroom : s.buffer.limit + 2 ^ 24 + 8 ≤ 2 ^ 32) (hl : l < 2 ^ 24) :
    ∃ n, s.buffer.position + n ≤ s.buffer.limit ∧
      (Input.frameBody l sl s).2.buffer = s.buffer.advance n ∧
      (s.error = true → (Input.frameBody l sl s).2.error = true) := by
  have := hwf.position_le
  unfold Input.frameBody
  dsimp only
  generalize haddition : (if u32 (l + sl) % 4 ≠ 0 then 4 - u32 (l + sl) % 4 else u32 (l + sl) % 4) =
    a
  have ha : a ≤ 4 := by
    rw [← haddition]
    split <;> omega
  rw [u32_of_lt (by omega)]
  split
  · exact ⟨0, by omega, rfl, fun _ => rfl⟩
  · rename_i hle
    rw [step_eq_advance hwf (by omega)]
    exact ⟨l + a, by omega, rfl, id⟩

theorem leNat_ahead_lt (s : Input) (n : ℕ) : leNat (s.ahead n) < 256 ^ n := by
  refine lt_of_lt_of_le (leNat_lt _) (Nat.pow_le_pow_right (by decide) ?_)
  exact List.length_take_le _ _

theorem takes_frame : Takes Input.frame := by
  intro s hwf hroom
  have := hwf.position_le
  unfold Input.frame
  rw [u32_of_lt (by omega)]
  split
  · exact ⟨0, by omega, rfl, fun _ => rfl⟩
  rename_i hone
  have hlength := leNat_ahead_lt s 1
  have hfirst : s.step 1 = s.advance 1 := step_eq_advance hwf (by omega)
  have hwf' : (s.advance 1).buffer.Wf := by
    refine hwf.advance ?_
    rw [NativeByteBuffer.length_unread hwf]
    omega
  dsimp only
  rw [hfirst]
  split
  · have hposition : (s.advance 1).buffer.position = s.buffer.position + 1 := rfl
    rw [hposition, u32_of_lt (by omega)]
    split
    · exact ⟨1, by omega, rfl, fun _ => rfl⟩
    · rename_i hthree
      have hthree : s.buffer.position + 1 + 3 ≤ s.buffer.limit := Nat.not_lt.1 hthree
      have hsecond : (s.advance 1).step 3 = s.advance 4 := step_eq_advance hwf' hthree
      have hwf'' : (s.advance 4).buffer.Wf := by
        refine hwf.advance ?_
        rw [NativeByteBuffer.length_unread hwf]
        omega
      rw [hsecond]
      obtain ⟨n, hn, hbuffer, herror⟩ :=
        frameBody_takes 4 hwf'' hroom (leNat_ahead_lt (s.advance 1) 3)
      refine ⟨4 + n, ?_, ?_, herror⟩
      · have hn' : s.buffer.position + 4 + n ≤ s.buffer.limit := hn
        omega
      · rw [hbuffer]
        exact NativeByteBuffer.advance_advance 4 n
  · obtain ⟨n, hn, hbuffer, herror⟩ :=
      frameBody_takes 1 hwf' hroom (show leNat (s.ahead 1) < 2 ^ 24 by omega)
    refine ⟨1 + n, ?_, ?_, herror⟩
    · have hn' : s.buffer.position + 1 + n ≤ s.buffer.limit := hn
      omega
    · rw [hbuffer]
      exact NativeByteBuffer.advance_advance 1 n

theorem takes_readString : Takes Input.readString := fun s => takes_frame s

theorem takes_readByteArray : Takes Input.readByteArray := fun s => takes_frame s

theorem takes_frameSlice : Takes Scan.frameSlice := fun s => takes_frame s

theorem remaining_eq_sub {s : Input} (hwf : s.buffer.Wf) :
    s.buffer.remaining = s.buffer.limit - s.buffer.position := by
  rw [NativeByteBuffer.remaining_eq hwf, NativeByteBuffer.length_unread hwf]

theorem takes_readBytes (length : ℕ) : Takes (Input.readBytes length) := by
  intro s hwf room
  have := hwf.position_le
  unfold Input.readBytes
  rw [remaining_eq_sub hwf]
  split
  · exact ⟨0, by omega, rfl, fun _ => rfl⟩
  · rw [step_eq_advance hwf (by omega)]
    exact ⟨length, by omega, rfl, id⟩


instance : Moves Stream.Onward Scan.readInt32 := moves_scan takes_readInt32

instance : Moves Stream.Onward Scan.readUint32 := moves_scan (takes_word (by decide))

instance : Moves Stream.Onward Scan.readInt64 := moves_scan takes_readInt64

instance : Moves Stream.Onward Scan.readBool := moves_scan takes_readBool

instance : Moves Stream.Onward Scan.readString := moves_scan takes_readString

instance : Moves Stream.Onward Scan.readByteArray := moves_scan takes_readByteArray

instance : Moves Stream.Onward Scan.readByteBuffer := moves_scan takes_frameSlice

instance (length : ℕ) : Moves Stream.Onward (Scan.readBytes length) :=
  moves_scan (takes_readBytes length)

instance : Moves Stream.Onward Scan.position := ⟨fun s => Std.Refl.refl s⟩

instance : Moves Stream.Onward Scan.limit := ⟨fun s => Std.Refl.refl s⟩

instance : Moves Stream.Onward Scan.error := ⟨fun s => Std.Refl.refl s⟩

theorem onward_error (s : Stream) : s.Onward { s with error := true } :=
  fun hs => ⟨⟨rfl, hs.wf.position_le⟩, le_rfl, rfl, fun _ => rfl⟩

instance : Moves Stream.Onward (Scan.setError true) := ⟨onward_error⟩

instance : Moves Stream.Onward (Scan.failed : Scan α) := ⟨onward_error⟩

instance {present : Prop} [Decidable present] {m : Scan α} [Moves Stream.Onward m] :
    Moves Stream.Onward (Scan.flagged present m) := by
  unfold Scan.flagged
  infer_instance

end Takes

/-! ## What the readers depend on -/

/-- The input over other bytes. -/
def onBytes (s : Input) (bytes : List UInt8) : Input :=
  { s with buffer := { s.buffer with buffer := bytes } }

namespace Stream

/-- The stream over other bytes, with other notes. -/
def onBytes (s : Stream) (bytes : List UInt8) (reach : ℕ) (iterations : List Iteration) : Stream :=
  { toInput := Scheme.onBytes s.toInput bytes, reach, iterations }

/-- Two streams that differ at most in their bytes from `e` on and in what is written down. -/
def Agree (e : ℕ) (s t : Stream) : Prop :=
  ∃ bytes reach iterations, bytes.take e = s.buffer.buffer.take e ∧
    bytes.length = s.buffer.buffer.length ∧ t = s.onBytes bytes reach iterations

/-- The parsers have not looked at the bytes from `e` on. -/
def Within (e : ℕ) (s : Stream) : Prop := s.reach ≤ e

end Stream

/-- A reader whose result depends on the bytes before `look` only. -/
def Sees {α : Type} (look : Input → ℕ) (read : Reader α) : Prop :=
  ∀ (s : Input) (bytes : List UInt8) (e : ℕ), look s ≤ e →
    bytes.take e = s.buffer.buffer.take e →
    read (onBytes s bytes) = ((read s).1, onBytes (read s).2 bytes) ∧
      look (onBytes s bytes) = look s ∧
      (read s).2.buffer.buffer = s.buffer.buffer

section Sees

variable {α : Type} {e : ℕ}

theorem blind_scan {look : Input → ℕ} {read : Reader α} (h : Sees look read) :
    Blind (Stream.Agree e) (Stream.Within e) (Scan.scan look read) := by
  constructor
  · rintro s _ ⟨bytes, reach, iterations, htake, hlength, rfl⟩ hW
    have hlook : look s.toInput ≤ e := (le_max_right _ _).trans hW
    obtain ⟨hread, hsame, hbytes⟩ := h s.toInput bytes e hlook htake
    have hrun : Scan.scan look read (s.onBytes bytes reach iterations) =
        ((Scan.scan look read s).1,
          (Scan.scan look read s).2.onBytes bytes (max reach (look s.toInput)) iterations) := by
      show (some (read (onBytes s.toInput bytes)).1, _) = _
      simp only [Scan.scan, Stream.onBytes, hread, hsame]
    rw [hrun]
    refine ⟨rfl, bytes, _, _, ?_, ?_, rfl⟩
    · show _ = (read s.toInput).2.buffer.buffer.take e
      rw [hbytes, htake]
    · show _ = (read s.toInput).2.buffer.buffer.length
      rw [hbytes, hlength]
  · intro s hW
    exact (le_max_left _ _).trans hW

/-- Bytes before `e` are the same. -/
theorem range_congr {xs ys : List UInt8} (h : ys.take e = xs.take e) {p n : ℕ} (hle : p + n ≤ e) :
    (ys.drop p).take n = (xs.drop p).take n := by
  have htake : ∀ zs : List UInt8, (zs.drop p).take n = ((zs.take e).drop p).take n := by
    intro zs
    rw [List.drop_take, List.take_take, Nat.min_eq_left (by omega)]
  rw [htake ys, htake xs, h]

theorem sees_word (width : ℕ) : Sees (Scan.lookWord width) (Input.word width) := by
  intro s bytes e hlook htake
  have hsum : (onBytes s bytes).buffer.position = s.buffer.position := rfl
  have hlimit : (onBytes s bytes).buffer.limit = s.buffer.limit := rfl
  unfold Scan.lookWord at hlook ⊢
  unfold Input.word
  rw [hsum, hlimit]
  split
  · exact ⟨rfl, rfl, rfl⟩
  · rename_i hle
    rw [if_neg hle] at hlook
    have hahead : (onBytes s bytes).ahead width = s.ahead width := range_congr htake hlook
    rw [hahead]
    exact ⟨rfl, rfl, rfl⟩

theorem sees_readBytes (length : ℕ) : Sees (Scan.lookBytes length) (Input.readBytes length) := by
  intro s bytes e hlook htake
  have hremaining : (onBytes s bytes).buffer.remaining = s.buffer.remaining := rfl
  unfold Scan.lookBytes at hlook ⊢
  unfold Input.readBytes
  rw [hremaining]
  split
  · exact ⟨rfl, rfl, rfl⟩
  · rename_i hle
    rw [if_neg hle] at hlook
    have hahead : (onBytes s bytes).ahead length = s.ahead length := range_congr htake hlook
    rw [hahead]
    exact ⟨rfl, rfl, rfl⟩

theorem sees_readInt32 : Sees (Scan.lookWord 4) Input.readInt32 := by
  intro s bytes e hlook htake
  obtain ⟨hread, hsame, hbytes⟩ := sees_word 4 s bytes e hlook htake
  refine ⟨?_, hsame, hbytes⟩
  unfold Input.readInt32
  rw [hread]
  rfl

theorem sees_readInt64 : Sees (Scan.lookWord 8) Input.readInt64 := by
  intro s bytes e hlook htake
  obtain ⟨hread, hsame, hbytes⟩ := sees_word 8 s bytes e hlook htake
  refine ⟨?_, hsame, hbytes⟩
  unfold Input.readInt64
  rw [hread]
  rfl

theorem sees_readBool : Sees (Scan.lookWord 4) Input.readBool := by
  intro s bytes e hlook htake
  obtain ⟨hread, hsame, hbytes⟩ := sees_readInt32 s bytes e hlook htake
  unfold Input.readBool
  rw [hread]
  rcases hrun : Input.readInt32 s with ⟨c, t⟩
  rw [hrun] at hbytes
  refine ⟨?_, hsame, ?_⟩
  · dsimp only
    split
    · rfl
    · split <;> rfl
  · dsimp only
    split
    · exact hbytes
    · split <;> exact hbytes

theorem frameBody_over (l sl : ℕ) (s : Input) (bytes : List UInt8) :
    Input.frameBody l sl (onBytes s bytes) =
      ((Input.frameBody l sl s).1, onBytes (Input.frameBody l sl s).2 bytes) := by
  unfold Input.frameBody
  have hsum : (onBytes s bytes).buffer.position = s.buffer.position := rfl
  have hlimit : (onBytes s bytes).buffer.limit = s.buffer.limit := rfl
  dsimp only
  generalize (if u32 (l + sl) % 4 ≠ 0 then 4 - u32 (l + sl) % 4 else u32 (l + sl) % 4) = a
  rw [hsum, hlimit]
  split
  · rfl
  · rfl

theorem frameBody_bytes (l sl : ℕ) (s : Input) :
    (Input.frameBody l sl s).2.buffer.buffer = s.buffer.buffer := by
  unfold Input.frameBody
  dsimp only
  generalize (if u32 (l + sl) % 4 ≠ 0 then 4 - u32 (l + sl) % 4 else u32 (l + sl) % 4) = a
  split <;> rfl

theorem lookFrameBody_over (l sl : ℕ) (s : Input) (bytes : List UInt8) :
    Scan.lookFrameBody l sl (onBytes s bytes) = Scan.lookFrameBody l sl s := by
  unfold Scan.lookFrameBody
  rw [frameBody_over]

theorem sees_frame : Sees Scan.lookFrame Input.frame := by
  intro s bytes e hlook htake
  have hposition : (onBytes s bytes).buffer.position = s.buffer.position := rfl
  have hlimit : (onBytes s bytes).buffer.limit = s.buffer.limit := rfl
  have hstep : (onBytes s bytes).step 1 = onBytes (s.step 1) bytes := rfl
  unfold Scan.lookFrame at hlook ⊢
  unfold Input.frame
  rw [hposition, hlimit, hstep]
  split
  · exact ⟨rfl, rfl, rfl⟩
  rename_i hone
  rw [if_neg hone] at hlook
  have hlength : (onBytes s bytes).ahead 1 = s.ahead 1 :=
    range_congr htake ((le_max_left _ _).trans hlook)
  replace hlook := (le_max_right _ _).trans hlook
  dsimp only
  rw [hlength]
  split
  · rename_i hlong
    rw [if_pos hlong] at hlook
    have hposition' : (onBytes (s.step 1) bytes).buffer.position = (s.step 1).buffer.position := rfl
    have hlimit' : (s.step 1).buffer.limit = s.buffer.limit := rfl
    have hlimit'' : (onBytes (s.step 1) bytes).buffer.limit = s.buffer.limit := rfl
    have hstep' : (onBytes (s.step 1) bytes).step 3 = onBytes ((s.step 1).step 3) bytes := rfl
    rw [hposition', hlimit', hlimit'', hstep']
    split
    · exact ⟨rfl, rfl, rfl⟩
    · rename_i hthree
      rw [if_neg hthree] at hlook
      have hlength' : (onBytes (s.step 1) bytes).ahead 3 = (s.step 1).ahead 3 :=
        range_congr htake ((le_max_left _ _).trans hlook)
      rw [hlength', frameBody_over, lookFrameBody_over]
      exact ⟨rfl, rfl, frameBody_bytes _ _ _⟩
  · rw [frameBody_over, lookFrameBody_over]
    exact ⟨rfl, rfl, frameBody_bytes _ _ _⟩

/-- The bytes that a framed read finds lie before `lookFrame`. -/
theorem frame_le_lookFrame {s : Input} {offset length : ℕ}
    (h : (Input.frame s).1 = some (offset, length)) : offset + length ≤ Scan.lookFrame s := by
  have hbody : ∀ {l sl : ℕ} {t : Input}, (Input.frameBody l sl t).1 = some (offset, length) →
      Scan.lookFrameBody l sl t = offset + length := by
    intro l sl t ht
    unfold Scan.lookFrameBody
    rw [ht]
  unfold Input.frame at h
  unfold Scan.lookFrame
  split at h
  · cases h
  rename_i hone
  rw [if_neg hone]
  refine le_trans ?_ (le_max_right _ _)
  dsimp only at h
  split at h
  · rename_i hlong
    rw [if_pos hlong]
    split at h
    · cases h
    · rename_i hthree
      rw [if_neg (show ¬ u32 ((s.step 1).buffer.position + 3) > s.buffer.limit from hthree)]
      exact (hbody h).ge.trans (le_max_right _ _)
  · rename_i hlong
    rw [if_neg hlong]
    exact (hbody h).ge

/-- The bytes themselves are then the same. -/
theorem range_over {s : Input} {bytes : List UInt8} (hlook : Scan.lookFrame s ≤ e)
    (htake : bytes.take e = s.buffer.buffer.take e) :
    (Input.frame s).1.map (onBytes s bytes).range = (Input.frame s).1.map s.range := by
  rcases hframe : (Input.frame s).1 with _ | ⟨offset, length⟩
  · rfl
  · have hle := (frame_le_lookFrame hframe).trans hlook
    exact congrArg some (range_congr htake hle)

theorem sees_readString : Sees Scan.lookFrame Input.readString := by
  intro s bytes e hlook htake
  obtain ⟨hread, hsame, hbytes⟩ := sees_frame s bytes e hlook htake
  refine ⟨?_, hsame, hbytes⟩
  unfold Input.readString
  rw [hread]
  dsimp only
  rw [range_over hlook htake]
  rfl

theorem sees_readByteArray : Sees Scan.lookFrame Input.readByteArray := by
  intro s bytes e hlook htake
  obtain ⟨hread, hsame, hbytes⟩ := sees_frame s bytes e hlook htake
  refine ⟨?_, hsame, hbytes⟩
  unfold Input.readByteArray
  rw [hread]
  dsimp only
  rw [range_over hlook htake]
  rfl

theorem sees_frameSlice : Sees Scan.lookFrame Scan.frameSlice := by
  intro s bytes e hlook htake
  obtain ⟨hread, hsame, hbytes⟩ := sees_frame s bytes e hlook htake
  refine ⟨?_, hsame, hbytes⟩
  unfold Scan.frameSlice
  rw [hread]
  dsimp only
  rcases hframe : (Input.frame s).1 with _ | ⟨offset, length⟩
  · rfl
  · have hle := (frame_le_lookFrame hframe).trans hlook
    have hrange : (onBytes s bytes).range (offset, length) = s.range (offset, length) :=
      range_congr htake hle
    simp only [Option.map_some, hrange]

instance : Blind (Stream.Agree e) (Stream.Within e) Scan.readInt32 := blind_scan sees_readInt32

instance : Blind (Stream.Agree e) (Stream.Within e) Scan.readUint32 := blind_scan (sees_word 4)

instance : Blind (Stream.Agree e) (Stream.Within e) Scan.readInt64 := blind_scan sees_readInt64

instance : Blind (Stream.Agree e) (Stream.Within e) Scan.readBool := blind_scan sees_readBool

instance : Blind (Stream.Agree e) (Stream.Within e) Scan.readString := blind_scan sees_readString

instance : Blind (Stream.Agree e) (Stream.Within e) Scan.readByteArray :=
  blind_scan sees_readByteArray

instance (length : ℕ) : Blind (Stream.Agree e) (Stream.Within e) (Scan.readBytes length) :=
  blind_scan (sees_readBytes length)

instance : Blind (Stream.Agree e) (Stream.Within e) Scan.readByteBuffer :=
  blind_scan sees_frameSlice

/-- The bytes that are handed out count as looked at. -/
instance (offset length : ℕ) :
    Blind (Stream.Agree e) (Stream.Within e) (Scan.slice offset length) := by
  constructor
  · rintro s _ ⟨bytes, reach, iterations, htake, hlength, rfl⟩ hW
    have hle : offset + length ≤ e := (le_max_right _ _).trans hW
    have hrange : (s.onBytes bytes reach iterations).range (offset, length) =
        s.range (offset, length) :=
      range_congr htake hle
    refine ⟨?_, bytes, max reach (offset + length), iterations, htake, hlength, rfl⟩
    unfold Scan.slice
    rw [hrange]
  · intro s hW
    exact (le_max_left _ _).trans hW

/-! ### Control -/

/-- A step that does not look at the bytes. -/
theorem blind_control {m : Scan α} (hbytes : ∀ s, (m s).2.buffer.buffer = s.buffer.buffer)
    (hreach : ∀ s, (m s).2.reach = s.reach)
    (h : ∀ s bytes reach iterations, ∃ reach' iterations',
      m (s.onBytes bytes reach iterations) = ((m s).1, (m s).2.onBytes bytes reach' iterations')) :
    Blind (Stream.Agree e) (Stream.Within e) m := by
  constructor
  · rintro s _ ⟨bytes, reach, iterations, htake, hlength, rfl⟩ -
    obtain ⟨reach', iterations', hrun⟩ := h s bytes reach iterations
    rw [hrun]
    exact ⟨rfl, bytes, reach', iterations', by rw [hbytes, htake], by rw [hbytes, hlength], rfl⟩
  · intro s hW
    rwa [Stream.Within, hreach] at hW

instance : Blind (Stream.Agree e) (Stream.Within e) Scan.position :=
  blind_control (fun _ => rfl) (fun _ => rfl) fun _ _ _ _ => ⟨_, _, rfl⟩

instance : Blind (Stream.Agree e) (Stream.Within e) Scan.limit :=
  blind_control (fun _ => rfl) (fun _ => rfl) fun _ _ _ _ => ⟨_, _, rfl⟩

instance : Blind (Stream.Agree e) (Stream.Within e) Scan.error :=
  blind_control (fun _ => rfl) (fun _ => rfl) fun _ _ _ _ => ⟨_, _, rfl⟩

instance (value : Bool) : Blind (Stream.Agree e) (Stream.Within e) (Scan.setError value) :=
  blind_control (fun _ => rfl) (fun _ => rfl) fun _ _ _ _ => ⟨_, _, rfl⟩

instance : Blind (Stream.Agree e) (Stream.Within e) (Scan.failed : Scan α) :=
  blind_control (fun _ => rfl) (fun _ => rfl) fun _ _ _ _ => ⟨_, _, rfl⟩

instance (it : Iteration) : Blind (Stream.Agree e) (Stream.Within e) (Scan.record it) :=
  blind_control (fun _ => rfl) (fun _ => rfl) fun _ _ _ _ => ⟨_, _, rfl⟩

instance (p : ℕ) : Blind (Stream.Agree e) (Stream.Within e) (Scan.setPosition p) := by
  have hbytes : ∀ b : NativeByteBuffer, (b.setPosition p).buffer = b.buffer := by
    intro b
    unfold NativeByteBuffer.setPosition
    split <;> rfl
  refine blind_control (fun _ => hbytes _) (fun _ => rfl) ?_
  intro s bytes reach iterations
  have hover : (s.onBytes bytes reach iterations).buffer.setPosition p =
      { s.buffer.setPosition p with buffer := bytes } := by
    unfold NativeByteBuffer.setPosition
    show (if p > s.buffer.limit then _ else _) = _
    split <;> rfl
  refine ⟨reach, iterations, ?_⟩
  unfold Scan.setPosition
  rw [hover]
  rfl

instance (length : ℕ) : Blind (Stream.Agree e) (Stream.Within e) (Scan.skip length) := by
  refine blind_control ?_ ?_ ?_
  · intro s
    unfold Scan.skip
    dsimp only
    split <;> rfl
  · intro s
    unfold Scan.skip
    dsimp only
    split <;> rfl
  · intro s bytes reach iterations
    refine ⟨reach, iterations, ?_⟩
    have hposition : (s.onBytes bytes reach iterations).buffer.position = s.buffer.position := rfl
    have hlimit : (s.onBytes bytes reach iterations).buffer.limit = s.buffer.limit := rfl
    unfold Scan.skip
    rw [hposition, hlimit]
    dsimp only
    split <;> rfl

instance {present : Prop} [Decidable present] {m : Scan α}
    [Blind (Stream.Agree e) (Stream.Within e) m] :
    Blind (Stream.Agree e) (Stream.Within e) (Scan.flagged present m) := by
  unfold Scan.flagged
  infer_instance

end Sees

end Mtproto.Scheme
