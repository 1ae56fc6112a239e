import Mtproto.Scheme.Deserialize

/-!
# How far the readers look

Every read of the buffer checks the limit first, so that a parser made of reads looks at no byte
behind the limit.  A read that returns a null pointer has set the error, and an error stays.
-/

namespace Mtproto.Scheme

open Lib Lib.Interruptible Tgnet Bytes Scan

/-! ## Reads stay before the limit -/

/-- The stream is read on, and not beyond the limit. -/
def Stream.Confined (s t : Stream) : Prop :=
  s.Sound → s.After t ∧ (s.reach ≤ s.buffer.limit → t.reach ≤ s.buffer.limit)

instance : Std.Refl Stream.Confined := ⟨fun _ hs => ⟨Stream.After.refl hs, id⟩⟩

instance : IsTrans Stream Stream.Confined := by
  constructor
  intro s t u first second hs
  obtain ⟨after, confined⟩ := first hs
  obtain ⟨after', confined'⟩ := second (after.toInside.sound hs)
  refine ⟨after.trans after', ?_⟩
  intro reach
  rw [after.toInside.limit] at confined'
  exact confined' (confined reach)

section Confined

variable {α : Type} {s : Input} {l sl n : ℕ}

/-- A reader that takes bytes, looking at none behind the limit. -/
theorem confined_scan {look : Input → ℕ} {read : Reader α} (takes : Takes read)
    (le_limit : ∀ s : Input, s.buffer.Wf → s.buffer.limit + 2 ^ 24 + 8 ≤ 2 ^ 32 →
      look s ≤ s.buffer.limit) :
    Moves Stream.Confined (scan look read) := by
  have moves : Moves Stream.Onward (scan look read) := moves_scan takes
  constructor
  intro s hs
  refine ⟨moves.moves s hs, ?_⟩
  intro reach
  exact Nat.max_le.2 ⟨reach, le_limit s.toInput hs.wf hs.room⟩

theorem lookWord_le (width : ℕ) (wide : width ≤ 8) (hwf : s.buffer.Wf)
    (room : s.buffer.limit + 2 ^ 24 + 8 ≤ 2 ^ 32) : lookWord width s ≤ s.buffer.limit := by
  have := hwf.position_le
  have sum : u32 (s.buffer.position + width) = s.buffer.position + width := u32_of_lt (by omega)
  rw [lookWord, sum]
  split <;> omega

theorem lookBytes_le (length : ℕ) (hwf : s.buffer.Wf) : lookBytes length s ≤ s.buffer.limit := by
  have := hwf.position_le
  rw [lookBytes, remaining_eq_sub hwf]
  split <;> omega

/-- The two ends of the second half of a framed read. -/
theorem frameBody_eq (l sl : ℕ) (s : Input) : ∃ a ≤ 4, Input.frameBody l sl s =
    if u32 (s.buffer.position + l + a) > s.buffer.limit then (none, s.failed)
    else (some (s.buffer.position, l), s.step (l + a)) := by
  refine ⟨if u32 (l + sl) % 4 ≠ 0 then 4 - u32 (l + sl) % 4 else u32 (l + sl) % 4, ?_, rfl⟩
  split <;> omega

theorem lookFrameBody_le (hwf : s.buffer.Wf) (room : s.buffer.limit + 2 ^ 24 + 8 ≤ 2 ^ 32)
    (short : l < 2 ^ 24) :
    lookFrameBody l sl s ≤ s.buffer.limit := by
  have := hwf.position_le
  obtain ⟨a, few, eq⟩ := frameBody_eq l sl s
  unfold lookFrameBody
  rw [eq, u32_of_lt (by omega)]
  by_cases beyond : s.buffer.position + l + a > s.buffer.limit
  · rw [if_pos beyond]
    exact Nat.zero_le _
  · rw [if_neg beyond]
    dsimp only
    omega

theorem lookFrame_le (hwf : s.buffer.Wf) (room : s.buffer.limit + 2 ^ 24 + 8 ≤ 2 ^ 32) :
    lookFrame s ≤ s.buffer.limit := by
  have := hwf.position_le
  unfold lookFrame
  rw [u32_of_lt (by omega)]
  split
  · exact Nat.zero_le _
  rename_i one
  have first : s.step 1 = s.advance 1 := step_eq_advance hwf (by omega)
  have hwf' : (s.advance 1).buffer.Wf := by
    refine hwf.advance ?_
    rw [NativeByteBuffer.length_unread hwf]
    omega
  have position : (s.advance 1).buffer.position = s.buffer.position + 1 := rfl
  rw [first, position]
  refine Nat.max_le.2 ⟨by omega, ?_⟩
  split
  · rw [u32_of_lt (by omega)]
    split
    · exact Nat.zero_le _
    · rename_i three
      have three : s.buffer.position + 1 + 3 ≤ s.buffer.limit := Nat.not_lt.1 three
      have second : (s.advance 1).step 3 = s.advance 4 := step_eq_advance hwf' three
      have hwf'' : (s.advance 4).buffer.Wf := by
        refine hwf.advance ?_
        rw [NativeByteBuffer.length_unread hwf]
        omega
      rw [second]
      exact Nat.max_le.2 ⟨three, lookFrameBody_le hwf'' room (leNat_ahead_lt (s.advance 1) 3)⟩
  · have short := leNat_ahead_lt s 1
    exact lookFrameBody_le hwf' room (by omega)

end Confined

section Instances

variable {α : Type}

instance : Moves Stream.Confined readInt32 :=
  confined_scan takes_readInt32 fun _ => lookWord_le 4 (by decide)

instance : Moves Stream.Confined readUint32 :=
  confined_scan (takes_word (by decide)) fun _ => lookWord_le 4 (by decide)

instance : Moves Stream.Confined readByteArray :=
  confined_scan takes_readByteArray fun _ => lookFrame_le

instance (length : ℕ) : Moves Stream.Confined (Scan.readBytes length) :=
  confined_scan (takes_readBytes length) fun _ hwf _ => lookBytes_le length hwf

instance : Moves Stream.Confined (Scan.failed : Scan α) :=
  ⟨fun s hs => ⟨onward_error s hs, id⟩⟩

end Instances

/-! ## Null pointers -/

/-- A parser whose null pointer comes with an error. -/
class Reports {α : Type} (m : Scan (Option α)) : Prop where
  some_value : ∀ s, (m s).1 ≠ none
  reports : ∀ s, (m s).1 = some none → (m s).2.error = true

theorem readBytes_none {s : Input} {length : ℕ} (null : (Input.readBytes length s).1 = none) :
    (Input.readBytes length s).2.error = true := by
  by_cases long : length > s.buffer.remaining
  · rw [Input.readBytes, if_pos long]
    rfl
  · rw [Input.readBytes, if_neg long] at null
    cases null

theorem frameBody_none {s : Input} {l sl : ℕ} (null : (Input.frameBody l sl s).1 = none) :
    (Input.frameBody l sl s).2.error = true := by
  obtain ⟨a, -, eq⟩ := frameBody_eq l sl s
  rw [eq] at null ⊢
  by_cases beyond : u32 (s.buffer.position + l + a) > s.buffer.limit
  · rw [if_pos beyond]
    rfl
  · rw [if_neg beyond] at null
    cases null

theorem frame_none {s : Input} (null : (Input.frame s).1 = none) :
    (Input.frame s).2.error = true := by
  unfold Input.frame at null ⊢
  dsimp only at null ⊢
  split at null
  · rename_i cut
    rw [if_pos cut]
    rfl
  · rename_i cut
    rw [if_neg cut]
    split at null
    · rename_i long
      rw [if_pos long]
      split at null
      · rename_i cut'
        rw [if_pos cut']
        rfl
      · rename_i cut'
        rw [if_neg cut']
        exact frameBody_none null
    · rename_i long
      rw [if_neg long]
      exact frameBody_none null

theorem readByteArray_none {s : Input} (null : (Input.readByteArray s).1 = none) :
    (Input.readByteArray s).2.error = true := frame_none (Option.map_eq_none_iff.1 null)

theorem reports_scan {α : Type} {look : Input → ℕ} {read : Reader (Option α)}
    (none : ∀ s, (read s).1 = none → (read s).2.error = true) : Reports (scan look read) :=
  ⟨fun _ => Option.some_ne_none _, fun s null => none s.toInput (Option.some.inj null)⟩

instance (length : ℕ) : Reports (Scan.readBytes length) := reports_scan fun _ => readBytes_none

instance : Reports readByteArray := reports_scan fun _ => readByteArray_none

/-- The arrays that are read are short. -/
theorem readByteArray_length {s : Input} {bytes : List UInt8}
    (read : (Input.readByteArray s).1 = some bytes) :
    bytes.length < 2 ^ 24 := by
  have read : (Input.frame s).1.map s.range = some bytes := read
  obtain ⟨⟨offset, length⟩, found, rfl⟩ := Option.map_eq_some_iff.1 read
  have short : length < 2 ^ 24 := by
    have body : ∀ {l sl : ℕ} {t : Input}, (Input.frameBody l sl t).1 = some (offset, length) →
        length = l := by
      intro l sl t some
      obtain ⟨a, -, eq⟩ := frameBody_eq l sl t
      rw [eq] at some
      split at some
      · cases some
      · exact (congrArg Prod.snd (Option.some.inj some)).symm
    unfold Input.frame at found
    dsimp only at found
    split at found
    · cases found
    · split at found
      · split at found
        · cases found
        · rw [body found]
          exact leNat_ahead_lt _ 3
      · rw [body found]
        have := leNat_ahead_lt s 1
        omega
  exact lt_of_le_of_lt (List.length_take_le _ _) short

end Mtproto.Scheme
