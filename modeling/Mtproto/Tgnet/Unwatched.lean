import Mtproto.Tgnet.Pieces

/-!
# The methods without their accesses

Where no subscript wraps around, the programs of `Memory` do to a buffer what the readers and the
writers of `Streams.Native` do to it, and they return the same values.
-/

namespace Mtproto.Tgnet.Memory

open Bytes Lib Lib.Interruptible

/-! ## Readers -/

section Readers

variable {m : Memory}

/-- Bytes that are read one by one; behind the end of the store both readings have zeros. -/
theorem leNat_peeked (b : NativeByteBuffer) (i n : ℕ) (small : b.position + i + n ≤ 2 ^ 32) :
    leNat (peeked b i n) = leNat ((b.buffer.drop (b.position + i)).take n) := by
  induction n generalizing i with
  | zero => rfl
  | succ n ih =>
      have head : u32 (b.position + (i + 0)) = b.position + i := u32_of_lt (by omega)
      have tail : (List.range n).map ((fun j => b.buffer.getD (u32 (b.position + (i + j))) 0) ∘
          Nat.succ) =
          peeked b (i + 1) n := by
        unfold peeked
        apply List.map_congr_left
        intro j _
        have next : i + (j + 1) = i + 1 + j := by omega
        simp only [Function.comp_apply, Nat.succ_eq_add_one, next]
      rw [peeked, List.range_succ_eq_map, List.map_cons, List.map_map, head, tail, leNat,
        ih (i + 1) (by omega), ← Nat.add_assoc b.position i 1]
      by_cases inside : b.position + i < b.buffer.length
      · rw [List.drop_eq_getElem_cons inside, List.take_succ_cons, leNat,
          List.getD_eq_getElem _ _ inside]
      · rw [List.drop_of_length_le (by omega), List.drop_of_length_le (by omega),
          List.getD_eq_default _ _ (by omega)]
        simp [leNat]

theorem toInput_readWord (width : ℕ) (m : Memory) (small : m.buffer.position + width ≤ 2 ^ 32) :
    leNat ((readWord width m).1.getD []) = (Input.word width m.toInput).1 ∧
      (readWord width m).2.toInput = (Input.word width m.toInput).2 := by
  unfold Input.word
  by_cases test : u32 (m.buffer.position + width) ≤ m.buffer.limit
  · rw [readWord_passed test, if_neg (Nat.not_lt.2 test)]
    exact ⟨leNat_peeked _ _ _ small, rfl⟩
  · rw [readWord_refused test, if_pos (Nat.not_le.1 test)]
    exact ⟨rfl, rfl⟩

theorem toInput_readBytes (n : ℕ) (m : Memory) :
    (readBytes n m).1 = (Input.readBytes n m.toInput).1 ∧
      (readBytes n m).2.toInput = (Input.readBytes n m.toInput).2 := by
  have run : readBytes n m = (if n > m.buffer.remaining then failed else do
      let bytes ← copyOut n
      move n
      pure bytes : Body (List UInt8)) m := bind_of_some rfl
  rw [run]
  unfold Input.readBytes
  split
  · exact ⟨rfl, rfl⟩
  · exact ⟨rfl, rfl⟩

theorem toInput_frameBody (l sl : ℕ) (m : Memory) :
    (frameBody copyOut l sl m).1 = (Input.frameBody l sl m.toInput).1.map m.toInput.range ∧
      (frameBody copyOut l sl m).2.toInput = (Input.frameBody l sl m.toInput).2 := by
  have body : Input.frameBody l sl m.toInput =
      if u32 (m.buffer.position + (l + addition l sl)) > m.buffer.limit then
        (none, m.toInput.failed)
      else (some (m.buffer.position, l), m.toInput.step (l + addition l sl)) := by
    rw [← Nat.add_assoc]
    rfl
  rw [body]
  unfold frameBody
  by_cases test : u32 (m.buffer.position + (l + addition l sl)) ≤ m.buffer.limit
  · rw [bind_of_some (require_passed test), if_neg (Nat.not_lt.2 test)]
    exact ⟨rfl, rfl⟩
  · rw [bind_of_none (require_refused (Nat.not_le.1 test)), if_pos (Nat.not_le.1 test)]
    exact ⟨rfl, rfl⟩

/-- `readByteArray`, and `readString` up to its default. -/
theorem toInput_readByteArray (m : Memory) (small : m.buffer.position + 4 ≤ 2 ^ 32) :
    (readByteArray m).1 = (Input.readByteArray m.toInput).1 ∧
      (readByteArray m).2.toInput = (Input.readByteArray m.toInput).2 := by
  have hfirst : leNat (peeked m.buffer 0 1) = leNat (m.toInput.ahead 1) :=
    leNat_peeked _ 0 1 (by omega)
  have hlength : leNat (peeked (m.worded 1).buffer 0 3) = leNat ((m.toInput.step 1).ahead 3) := by
    have sum : u32 (m.buffer.position + 1) = m.buffer.position + 1 := u32_of_lt (by omega)
    rw [peeked_worded, leNat_peeked _ 1 3 (by omega)]
    simp only [Input.ahead, Input.step, NativeByteBuffer.step, sum]
  unfold readByteArray frame Input.readByteArray Input.frame
  dsimp only
  by_cases one : u32 (m.buffer.position + 1) ≤ m.buffer.limit
  · rw [bind_of_some (readWord_passed one), if_neg (Nat.not_lt.2 one), hfirst]
    split
    · by_cases three : u32 ((m.toInput.step 1).buffer.position + 3) ≤
        (m.toInput.step 1).buffer.limit
      · rw [bind_of_some (readWord_passed (m := m.worded 1) three), if_neg (Nat.not_lt.2 three),
          hlength]
        exact toInput_frameBody _ 4 ((m.worded 1).worded 3)
      · rw [bind_of_none (readWord_refused (m := m.worded 1) three), if_pos (Nat.not_le.1 three)]
        exact ⟨rfl, rfl⟩
    · exact toInput_frameBody _ 1 (m.worded 1)
  · rw [bind_of_none (readWord_refused one), if_pos (Nat.not_le.1 one)]
    exact ⟨rfl, rfl⟩

end Readers

/-! ## Writers -/

/-- The memory as an output that is not in size-calculation mode. -/
def toOutput (m : Memory) : Output := { buffer := m.buffer, error := m.error }

/-- A body and a program of the writers take the same way, and the error is set in the end. -/
def Alike (body : Body Unit) (program : Interruptible Output Unit) (m : Memory) : Prop :=
  (∃ t, body m = (some (), t) ∧ program m.toOutput = (some (), t.toOutput)) ∨
    ∃ t : Memory, body m = (none, { t with error := true }) ∧
      program m.toOutput = (none, t.toOutput)

section Writers

variable {m : Memory} {body : Body Unit} {program : Interruptible Output Unit}

theorem Alike.bind {f : Unit → Body Unit} {g : Unit → Interruptible Output Unit}
    (first : Alike body program m)
    (rest : ∀ t, body m = (some (), t) → Alike (f ()) (g ()) t) :
    Alike (body >>= f) (program >>= g) m := by
  rcases first with ⟨t, run, run'⟩ | ⟨t, run, run'⟩
  · rcases rest t run with ⟨u, next, next'⟩ | ⟨u, next, next'⟩
    · exact .inl ⟨u, (bind_of_some run).trans next, (bind_of_some run').trans next'⟩
    · exact .inr ⟨u, (bind_of_some run).trans next, (bind_of_some run').trans next'⟩
  · exact .inr ⟨t, bind_of_none run, bind_of_none run'⟩

theorem Alike.call (alike : Alike body program m) :
    Output.call program m.toOutput = (body m).2.toOutput := by
  rcases alike with ⟨t, run, run'⟩ | ⟨t, run, run'⟩
  · rw [Output.call, run', run]
  · rw [Output.call, run', run]
    rfl

/-- The bytes of a list are put where a splice puts them. -/
theorem each_put_splice (data : List UInt8) (m : Memory)
    (front : m.buffer.position ≤ m.buffer.buffer.length)
    (small : m.buffer.position + data.length < 2 ^ 32) :
    ∃ t, each put data m = (some (), t) ∧ t.error = m.error ∧ t.buffer = { m.buffer with
      buffer := splice m.buffer.buffer m.buffer.position data
      position := m.buffer.position + data.length } := by
  induction data generalizing m with
  | nil =>
      refine ⟨m, rfl, rfl, ?_⟩
      rw [splice_nil]
      rfl
  | cons x data ih =>
      have small : m.buffer.position + (data.length + 1) < 2 ^ 32 := small
      have first : put x m = (some (), (put x m).2) := rfl
      have next : m.buffer.position + 1 < 2 ^ 32 := by omega
      have position : (put x m).2.buffer.position = m.buffer.position + 1 := u32_of_lt next
      have store : (put x m).2.buffer.buffer = splice m.buffer.buffer m.buffer.position [x] := rfl
      have longer : m.buffer.position + 1 ≤
          (splice m.buffer.buffer m.buffer.position [x]).length := by
        simp only [splice, List.length_append, List.length_take, List.length_singleton]
        omega
      obtain ⟨t, rest, error, buffer⟩ := ih (put x m).2 (by rw [position, store]; exact longer)
        (by rw [position, Nat.add_assoc, Nat.add_comm 1]; exact small)
      refine ⟨t, ?_, error, ?_⟩
      · rw [each, bind_of_some first, rest]
      · have whole :
            splice (splice m.buffer.buffer m.buffer.position [x]) (m.buffer.position + 1) data =
            splice m.buffer.buffer m.buffer.position (x :: data) := splice_splice front
        rw [buffer, store, position, whole, List.length_cons, Nat.add_assoc, Nat.add_comm 1]
        rfl

theorem piece_eq (data : List UInt8) (m : Memory) :
    Output.piece data m.toOutput =
      if u32 (m.buffer.position + data.length) > m.buffer.limit then (none, m.toOutput)
      else (some (), { m.toOutput with
        buffer := { m.buffer with
          buffer := splice m.buffer.buffer m.buffer.position data
          position := u32 (m.buffer.position + data.length) } }) := by
  show (if u32 (m.buffer.position + data.length) > m.buffer.limit then crash else
    Interruptible.modify _ :
    Interruptible Output Unit) m.toOutput = _
  split
  · rfl
  · rfl

theorem alike_putWord (data : List UInt8) (front : m.buffer.position ≤ m.buffer.buffer.length)
    (small : m.buffer.position + data.length < 2 ^ 32) :
    Alike (putWord data) (Output.piece data) m := by
  unfold Alike putWord
  rw [piece_eq]
  by_cases test : u32 (m.buffer.position + data.length) ≤ m.buffer.limit
  · obtain ⟨t, run, error, buffer⟩ := each_put_splice data m front small
    rw [bind_of_some (require_passed test), if_neg (Nat.not_lt.2 test), u32_of_lt small]
    refine .inl ⟨t, run, ?_⟩
    unfold toOutput
    rw [error, buffer]
  · rw [bind_of_none (require_refused (Nat.not_le.1 test)), if_pos (Nat.not_le.1 test)]
    exact .inr ⟨m, rfl, rfl⟩

theorem alike_writeBytes (b : List UInt8) (m : Memory) :
    Alike (writeBytes b) (Output.piece b) m := by
  unfold Alike writeBytes
  rw [piece_eq]
  by_cases test : u32 (m.buffer.position + b.length) ≤ m.buffer.limit
  · rw [bind_of_some (require_passed test), if_neg (Nat.not_lt.2 test)]
    exact .inl ⟨_, rfl, rfl⟩
  · rw [bind_of_none (require_refused (Nat.not_le.1 test)), if_pos (Nat.not_le.1 test)]
    exact .inr ⟨m, rfl, rfl⟩

/-- A piece that has been written lies in the store, and the position stays in front of the
limit. -/
theorem after_piece {data : List UInt8} {t : Memory} (alike : Alike body (Output.piece data) m)
    (front : m.buffer.position ≤ m.buffer.buffer.length) (run : body m = (some (), t)) :
    t.buffer.position ≤ t.buffer.buffer.length ∧ t.buffer.position ≤ m.buffer.limit ∧
      t.buffer.limit = m.buffer.limit := by
  rcases alike with ⟨u, run', piece⟩ | ⟨u, run', piece⟩
  · rw [run] at run'
    cases run'
    rw [piece_eq] at piece
    split at piece
    · cases piece
    · have buffer := congrArg (fun r => r.2.buffer) piece
      have buffer : _ = t.buffer := buffer
      rw [← buffer]
      refine ⟨?_, Nat.not_lt.1 ‹_›, rfl⟩
      have le : u32 (m.buffer.position + data.length) ≤ m.buffer.position + data.length :=
        Nat.mod_le _ _
      simp only [splice, List.length_append, List.length_take]
      omega
  · rw [run] at run'
    cases run'

/-- `writeByteArray`, in a buffer whose limit is not at the very end of what 32 bits can count. -/
theorem toOutput_writeByteArray (b : List UInt8) (m : Memory) (wf : m.buffer.Wf)
    (room : m.buffer.limit + 4 < 2 ^ 32) :
    (writeByteArray b m).2.toOutput = Output.writeByteArray b m.toOutput := by
  have := wf.position_le
  have := wf.limit_le
  have front : m.buffer.position ≤ m.buffer.buffer.length := by
    rw [wf.length_eq]
    omega
  have prefixLength : (Output.lengthBytes b.length).length ≤ 4 := by
    rw [length_lengthBytes]
    split <;> omega
  have paddingLength : (List.replicate (Output.addition b.length) (0 : UInt8)).length ≤ 4 := by
    have few : ∀ k : ℕ, (if k % 4 ≠ 0 then 4 - k % 4 else k % 4) ≤ 4 := by
      intro k
      split <;> omega
    rw [List.length_replicate]
    exact few _
  refine (Alike.call ?_).symm
  have first := alike_putWord (Output.lengthBytes b.length) front (by omega)
  apply first.bind
  intro t run
  obtain ⟨front', -, limit⟩ := after_piece first front run
  have second := alike_writeBytes b t
  apply second.bind
  intro u run'
  obtain ⟨front'', inside, -⟩ := after_piece second front' run'
  exact alike_putWord _ front'' (by omega)

end Writers

/-! ## Together -/

/-- The methods return and leave what the readers and the writers of `Streams.Native` do. -/
structure Unwatched (m : Memory) : Prop where
  readWord : ∀ width ≤ 8, leNat ((readWord width m).1.getD []) = (Input.word width m.toInput).1 ∧
    (readWord width m).2.toInput = (Input.word width m.toInput).2
  readBytes : ∀ n, (readBytes n m).1 = (Input.readBytes n m.toInput).1 ∧
    (readBytes n m).2.toInput = (Input.readBytes n m.toInput).2
  readByteArray : (readByteArray m).1 = (Input.readByteArray m.toInput).1 ∧
    (readByteArray m).2.toInput = (Input.readByteArray m.toInput).2
  writeByteArray : ∀ b, (writeByteArray b m).2.toOutput = Output.writeByteArray b m.toOutput

/-- A limit that is not at the very end of what 32 bits can count is enough. -/
theorem unwatched_of_room (m : Memory) (wf : m.buffer.Wf) (room : m.buffer.limit + 8 < 2 ^ 32) :
    Unwatched m := by
  have := wf.position_le
  refine ⟨fun width narrow => ?_, fun n => ?_, ?_, fun b => ?_⟩
  · exact toInput_readWord width m (by omega)
  · exact toInput_readBytes n m
  · exact toInput_readByteArray m (by omega)
  · exact toOutput_writeByteArray b m wf (by omega)

end Mtproto.Tgnet.Memory
