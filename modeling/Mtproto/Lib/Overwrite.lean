import Mtproto.Lib.Bytes

/-!
# Ranges of a byte list

Reading a range and overwriting ranges one after the other, and both in lists that are put together
from parts.
-/

namespace Mtproto.Bytes

/-- `count` bytes from `offset` on. -/
def slice (bs : List UInt8) (offset count : ℕ) : List UInt8 := (bs.drop offset).take count

section Slices

variable {bs cs : List UInt8} {offset count : ℕ}

theorem length_slice (within : offset + count ≤ bs.length) :
    (slice bs offset count).length = count := by
  rw [slice, List.length_take, List.length_drop]
  omega

theorem slice_append_left (within : offset + count ≤ bs.length) :
    slice (bs ++ cs) offset count = slice bs offset count := by
  rw [slice, slice, List.drop_append_of_le_length (by omega), List.take_append_of_le_length]
  rw [List.length_drop]
  omega

theorem slice_append_right (past : bs.length ≤ offset) :
    slice (bs ++ cs) offset count = slice cs (offset - bs.length) count := by
  rw [slice, slice, List.drop_append, List.drop_eq_nil_of_le past, List.nil_append]

theorem slice_whole (length : bs.length = count) : slice bs 0 count = bs := by
  rw [slice, List.drop_zero, ← length, List.take_length]

end Slices

section Splices

variable {bs cs src src' : List UInt8} {pos next : ℕ}

theorem splice_append_left (within : pos + src.length ≤ bs.length) :
    splice (bs ++ cs) pos src = splice bs pos src ++ cs := by
  rw [splice, splice, List.take_append_of_le_length (by omega),
    List.drop_append_of_le_length within, List.append_assoc (bs.take pos ++ src)]

theorem splice_append_right (past : bs.length ≤ pos) :
    splice (bs ++ cs) pos src = bs ++ splice cs (pos - bs.length) src := by
  have beyond : bs.length ≤ pos + src.length := by omega
  rw [splice, splice, List.take_append, List.take_of_length_le past, List.drop_append,
    List.drop_eq_nil_of_le beyond, List.nil_append, ← List.append_assoc, ← List.append_assoc]
  congr 2
  omega

/-- A copy that starts where the last one ended continues it. -/
theorem splice_next (within : pos ≤ bs.length) (adjacent : next = pos + src.length) :
    splice (splice bs pos src) next src' = splice bs pos (src ++ src') := by
  rw [adjacent, splice_splice within]

theorem splice_zero_next (adjacent : next = src.length) :
    splice (splice bs 0 src) next src' = splice bs 0 (src ++ src') :=
  splice_next (Nat.zero_le _) (by rw [adjacent, Nat.zero_add])

/-- A copy over the whole list. -/
theorem splice_whole (length : src.length = bs.length) : splice bs 0 src = src := by
  rw [splice, List.take_zero, List.nil_append, List.drop_eq_nil_of_le (by omega), List.append_nil]

/-! A part of a list that is put together. -/

theorem slice_segment {offset count : ℕ} (start : bs.length = offset) (size : src.length = count) :
    slice (bs ++ (src ++ cs)) offset count = src := by
  rw [slice_append_right (by omega), start, Nat.sub_self, slice_append_left (by omega),
    slice_whole size]

theorem splice_segment (start : bs.length = pos) (size : src'.length = src.length) :
    splice (bs ++ (src ++ cs)) pos src' = bs ++ (src' ++ cs) := by
  rw [splice_append_right (by omega), start, Nat.sub_self, splice_append_left (by omega),
    splice_whole size]

/-! Two neighbours that are filled from their fronts. -/

theorem splice_fill_left (within : src.length + src'.length ≤ bs.length)
    (adjacent : next = src.length) :
    splice (splice bs 0 src ++ cs) next src' = splice bs 0 (src ++ src') ++ cs := by
  have length : (splice bs 0 src).length = bs.length := length_splice (by omega)
  rw [splice_append_left (by omega), splice_zero_next adjacent]

theorem splice_fill_right {more : List UInt8} (within : src.length ≤ bs.length)
    (adjacent : next = bs.length + src'.length) :
    splice (splice bs 0 src ++ splice cs 0 src') next more = splice bs 0 src ++
      splice cs 0 (src' ++ more) := by
  have length : (splice bs 0 src).length = bs.length := length_splice (by omega)
  rw [splice_append_right (by omega), length, adjacent, Nat.add_sub_cancel_left,
    splice_zero_next rfl]

end Splices

end Mtproto.Bytes
