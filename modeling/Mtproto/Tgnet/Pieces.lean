import Mtproto.Tgnet.Memory

/-!
# The pieces of a method

A method of the native buffer is a list of pieces, each behind a test of its own: bytes that are
accessed one by one, a block that is copied, or bytes that are passed by.  It goes from piece to
piece until a test refuses one.  As long as the sum that a test makes does not wrap around and pass,
the method touches nothing behind the limit and moves ahead; otherwise it touches a byte behind the
limit or ends up behind where it began.
-/

namespace Mtproto.Tgnet.Memory

open Bytes Lib Lib.Interruptible

/-! ## Pieces -/

/-- What one test is for: bytes that are accessed one by one, a block that is copied with some more
bytes that are passed by, or bytes that are only passed by. -/
inductive Piece where
  | bytes (n : ℕ)
  | block (l addition : ℕ)
  | blank (n : ℕ)
deriving DecidableEq, Repr

namespace Piece

/-- What the test adds to the position. -/
def length : Piece → ℕ
  | bytes n => n
  | block l addition => l + addition
  | blank n => n

/-- What is accessed from a position on. -/
def accessed (position : ℕ) : Piece → List Range
  | bytes n => (List.range n).map fun i => ⟨u32 (position + i), 1⟩
  | block l _ => [⟨position, l⟩]
  | blank _ => []

/-- Every byte is accessed. -/
def Full : Piece → Prop
  | bytes _ => True
  | block _ addition => addition = 0
  | blank _ => False

variable {p : Piece} {position limit : ℕ}

/-- A piece in front of the limit touches nothing behind it. -/
theorem inside (fits : position + p.length ≤ limit) (small : limit < 2 ^ 32) :
    ∀ r ∈ p.accessed position, r.Inside limit := by
  intro r mem i hi
  cases p with
  | bytes n =>
      obtain ⟨j, hj, rfl⟩ := List.mem_map.1 mem
      rw [List.mem_range] at hj
      have fits : position + n ≤ limit := fits
      have hi : i < 1 := hi
      show u32 (position + j) + i < limit
      rw [u32_of_lt (by omega)]
      omega
  | block l addition =>
      rw [List.mem_singleton.1 mem] at hi ⊢
      have fits : position + (l + addition) ≤ limit := fits
      show position + i < limit
      have hi : i < l := hi
      omega
  | blank n => cases mem

/-- A full piece that wraps around touches the byte at `2 ^ 32 - 1`, and there is no limit beyond
that. -/
theorem strays (full : p.Full) (le : position ≤ limit) (small : limit < 2 ^ 32)
    (wraps : 2 ^ 32 ≤ position + p.length) : ∃ r ∈ p.accessed position, ¬ r.Inside limit := by
  cases p with
  | bytes n =>
      have wraps : 2 ^ 32 ≤ position + n := wraps
      refine ⟨⟨u32 (position + (2 ^ 32 - 1 - position)), 1⟩, ?_, ?_⟩
      · exact List.mem_map.2 ⟨_, List.mem_range.2 (by omega), rfl⟩
      · intro inside
        have last : u32 (position + (2 ^ 32 - 1 - position)) + 0 < limit := inside 0 Nat.one_pos
        rw [u32_of_lt (by omega)] at last
        omega
  | block l addition =>
      have none : addition = 0 := full
      have wraps : 2 ^ 32 ≤ position + (l + addition) := wraps
      refine ⟨⟨position, l⟩, List.mem_singleton.2 rfl, ?_⟩
      intro inside
      have last : position + (2 ^ 32 - 1 - position) < limit :=
        inside (2 ^ 32 - 1 - position) (show _ < l by omega)
      omega
  | blank n => cases full

end Piece

/-! ## Walks -/

/-- The position is at most the limit, and the limit is at most the capacity. -/
structure InBounds (b : NativeByteBuffer) : Prop where
  position_le : b.position ≤ b.limit
  limit_le : b.limit ≤ b.capacity
  capacity_lt : b.capacity < 2 ^ 32

theorem InBounds.limit_lt {b : NativeByteBuffer} (h : InBounds b) : b.limit < 2 ^ 32 :=
  lt_of_le_of_lt h.limit_le h.capacity_lt

/-- A piece whose test has passed. -/
structure Goes (p : Piece) (m t : Memory) : Prop where
  limit : t.buffer.limit = m.buffer.limit
  capacity : t.buffer.capacity = m.buffer.capacity
  position : t.buffer.position = u32 (m.buffer.position + p.length)
  accessed : t.accessed = m.accessed ++ p.accessed m.buffer.position

/-- From piece to piece, until a test refuses one. -/
inductive Walk : List Piece → Memory → Memory → Prop
  | done {m t : Memory} (buffer : t.buffer = m.buffer) (accessed : t.accessed = m.accessed) :
      Walk [] m t
  | refused {p : Piece} {ps : List Piece} {m t : Memory}
      (test : m.buffer.limit < u32 (m.buffer.position + p.length)) (buffer : t.buffer = m.buffer)
      (accessed : t.accessed = m.accessed) : Walk (p :: ps) m t
  | passed {p : Piece} {ps : List Piece} {m t u : Memory}
      (test : u32 (m.buffer.position + p.length) ≤ m.buffer.limit) (goes : Goes p m t)
        (rest : Walk ps t u) :
      Walk (p :: ps) m u

/-- The sum that a test makes does not wrap around, or what is left of it is refused. -/
def Exact (limit position n : ℕ) : Prop := position + n < 2 ^ 32 ∨ limit < u32 (position + n)

/-- So it is with all the tests, as far as the method gets. -/
def ExactAll (limit : ℕ) : ℕ → List Piece → Prop
  | _, [] => True
  | position, p :: ps =>
      Exact limit position p.length ∧
        (position + p.length ≤ limit → ExactAll limit (position + p.length) ps)

/-- Pieces that leave no byte out, except perhaps the last one, which then does not lead all the way
round. -/
def Sealed : ℕ → List Piece → Prop
  | _, [] => True
  | travelled, [p] => p.Full ∨ travelled + p.length < 2 ^ 32
  | travelled, p :: q :: ps => p.Full ∧ Sealed (travelled + p.length) (q :: ps)

section Walk

variable {p : Piece} {ps : List Piece} {m t u : Memory}

theorem Goes.inBounds (goes : Goes p m t) (bounds : InBounds m.buffer)
    (test : u32 (m.buffer.position + p.length) ≤ m.buffer.limit) : InBounds t.buffer := by
  refine ⟨?_, ?_, ?_⟩
  · rw [goes.position, goes.limit]
    exact test
  · rw [goes.limit, goes.capacity]
    exact bounds.limit_le
  · rw [goes.capacity]
    exact bounds.capacity_lt

/-- The position stays inside the limit even where a sum wraps around. -/
theorem Walk.inBounds (walk : Walk ps m t) (bounds : InBounds m.buffer) : InBounds t.buffer := by
  induction walk with
  | done buffer _ => rwa [buffer]
  | refused _ buffer _ => rwa [buffer]
  | passed test goes _ ih => exact ih (goes.inBounds bounds test)

/-- What has been accessed stays written down. -/
theorem Walk.subset (walk : Walk ps m t) : ∀ r ∈ m.accessed, r ∈ t.accessed := by
  induction walk with
  | done _ accessed => rw [accessed]; exact fun _ => id
  | refused _ _ accessed => rw [accessed]; exact fun _ => id
  | passed _ goes _ ih =>
      intro r mem
      apply ih r
      rw [goes.accessed]
      exact List.mem_append_left _ mem

theorem Exact.eq {limit position n : ℕ} (exact : Exact limit position n)
    (test : u32 (position + n) ≤ limit) :
    u32 (position + n) = position + n :=
  u32_of_lt (exact.resolve_right (Nat.not_lt.2 test))

/-- With exact tests the method keeps in front of the limit and moves ahead. -/
theorem Walk.forward (walk : Walk ps m t) (bounds : InBounds m.buffer)
    (exact : ExactAll m.buffer.limit m.buffer.position ps)
    (before : ∀ r ∈ m.accessed, r.Inside m.buffer.limit) :
    (∀ r ∈ t.accessed, r.Inside m.buffer.limit) ∧ m.buffer.position ≤ t.buffer.position := by
  induction walk with
  | done buffer accessed =>
      rw [buffer, accessed]
      exact ⟨before, le_rfl⟩
  | refused _ buffer accessed =>
      rw [buffer, accessed]
      exact ⟨before, le_rfl⟩
  | @passed p ps m t u test goes rest ih =>
      have sum := exact.1.eq test
      rw [sum] at test
      have position : t.buffer.position = m.buffer.position + p.length := goes.position.trans sum
      have next : ExactAll t.buffer.limit t.buffer.position ps := by
        rw [goes.limit, position]
        exact exact.2 test
      have inside : ∀ r ∈ t.accessed, r.Inside t.buffer.limit := by
        rw [goes.limit, goes.accessed]
        intro r mem
        rcases List.mem_append.1 mem with mem | mem
        · exact before r mem
        · exact Piece.inside test bounds.limit_lt r mem
      obtain ⟨all, le⟩ := ih (goes.inBounds bounds (by rwa [sum])) next inside
      rw [goes.limit] at all
      exact ⟨all, by omega⟩

/-- With a test that is not exact it touches something behind the limit or ends up behind where it
began. -/
theorem Walk.astray (walk : Walk ps m t) (bounds : InBounds m.buffer) {start : ℕ}
    (le : start ≤ m.buffer.position) (closed : Sealed (m.buffer.position - start) ps)
    (inexact : ¬ ExactAll m.buffer.limit m.buffer.position ps) :
    (∃ r ∈ t.accessed, ¬ r.Inside m.buffer.limit) ∨ t.buffer.position < start := by
  induction walk with
  | done => exact absurd trivial inexact
  | @refused p ps m t test =>
      have large : m.buffer.limit < m.buffer.position + p.length :=
        lt_of_lt_of_le test (Nat.mod_le _ _)
      exact absurd ⟨.inr test, fun fits => absurd fits (by omega)⟩ inexact
  | @passed p ps m t u test goes rest ih =>
      have := bounds.position_le
      have := bounds.limit_lt
      by_cases small : m.buffer.position + p.length < 2 ^ 32
      · -- this test is exact, and a later one is not
        have sum := u32_of_lt small
        rw [sum] at test
        have position : t.buffer.position = m.buffer.position + p.length := goes.position.trans sum
        have later : ¬ ExactAll t.buffer.limit t.buffer.position ps := by
          rw [goes.limit, position]
          exact fun exact => inexact ⟨.inl small, fun _ => exact⟩
        have closed' : Sealed (t.buffer.position - start) ps := by
          cases ps with
          | nil => trivial
          | cons q ps =>
              have travelled : t.buffer.position - start =
                m.buffer.position - start + p.length := by omega
              rw [travelled]
              exact closed.2
        rw [← goes.limit]
        exact ih (goes.inBounds bounds (by rwa [sum])) (by omega) closed' later
      · have wraps : 2 ^ 32 ≤ m.buffer.position + p.length := Nat.not_lt.1 small
        have stray : p.Full → ∃ r ∈ u.accessed, ¬ r.Inside m.buffer.limit := by
          intro full
          obtain ⟨r, mem, outside⟩ := Piece.strays full bounds.position_le bounds.limit_lt wraps
          refine ⟨r, rest.subset r ?_, outside⟩
          rw [goes.accessed]
          exact List.mem_append_right _ mem
        cases ps with
        | cons q ps => exact .inl (stray closed.1)
        | nil =>
            rcases closed with full | short
            · exact .inl (stray full)
            · right
              obtain ⟨buffer, -⟩ := rest
              rw [buffer, goes.position]
              unfold u32
              omega

end Walk

/-! ## Steps -/

section Steps

variable {m t : Memory}

theorem require_refused {n : ℕ} (test : m.buffer.limit < u32 (m.buffer.position + n)) :
    require n m = (none, { m with error := true }) :=
  if_pos test

theorem require_passed {n : ℕ} (test : u32 (m.buffer.position + n) ≤ m.buffer.limit) :
    require n m = (some (), m) :=
  if_neg (Nat.not_lt.2 test)

/-- The bytes of a list are put one after the other. -/
theorem each_put (data : List UInt8) (m : Memory) (small : m.buffer.position < 2 ^ 32) :
    ∃ t, each put data m = (some (), t) ∧ Goes (.bytes data.length) m t := by
  induction data generalizing m with
  | nil => exact ⟨m, rfl, rfl, rfl, (u32_of_lt small).symm, (List.append_nil _).symm⟩
  | cons x data ih =>
      obtain ⟨t, rest, goes⟩ := ih (put x m).2 (Nat.mod_lt _ (Nat.two_pow_pos 32))
      have first : put x m = (some (), (put x m).2) := rfl
      have position : (put x m).2.buffer.position = u32 (m.buffer.position + 1) := rfl
      refine ⟨t, ?_, goes.limit, goes.capacity, ?_, ?_⟩
      · rw [each, bind_of_some first, rest]
      · rw [goes.position, position]
        show u32 (u32 (m.buffer.position + 1) + data.length) =
          u32 (m.buffer.position + (data.length + 1))
        unfold u32
        omega
      · have accessed : (put x m).2.accessed = m.accessed ++ [⟨m.buffer.position, 1⟩] := rfl
        rw [goes.accessed, accessed, position, List.append_assoc]
        congr 1
        show _ :: (List.range data.length).map _ = (List.range (data.length + 1)).map _
        have head : u32 (m.buffer.position + 0) = m.buffer.position := u32_of_lt small
        rw [List.range_succ_eq_map, List.map_cons, List.map_map, head]
        congr 1
        apply List.map_congr_left
        intro i _
        have sum : u32 (u32 (m.buffer.position + 1) + i) = u32 (m.buffer.position + (i + 1)) := by
          unfold u32
          omega
        exact congrArg (Range.mk · 1) sum

/-- The bytes that the subscripts from `i` on stand for. -/
def peeked (b : NativeByteBuffer) (i n : ℕ) : List UInt8 :=
  (List.range n).map fun j => b.buffer.getD (u32 (b.position + (i + j))) 0

theorem collect_peek (i n : ℕ) (m : Memory) :
    collect peek i n m = (some (peeked m.buffer i n), { m with
      accessed := m.accessed ++ (List.range n).map fun j =>
        ⟨u32 (m.buffer.position + (i + j)), 1⟩ }) := by
  induction n generalizing i m with
  | zero =>
      rw [List.range_zero, List.map_nil, List.append_nil]
      rfl
  | succ n ih =>
      have first : peek i m = (some (m.buffer.buffer.getD (u32 (m.buffer.position + i)) 0),
          { m with accessed := m.accessed ++ [⟨u32 (m.buffer.position + i), 1⟩] }) := rfl
      have next : ∀ j, i + 1 + j = i + (j + 1) := by omega
      rw [collect, bind_of_some first, bind_of_some (ih (i + 1) _)]
      simp only [peeked, List.range_succ_eq_map, List.map_cons, List.map_map, Nat.add_zero, next,
        List.append_assoc, List.singleton_append]
      rfl

/-- A word that is there. -/
def worded (m : Memory) (width : ℕ) : Memory :=
  { m with
    buffer := m.buffer.step width
    accessed := m.accessed ++ (Piece.bytes width).accessed m.buffer.position }

theorem goes_worded (m : Memory) (width : ℕ) : Goes (.bytes width) m (m.worded width) :=
  ⟨rfl, rfl, rfl, rfl⟩

end Steps

/-! ## Methods -/

/-- A body that is one piece: its test refuses it, or it goes through. -/
def OnePiece {α : Type} (p : Piece) (body : Body α) (m : Memory) : Prop :=
  (m.buffer.limit < u32 (m.buffer.position + p.length) ∧
    body m = (none, { m with error := true })) ∨
    u32 (m.buffer.position + p.length) ≤ m.buffer.limit ∧ ∃ a t, body m = (some a, t) ∧ Goes p m t

theorem walk_done {m : Memory} : Walk [] m m := .done rfl rfl

section Methods

variable {α β : Type} {p : Piece} {ps : List Piece} {body : Body α} {f : α → Body β} {m : Memory}

theorem OnePiece.bind (one : OnePiece p body m)
    (rest : ∀ a t, body m = (some a, t) → Goes p m t → Walk ps t (f a t).2) :
    Walk (p :: ps) m ((body >>= f) m).2 := by
  rcases one with ⟨test, run⟩ | ⟨test, a, t, run, goes⟩
  · rw [bind_of_none run]
    exact .refused test rfl rfl
  · rw [bind_of_some run]
    exact .passed test goes (rest a t run goes)

theorem OnePiece.walk (one : OnePiece p body m) : Walk [p] m (body m).2 := by
  rcases one with ⟨test, run⟩ | ⟨test, a, t, run, goes⟩
  · rw [run]
    exact .refused test rfl rfl
  · rw [run]
    exact .passed test goes (.done rfl rfl)

/-- A test in front of what it is for. -/
theorem OnePiece.require {n : ℕ} (length : p.length = n)
    (passed : ∃ a t, body m = (some a, t) ∧ Goes p m t) :
    OnePiece p (require n >>= fun _ => body) m := by
  subst length
  unfold OnePiece
  by_cases test : u32 (m.buffer.position + p.length) ≤ m.buffer.limit
  · rw [bind_of_some (require_passed test)]
    exact .inr ⟨test, passed⟩
  · rw [bind_of_none (require_refused (Nat.not_le.1 test))]
    exact .inl ⟨Nat.not_le.1 test, rfl⟩

theorem one_putWord (data : List UInt8) (small : m.buffer.position < 2 ^ 32) :
    OnePiece (.bytes data.length) (putWord data) m := by
  obtain ⟨t, run, goes⟩ := each_put data m small
  exact OnePiece.require rfl ⟨(), t, run, goes⟩

theorem one_writeBytes (b : List UInt8) : OnePiece (.block b.length 0) (writeBytes b) m :=
  OnePiece.require rfl ⟨(), _, rfl, rfl, rfl, rfl, rfl⟩

/-- The bytes of a word are those that the subscripts stand for. -/
theorem readWord_run (width : ℕ) :
    (collect peek 0 width >>= fun bytes => move width >>= fun _ =>
      (pure bytes : Body (List UInt8))) m =
      (some (peeked m.buffer 0 width), m.worded width) := by
  rw [bind_of_some (collect_peek 0 width m)]
  simp only [Nat.zero_add]
  rfl

theorem one_readWord (width : ℕ) : OnePiece (.bytes width) (readWord width) m :=
  OnePiece.require rfl ⟨_, _, readWord_run width, goes_worded m width⟩

theorem readWord_passed {width : ℕ} (test : u32 (m.buffer.position + width) ≤ m.buffer.limit) :
    readWord width m = (some (peeked m.buffer 0 width), m.worded width) := by
  unfold readWord
  rw [bind_of_some (require_passed test), readWord_run]

theorem readWord_refused {width : ℕ} (test : ¬ u32 (m.buffer.position + width) ≤ m.buffer.limit) :
    readWord width m = (none, { m with error := true }) :=
  bind_of_none (require_refused (Nat.not_le.1 test))

theorem readWord_eq {width : ℕ} {a : List UInt8} {t : Memory}
    (run : readWord width m = (some a, t)) :
    a = peeked m.buffer 0 width ∧ t = m.worded width := by
  by_cases test : u32 (m.buffer.position + width) ≤ m.buffer.limit
  · rw [readWord_passed test] at run
    cases run
    exact ⟨rfl, rfl⟩
  · rw [readWord_refused test] at run
    cases run

/-- A result that is made of another one. -/
theorem OnePiece.map (one : OnePiece p body m) (g : α → β) :
    OnePiece p (body >>= fun a => (pure (g a) : Body β)) m := by
  rcases one with ⟨test, run⟩ | ⟨test, a, t, run, goes⟩
  · exact .inl ⟨test, bind_of_none run⟩
  · exact .inr ⟨test, g a, t, bind_of_some run, goes⟩

end Methods

/-! ### Byte arrays -/

/-- The pieces of a byte array of `n` bytes that is written. -/
def arrayPieces (n : ℕ) : List Piece :=
  [.bytes (if n ≤ 253 then 1 else 4), .block n 0, .bytes (Output.addition n)]

/-- The pieces of one that is read; how long it is stands in its first bytes. -/
def framePieces (last : ℕ → ℕ → Piece) (b : NativeByteBuffer) : List Piece :=
  if leNat (peeked b 0 1) ≥ 254 then
    [.bytes 1, .bytes 3, last (leNat (peeked b 1 3)) (addition (leNat (peeked b 1 3)) 4)]
  else [.bytes 1, last (leNat (peeked b 0 1)) (addition (leNat (peeked b 0 1)) 1)]

/-- The bytes of a slice are passed by. -/
def passedBy (l addition : ℕ) : Piece := .blank (l + addition)

section Arrays

variable {m : Memory} {take : ℕ → Body (List UInt8)} {last : ℕ → ℕ → Piece}

theorem length_lengthBytes (n : ℕ) : (Output.lengthBytes n).length = if n ≤ 253 then 1 else 4 := by
  unfold Output.lengthBytes
  split <;> rfl

theorem walk_writeByteArray (b : List UInt8) (small : m.buffer.position < 2 ^ 32) :
    Walk (arrayPieces b.length) m (writeByteArray b m).2 := by
  unfold arrayPieces writeByteArray
  rw [← length_lengthBytes]
  apply (one_putWord _ small).bind
  intro _ t _ _
  apply (one_writeBytes b).bind
  intro _ u _ goes
  have small' : u.buffer.position < 2 ^ 32 := by
    rw [goes.position]
    exact Nat.mod_lt _ (Nat.two_pow_pos 32)
  have padding := one_putWord (m := u) (List.replicate (Output.addition b.length) 0) small'
  rw [List.length_replicate] at padding
  exact padding.walk

theorem one_frameBody_copyOut (l sl : ℕ) (m : Memory) :
    OnePiece (.block l (addition l sl)) (frameBody copyOut l sl) m :=
  OnePiece.require rfl ⟨_, _, rfl, rfl, rfl, rfl, rfl⟩

theorem one_frameBody_slice (l sl : ℕ) (m : Memory) :
    OnePiece (passedBy l (addition l sl)) (frameBody slice l sl) m :=
  OnePiece.require rfl ⟨_, _, rfl, rfl, rfl, rfl, (List.append_nil _).symm⟩

/-- Behind the first byte the subscripts stand for the bytes after it. -/
theorem peeked_worded (m : Memory) : peeked (m.worded 1).buffer 0 3 = peeked m.buffer 1 3 := by
  unfold peeked
  apply List.map_congr_left
  intro i _
  have sum : u32 (u32 (m.buffer.position + 1) + (0 + i)) = u32 (m.buffer.position + (1 + i)) := by
    unfold u32
    omega
  exact congrArg (m.buffer.buffer.getD · 0) sum

theorem walk_frame (one : ∀ l sl t, OnePiece (last l (addition l sl)) (frameBody take l sl) t) :
    Walk (framePieces last m.buffer) m (frame take m).2 := by
  unfold framePieces frame
  split
  · rename_i long
    apply (one_readWord 1).bind
    intro first t run _
    obtain ⟨rfl, rfl⟩ := readWord_eq run
    rw [if_pos long]
    apply (one_readWord 3).bind
    intro length u run' _
    obtain ⟨rfl, rfl⟩ := readWord_eq run'
    rw [peeked_worded]
    exact (one _ _ _).walk
  · rename_i short
    apply (one_readWord 1).bind
    intro first t run _
    obtain ⟨rfl, rfl⟩ := readWord_eq run
    rw [if_neg short]
    exact (one _ _ _).walk

/-- The number that three bytes make. -/
theorem leNat_peeked_lt (b : NativeByteBuffer) (i n : ℕ) : leNat (peeked b i n) < 256 ^ n := by
  have lt := leNat_lt (peeked b i n)
  rwa [peeked, List.length_map, List.length_range] at lt

theorem addition_le (l sl : ℕ) : addition l sl ≤ 3 := by
  unfold addition
  dsimp only
  split <;> omega

/-- All the bytes of an array are less than `2 ^ 32`, so that reading one does not lead all the way
round. -/
theorem sealed_frame (length : ∀ l a, (last l a).length = l + a) (b : NativeByteBuffer) :
    Sealed 0 (framePieces last b) := by
  have first := leNat_peeked_lt b 0 1
  have three := leNat_peeked_lt b 1 3
  unfold framePieces
  split
  · have few := addition_le (leNat (peeked b 1 3)) 4
    refine ⟨trivial, trivial, .inr ?_⟩
    rw [length]
    show 0 + 1 + 3 + _ < 2 ^ 32
    omega
  · have few := addition_le (leNat (peeked b 0 1)) 1
    refine ⟨trivial, .inr ?_⟩
    rw [length]
    show 0 + 1 + _ < 2 ^ 32
    omega

end Arrays

end Mtproto.Tgnet.Memory
