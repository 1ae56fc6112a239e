import Mtproto.Streams.Java

/-!
# What the Java reads see

The readers of `NativeByteBuffer.java` on a `java.nio.ByteBuffer`.  All of them but one depend on
the bytes between the position and the limit only (`Views`).  `readInputStream` sets the limit
behind the length that it has read, and a length that ends behind the limit lets it read what an
earlier message has left there.
-/

namespace Mtproto.Java

open Bytes Lib Lib.Interruptible

/-! ## `java.nio.ByteBuffer` -/

namespace ByteBuffer

/-- The bytes between the position and the limit. -/
def unread (b : ByteBuffer) : List UInt8 := (b.array.drop b.position).take (b.limit - b.position)

/-- The buffer with `n` more bytes read. -/
def advance (b : ByteBuffer) (n : ℕ) : ByteBuffer := { b with position := b.position + n }

/-- `get()`. -/
def get : Interruptible ByteBuffer UInt8 := fun b =>
  if b.position < b.limit then (b.array[b.position]?, b.advance 1) else (none, b)

/-- `get(byte[])`, which takes all or nothing. -/
def getBytes (length : ℕ) : Interruptible ByteBuffer (List UInt8) := fun b =>
  if length > b.limit - b.position then (none, b)
  else (some ((b.array.drop b.position).take length), b.advance length)

/-- `getInt()` and `getLong()` in little-endian order. -/
def getWord (width : ℕ) : Interruptible ByteBuffer ℕ := do
  let b ← getBytes width
  pure (leNat b)

/-- `position()`. -/
def getPosition : Interruptible ByteBuffer ℕ := fun b => (some b.position, b)

/-- `limit()`. -/
def getLimit : Interruptible ByteBuffer ℕ := fun b => (some b.limit, b)

/-- `position(int)`. -/
def setPosition (position : ℕ) : Interruptible ByteBuffer Unit := fun b =>
  if position > b.limit then (none, b) else (some (), { b with position := position })

/-- `limit(int)`: a position behind the new limit is moved to it. -/
def setLimit (limit : ℕ) : Interruptible ByteBuffer Unit := fun b =>
  if limit > b.array.length then (none, b)
  else (some (),
    { b with limit := limit, position := if b.position > limit then limit else b.position })

/-- `target.put(buffer)`: all that remains of the buffer, or nothing. -/
def transfer (target : ByteBuffer) : Interruptible ByteBuffer ByteBuffer := fun b =>
  match put b.unread target with
  | (some _, target) => (some target, { b with position := b.limit })
  | (none, _) => (none, b)

/-! ## Readers -/

/-- The length of a byte array and the number of bytes that spell it. -/
def readLength : Interruptible ByteBuffer (ℕ × ℕ) := do
  let l ← get
  if l.toNat ≥ 254 then do
    let b0 ← get
    let b1 ← get
    let b2 ← get
    pure (leNat [b0, b1, b2], 4)
  else pure (l.toNat, 1)

/-- `buffer.get()` for its effect. -/
def skipByte : Interruptible ByteBuffer Unit := do
  let _ ← get
  pure ()

/-- The common body of `readByteArray` and `readString`. -/
def readFramed : Interruptible ByteBuffer (List UInt8) := do
  let (l, sl) ← readLength
  let b ← getBytes l
  whileUnaligned skipByte l sl
  pure b

/-- The stores that the pool hands out: bytes of earlier messages, as many as are wanted or more. -/
structure Pool where
  store : ℕ → List UInt8
  large : ∀ size, size ≤ (store size).length

/-- `new NativeByteBuffer(size)`. -/
def Pool.newBuffer (pool : Pool) (size : ℕ) : ByteBuffer := ⟨pool.store size, 0, size⟩

/-- `readInputStream` behind the length. -/
def copyStream (pool : Pool) (l sl : ℕ) : Interruptible ByteBuffer ByteBuffer := do
  let old ← getLimit
  let p ← getPosition
  setLimit (p + l)
  let b ← transfer (pool.newBuffer l)
  setLimit old
  whileUnaligned skipByte l sl
  pure { b with position := 0 }

/-- The body of `readInputStream`. -/
def readStream (pool : Pool) : Interruptible ByteBuffer ByteBuffer := do
  let (l, sl) ← readLength
  copyStream pool l sl

end ByteBuffer

/-- The readers. -/
inductive ReadOp
  | int
  | long
  | double
  | boolean
  | byte
  | byteArray
  | bytes (i : ℤ)
  | string
  | inputStream
deriving DecidableEq, Repr

/-- What a reader returns: of a stream the bytes that can be read of it, or the null pointer.  Some
readers let the exception through. -/
inductive ReadValue
  | int (x : BitVec 32)
  | long (x : BitVec 64)
  | double (bits : BitVec 64)
  | boolean (x : Bool)
  | byte (x : UInt8)
  | byteArray (b : List UInt8)
  | bytes (b : List UInt8)
  | string (units : List UInt16)
  | inputStream (content : Option (List UInt8))
  | thrown
deriving DecidableEq, Repr

namespace ByteBuffer

/-- A reader whose exception is caught, with the value that is returned then. -/
def catching {α : Type} (read : Interruptible ByteBuffer α) (default : α) (b : ByteBuffer) :
    α × ByteBuffer :=
  ((read b).1.getD default, (read b).2)

def readInt (b : ByteBuffer) : BitVec 32 × ByteBuffer :=
  (catching (getWord 4) 0 b).map (BitVec.ofNat 32) id

def readLong (b : ByteBuffer) : BitVec 64 × ByteBuffer :=
  (catching (getWord 8) 0 b).map (BitVec.ofNat 64) id

/-- A failed `readString` goes back to where it started. -/
def readString (malformed : List UInt8 → List UInt16) (b : ByteBuffer) : List UInt16 × ByteBuffer :=
  match readFramed b with
  | (some bytes, t) => (newString malformed bytes, t)
  | (none, t) => ([], (setPosition b.position t).2)

/-- One read. -/
def read (malformed : List UInt8 → List UInt16) (pool : Pool) : ReadOp → ByteBuffer →
    ReadValue × ByteBuffer
  | .int, b => (readInt b).map .int id
  | .long, b => (readLong b).map .long id
  | .double, b => (readLong b).map .double id
  | .boolean, b => (readInt b).map (fun constructor => .boolean (constructor == boolTrue)) id
  | .byte, b => (((get b).1.map .byte).getD .thrown, (get b).2)
  | .byteArray, b => (catching readFramed [] b).map .byteArray id
  | .bytes i, b =>
      -- the array is made in front of the `try`
      if i < 0 then (.thrown, b)
      else (catching (getBytes i.toNat) (List.replicate i.toNat 0) b).map .bytes id
  | .string, b => (readString malformed b).map .string id
  | .inputStream, b => (.inputStream ((readStream pool b).1.map unread), (readStream pool b).2)

/-- A sequence of reads, each with the pool as it is then. -/
def readAll (malformed : List UInt8 → List UInt16) (pools : ℕ → Pool) :
    List ReadOp → ByteBuffer → List ReadValue × ByteBuffer
  | [], b => ([], b)
  | op :: ops, b =>
      let (value, t) := read malformed (pools 0) op b
      let (values, u) := readAll malformed (fun n => pools (n + 1)) ops t
      (value :: values, u)

/-! ## What is between the position and the limit -/

section Views

variable {α β : Type} {b : ByteBuffer} {n : ℕ}

theorem length_unread (h : b.Wf) : b.unread.length = b.limit - b.position := by
  have := h.limit_le
  rw [unread, List.length_take, List.length_drop]
  omega

theorem unread_advance (b : ByteBuffer) (n : ℕ) : (b.advance n).unread = b.unread.drop n := by
  show (b.array.drop (b.position + n)).take (b.limit - (b.position + n)) = _
  rw [unread, List.drop_take, List.drop_drop, Nat.sub_add_eq]

theorem advance_zero (b : ByteBuffer) : b.advance 0 = b := rfl

theorem advance_advance (b : ByteBuffer) (m n : ℕ) :
    (b.advance m).advance n = b.advance (m + n) := by
  simp only [advance, Nat.add_assoc]

theorem Wf.advance (h : b.Wf) (hn : n ≤ b.unread.length) : (b.advance n).Wf := by
  rw [length_unread h] at hn
  have := h.position_le
  refine ⟨?_, h.limit_le, h.length_lt⟩
  show b.position + n ≤ b.limit
  omega

/-- The program reads as `r` does, of the bytes between the position and the limit, and moves the
position only. -/
def Views (m : Interruptible ByteBuffer α) (r : Buffer α) : Prop :=
  ∀ b : ByteBuffer, b.Wf → ∃ n, n ≤ b.unread.length ∧ (r b.unread).2 = b.unread.drop n ∧
    m b = ((r b.unread).1, b.advance n)

theorem views_pure (a : α) : Views (pure a) (pure a) := fun _ _ => ⟨0, Nat.zero_le _, rfl, rfl⟩

theorem Views.bind {m : Interruptible ByteBuffer α} {r : Buffer α}
    {f : α → Interruptible ByteBuffer β}
    {g : α → Buffer β} (hm : Views m r) (hf : ∀ a, Views (f a) (g a)) :
    Views (m >>= f) (r >>= g) := by
  intro b wf
  obtain ⟨n, le, rest, run⟩ := hm b wf
  have hr : r b.unread = ((r b.unread).1, b.unread.drop n) := Prod.ext rfl rest
  rcases first : (r b.unread).1 with _ | a
  · rw [first] at run hr
    have hbind : (r >>= g) b.unread = (none, b.unread.drop n) := by simp only [Bind.bind, hr]
    refine ⟨n, le, ?_, ?_⟩
    · rw [hbind]
    · rw [bind_of_none run, hbind]
  · rw [first] at run hr
    obtain ⟨k, le', rest', run'⟩ := hf a (b.advance n) (wf.advance le)
    rw [unread_advance] at le' rest' run'
    have hbind : (r >>= g) b.unread = g a (b.unread.drop n) := by simp only [Bind.bind, hr]
    refine ⟨n + k, ?_, ?_, ?_⟩
    · rw [List.length_drop] at le'
      omega
    · rw [hbind, rest', List.drop_drop]
    · rw [bind_of_some run, run', hbind, advance_advance]

/-- The next byte. -/
theorem unread_eq_cons (h : b.Wf) (more : b.position < b.limit) :
    ∃ x, b.array[b.position]? = some x ∧ b.unread = x :: (b.advance 1).unread := by
  have inside : b.position < b.array.length := lt_of_lt_of_le more h.limit_le
  obtain ⟨k, hk⟩ : ∃ k, b.limit - b.position = k + 1 := ⟨b.limit - b.position - 1, by omega⟩
  have hk' : b.limit - (b.position + 1) = k := by omega
  refine ⟨b.array[b.position], List.getElem?_eq_getElem inside, ?_⟩
  show (b.array.drop b.position).take (b.limit - b.position) =
    _ :: (b.array.drop (b.position + 1)).take (b.limit - (b.position + 1))
  rw [hk, hk', List.drop_eq_getElem_cons inside, List.take_succ_cons]

theorem views_get : Views get Buffer.get := by
  intro b wf
  unfold get
  by_cases more : b.position < b.limit
  · obtain ⟨x, found, cons⟩ := unread_eq_cons wf more
    rw [if_pos more, found, cons, unread_advance]
    exact ⟨1, Nat.le_add_left _ _, rfl, rfl⟩
  · have hunread : b.unread = [] := List.eq_nil_of_length_eq_zero (by rw [length_unread wf]; omega)
    rw [if_neg more, hunread]
    exact ⟨0, le_rfl, rfl, rfl⟩

theorem views_getBytes (length : ℕ) : Views (getBytes length) (Buffer.getBytes length) := by
  intro b wf
  have hlength := length_unread wf
  unfold getBytes Buffer.getBytes
  by_cases fits : length ≤ b.unread.length
  · have allowed : ¬ length > b.limit - b.position := by omega
    rw [if_neg allowed, if_pos fits]
    refine ⟨length, fits, rfl, ?_⟩
    rw [unread, List.take_take, Nat.min_eq_left (by omega)]
  · have refused : length > b.limit - b.position := by omega
    rw [if_pos refused, if_neg fits]
    exact ⟨0, Nat.zero_le _, rfl, rfl⟩

theorem views_getWord (width : ℕ) : Views (getWord width) (Buffer.getWord width) :=
  (views_getBytes width).bind fun b => views_pure (leNat b)

theorem views_readLength : Views readLength Java.readLength := by
  refine views_get.bind fun l => ?_
  split
  · exact views_get.bind fun b0 => views_get.bind fun b1 => views_get.bind fun b2 => views_pure _
  · exact views_pure _

theorem views_skip (n : ℕ) : Views (rounds skipByte n) (skip n) := by
  induction n with
  | zero => exact views_pure ()
  | succ n ih =>
    have hskip : skip (n + 1) = (Buffer.get >>= fun _ => pure ()) >>= fun _ => skip n := by
      funext input
      cases input <;> rfl
    rw [hskip]
    exact (views_get.bind fun _ => views_pure ()).bind fun _ => ih

theorem views_whileUnaligned (l i : ℕ) :
    Views (whileUnaligned skipByte l i) (skip (paddingLength (l + i))) := by
  rw [whileUnaligned_eq]
  exact views_skip _

theorem views_readFramed : Views readFramed Java.readFramed := by
  refine views_readLength.bind fun ⟨l, sl⟩ => (views_getBytes l).bind fun b => ?_
  exact (views_whileUnaligned l sl).bind fun _ => views_pure b

end Views

/-! ## Streams -/

section Streams

variable {b : ByteBuffer} {l : ℕ}

/-- The buffer at its limit. -/
def exhausted (b : ByteBuffer) : ByteBuffer := { b with position := b.limit }

theorem transfer_newBuffer (pool : Pool) (h : b.unread.length = l) :
    ∃ stream : ByteBuffer, ({ stream with position := 0 } : ByteBuffer).unread = b.unread ∧
      transfer (pool.newBuffer l) b = (some stream, b.exhausted) := by
  have put_eq : put b.unread (pool.newBuffer l) =
      (some (), (pool.newBuffer l).putting b.unread) := by
    show (if b.unread.length > l - 0 then crash else modify _ : Interruptible ByteBuffer Unit) _ = _
    rw [if_neg (by omega)]
    rfl
  refine ⟨(pool.newBuffer l).putting b.unread, ?_, ?_⟩
  · show ((splice (pool.store l) 0 b.unread).drop 0).take (l - 0) = _
    have front : (splice (pool.store l) 0 b.unread).take (0 + b.unread.length) =
        (pool.store l).take 0 ++ b.unread := take_splice (Nat.zero_le _)
    rwa [List.take_zero, List.nil_append, Nat.zero_add, h] at front
  · rw [transfer, put_eq]
    rfl

/-- The copy of a stream, from where its length has been read: either the new limit is refused, or
the bytes up to it are copied and the old limit is set again. -/
theorem copyStream_cases (wf : b.Wf) (pool : Pool) (l sl : ℕ) :
    (b.array.length < b.position + l ∧ copyStream pool l sl b = (none, b)) ∨
    (b.position + l ≤ b.array.length ∧ ∃ stream : ByteBuffer,
      stream.unread = (b.array.drop b.position).take l ∧
      copyStream pool l sl b =
        (do whileUnaligned skipByte l sl; pure stream : Interruptible ByteBuffer ByteBuffer)
        (if l ≤ b.unread.length then b.advance l else b.exhausted)) := by
  have hlimit : getLimit b = (some b.limit, b) := rfl
  have hposition : getPosition b = (some b.position, b) := rfl
  have := wf.position_le
  have := wf.limit_le
  have hlength := length_unread wf
  unfold copyStream
  rw [bind_of_some hlimit, bind_of_some hposition]
  by_cases refused : b.position + l > b.array.length
  · left
    have hset : setLimit (b.position + l) b = (none, b) := if_pos refused
    rw [bind_of_none hset]
    exact ⟨refused, rfl⟩
  · right
    refine ⟨by omega, ?_⟩
    have hset : setLimit (b.position + l) b = (some (), { b with limit := b.position + l }) := by
      rw [setLimit, if_neg refused, if_neg (by omega)]
    have wide : ({ b with limit := b.position + l } : ByteBuffer).unread =
        (b.array.drop b.position).take l := by
      show (b.array.drop b.position).take (b.position + l - b.position) = _
      rw [Nat.add_sub_cancel_left]
    have many : ({ b with limit := b.position + l } : ByteBuffer).unread.length = l := by
      rw [wide, List.length_take, List.length_drop]
      omega
    obtain ⟨stream, content, copied⟩ := transfer_newBuffer pool many
    refine ⟨{ stream with position := 0 }, content.trans wide, ?_⟩
    rw [bind_of_some hset, bind_of_some copied]
    have back : setLimit b.limit ({ b with limit := b.position + l } : ByteBuffer).exhausted =
        (some (), if l ≤ b.unread.length then b.advance l else b.exhausted) := by
      show (if b.limit > b.array.length then _ else _) = _
      rw [if_neg (by omega)]
      show (some (), ({ b with
        limit := b.limit
        position := if b.position + l > b.limit then b.limit else b.position + l } : ByteBuffer)) =
          _
      by_cases fits : l ≤ b.unread.length
      · rw [if_pos fits, if_neg (by omega)]
        rfl
      · rw [if_neg fits, if_pos (by omega)]
        rfl
    rw [bind_of_some back]

/-- At the limit there is nothing to skip over. -/
theorem whileUnaligned_exhausted (b : ByteBuffer) (l sl : ℕ) :
    whileUnaligned skipByte l sl b.exhausted =
      (if (l + sl) % 4 = 0 then some () else none, b.exhausted) := by
  rw [whileUnaligned_eq]
  have hget : get b.exhausted = (none, b.exhausted) := if_neg (lt_irrefl _)
  split
  · have none : paddingLength (l + sl) = 0 := by
      unfold paddingLength
      omega
    rw [none]
    rfl
  · obtain ⟨n, hn⟩ : ∃ n, paddingLength (l + sl) = n + 1 := ⟨paddingLength (l + sl) - 1, by
      unfold paddingLength
      omega⟩
    rw [hn, rounds]
    have hskip : skipByte b.exhausted = (none, b.exhausted) := bind_of_none hget
    rw [bind_of_none hskip]

end Streams

/-! ## Two buffers that agree -/

/-- The same position, limit and capacity, and the same bytes between the position and the limit. -/
structure Agrees (b c : ByteBuffer) : Prop where
  position : c.position = b.position
  limit : c.limit = b.limit
  capacity : c.array.length = b.array.length
  unread : c.unread = b.unread

/-- The length of a stream ends behind the limit, but not behind the capacity, and no padding is
due. -/
def Overreaches (b : ByteBuffer) : Prop :=
  match readLength b with
  | (some (l, sl), t) =>
      t.unread.length < l ∧ t.position + l ≤ t.array.length ∧ (l + sl) % 4 = 0
  | (none, _) => False

/-- No stream of the sequence overreaches. -/
def Contained (malformed : List UInt8 → List UInt16) (pools : ℕ → Pool) : List ReadOp → ByteBuffer →
    Prop
  | [], _ => True
  | op :: ops, b =>
      ¬ (op = .inputStream ∧ b.Overreaches) ∧
        Contained malformed (fun n => pools (n + 1)) ops (read malformed (pools 0) op b).2

section Agrees

variable {α : Type} {b c : ByteBuffer}

theorem Agrees.advance (h : b.Agrees c) (n : ℕ) : (b.advance n).Agrees (c.advance n) := by
  refine ⟨?_, h.limit, h.capacity, ?_⟩
  · show c.position + n = b.position + n
    rw [h.position]
  · rw [unread_advance, unread_advance, h.unread]

theorem Agrees.exhausted (h : b.Agrees c) : b.exhausted.Agrees c.exhausted := by
  refine ⟨h.limit, h.limit, h.capacity, ?_⟩
  show (c.array.drop c.limit).take (c.limit - c.limit) =
    (b.array.drop b.limit).take (b.limit - b.limit)
  rw [Nat.sub_self, Nat.sub_self, List.take_zero, List.take_zero]

/-- A program that reads between the position and the limit does not tell them apart. -/
theorem Views.agrees {m : Interruptible ByteBuffer α} {r : Buffer α} (h : Views m r) (hb : b.Wf)
    (hc : c.Wf)
    (agrees : b.Agrees c) : (m c).1 = (m b).1 ∧ (m b).2.Agrees (m c).2 := by
  obtain ⟨n, le, rest, run⟩ := h b hb
  obtain ⟨k, le', rest', run'⟩ := h c hc
  rw [agrees.unread] at le' rest' run'
  have same := congrArg List.length (rest.symm.trans rest')
  rw [List.length_drop, List.length_drop] at same
  obtain rfl : n = k := by omega
  rw [run, run']
  exact ⟨rfl, agrees.advance n⟩

/-- A read leaves the limit and the bytes. -/
structure Kept (b t : ByteBuffer) : Prop where
  wf : t.Wf
  limit : t.limit = b.limit
  array : t.array = b.array

theorem Kept.refl (hb : b.Wf) : b.Kept b := ⟨hb, rfl, rfl⟩

theorem Kept.trans {t : ByteBuffer} (first : b.Kept c) (second : c.Kept t) : b.Kept t :=
  ⟨second.wf, second.limit.trans first.limit, second.array.trans first.array⟩

theorem Views.kept {m : Interruptible ByteBuffer α} {r : Buffer α} (h : Views m r) (hb : b.Wf) :
    b.Kept (m b).2 := by
  obtain ⟨n, le, -, run⟩ := h b hb
  rw [run]
  exact ⟨hb.advance le, rfl, rfl⟩

theorem kept_exhausted (hb : b.Wf) : b.Kept b.exhausted :=
  ⟨⟨le_rfl, hb.limit_le, hb.length_lt⟩, rfl, rfl⟩

/-- A failed `readString` leaves the buffer as it was. -/
theorem readString_eq (malformed : List UInt8 → List UInt16) (hb : b.Wf) :
    readString malformed b = (((readFramed b).1.map (newString malformed)).getD [],
      if (readFramed b).1.isSome then (readFramed b).2 else b) := by
  obtain ⟨n, le, -, run⟩ := views_readFramed b hb
  have back : (setPosition b.position (b.advance n)).2 = b := by
    have := hb.position_le
    show (if b.position > b.limit then _ else _ : Option Unit × ByteBuffer).2 = b
    rw [if_neg (by omega)]
    rfl
  unfold readString
  rw [run]
  rcases (Java.readFramed b.unread).1 with _ | bytes
  · dsimp only
    rw [back]
    rfl
  · rfl

/-- A value at the end of a program that returns none. -/
theorem run_then_pure (m : Interruptible ByteBuffer Unit) (a : α) (b : ByteBuffer) :
    (do m; pure a : Interruptible ByteBuffer α) b = ((m b).1.map fun _ => a, (m b).2) := by
  rcases run : m b with ⟨_ | _, t⟩
  · rw [bind_of_none run]
    rfl
  · rw [bind_of_some run]
    rfl

/-- Bytes in front of the limit. -/
theorem take_drop_of_le {l : ℕ} (hb : b.Wf) (fits : l ≤ b.unread.length) :
    (b.array.drop b.position).take l = b.unread.take l := by
  rw [length_unread hb] at fits
  rw [unread, List.take_take, Nat.min_eq_left fits]

theorem copyStream_agrees (pool pool' : Pool) {l sl : ℕ} (hb : b.Wf) (hc : c.Wf)
    (agrees : b.Agrees c)
    (contained : ¬ (b.unread.length < l ∧ b.position + l ≤ b.array.length ∧ (l + sl) % 4 = 0)) :
    (copyStream pool' l sl c).1.map unread = (copyStream pool l sl b).1.map unread ∧
      (copyStream pool l sl b).2.Agrees (copyStream pool' l sl c).2 := by
  have hposition := agrees.position
  have hcapacity := agrees.capacity
  rcases copyStream_cases hb pool l sl with ⟨beyond, run⟩ | ⟨under, stream, content, run⟩
  · rcases copyStream_cases hc pool' l sl with ⟨-, run'⟩ | ⟨under', -⟩
    · rw [run, run']
      exact ⟨rfl, agrees⟩
    · omega
  · rcases copyStream_cases hc pool' l sl with ⟨beyond', -⟩ | ⟨-, stream', content', run'⟩
    · omega
    rw [run, run', run_then_pure, run_then_pure, agrees.unread]
    by_cases fits : l ≤ b.unread.length
    · have same : stream'.unread = stream.unread := by
        rw [content, content', take_drop_of_le hb fits,
          take_drop_of_le hc (by rw [agrees.unread]; exact fits), agrees.unread]
      obtain ⟨value, later⟩ := (views_whileUnaligned l sl).agrees (hb.advance fits)
        (hc.advance (by rw [agrees.unread]; exact fits)) (agrees.advance l)
      rw [if_pos fits, if_pos fits, value]
      refine ⟨?_, later⟩
      rw [Option.map_map, Option.map_map]
      simp only [Function.comp_def, same]
    · have unaligned : ¬ (l + sl) % 4 = 0 := fun aligned => contained ⟨by omega, under, aligned⟩
      rw [if_neg fits, if_neg fits, whileUnaligned_exhausted, whileUnaligned_exhausted,
        if_neg unaligned]
      exact ⟨rfl, agrees.exhausted⟩

/-- A stream that does not overreach is the same in both. -/
theorem readStream_agrees (pool pool' : Pool) (hb : b.Wf) (hc : c.Wf) (agrees : b.Agrees c)
    (contained : ¬ b.Overreaches) :
    (readStream pool' c).1.map unread = (readStream pool b).1.map unread ∧
      (readStream pool b).2.Agrees (readStream pool' c).2 := by
  obtain ⟨value, agrees'⟩ := views_readLength.agrees hb hc agrees
  have wf := (views_readLength.kept hb).wf
  have wf' := (views_readLength.kept hc).wf
  unfold Overreaches at contained
  rcases run : readLength b with ⟨_ | ⟨l, sl⟩, t⟩
  · have run' : readLength c = (none, (readLength c).2) := Prod.ext (by rw [value, run]) rfl
    rw [run] at agrees'
    unfold readStream
    rw [bind_of_none run, bind_of_none run']
    exact ⟨rfl, agrees'⟩
  · have run' : readLength c = (some (l, sl), (readLength c).2) := Prod.ext (by rw [value, run]) rfl
    rw [run] at agrees' wf contained
    unfold readStream
    rw [bind_of_some run, bind_of_some run']
    exact copyStream_agrees pool pool' wf wf' agrees' contained

/-- A read tells two buffers apart only when its stream overreaches. -/
theorem read_agrees (malformed : List UInt8 → List UInt16) (pool pool' : Pool) (op : ReadOp)
    (hb : b.Wf)
    (hc : c.Wf) (agrees : b.Agrees c) (contained : ¬ (op = .inputStream ∧ b.Overreaches)) :
    (read malformed pool' op c).1 = (read malformed pool op b).1 ∧
      (read malformed pool op b).2.Agrees (read malformed pool' op c).2 := by
  have word (width : ℕ) := (views_getWord width).agrees hb hc agrees
  have framed := views_readFramed.agrees hb hc agrees
  cases op with
  | int => exact ⟨by simp only [read, readInt, catching, Prod.map, (word 4).1], (word 4).2⟩
  | long => exact ⟨by simp only [read, readLong, catching, Prod.map, (word 8).1], (word 8).2⟩
  | double => exact ⟨by simp only [read, readLong, catching, Prod.map, (word 8).1], (word 8).2⟩
  | boolean => exact ⟨by simp only [read, readInt, catching, Prod.map, (word 4).1], (word 4).2⟩
  | byte =>
      obtain ⟨value, later⟩ := views_get.agrees hb hc agrees
      exact ⟨by simp only [read, value], later⟩
  | byteArray => exact ⟨by simp only [read, catching, Prod.map, framed.1], framed.2⟩
  | bytes i =>
      obtain ⟨value, later⟩ := (views_getBytes i.toNat).agrees hb hc agrees
      simp only [read]
      split_ifs with negative
      · exact ⟨rfl, agrees⟩
      · exact ⟨by simp only [catching, Prod.map, value], later⟩
  | string =>
      simp only [read, readString_eq malformed hb, readString_eq malformed hc, framed.1, Prod.map,
        id]
      refine ⟨trivial, ?_⟩
      split_ifs
      · exact framed.2
      · exact agrees
  | inputStream =>
      have within : ¬ b.Overreaches := fun overreaches => contained ⟨rfl, overreaches⟩
      obtain ⟨value, later⟩ := readStream_agrees pool pool' hb hc agrees within
      exact ⟨congrArg ReadValue.inputStream value, later⟩

theorem readStream_kept (pool : Pool) (hb : b.Wf) : b.Kept (readStream pool b).2 := by
  have first := views_readLength.kept hb
  unfold readStream
  rcases run : readLength b with ⟨_ | ⟨l, sl⟩, t⟩
  · rw [run] at first
    rw [bind_of_none run]
    exact first
  · rw [run] at first
    rw [bind_of_some run]
    refine first.trans ?_
    rcases copyStream_cases first.wf pool l sl with ⟨-, copied⟩ | ⟨-, stream, -, copied⟩
    · show t.Kept (copyStream pool l sl t).2
      rw [copied]
      exact Kept.refl first.wf
    · show t.Kept (copyStream pool l sl t).2
      rw [copied, run_then_pure]
      split_ifs with fits
      · have moved : t.Kept (t.advance l) := ⟨first.wf.advance fits, rfl, rfl⟩
        exact moved.trans ((views_whileUnaligned l sl).kept moved.wf)
      · rw [whileUnaligned_exhausted]
        exact kept_exhausted first.wf

theorem read_kept (malformed : List UInt8 → List UInt16) (pool : Pool) (op : ReadOp) (hb : b.Wf) :
    b.Kept (read malformed pool op b).2 := by
  cases op with
  | int => exact (views_getWord 4).kept hb
  | long => exact (views_getWord 8).kept hb
  | double => exact (views_getWord 8).kept hb
  | boolean => exact (views_getWord 4).kept hb
  | byte => exact views_get.kept hb
  | byteArray => exact views_readFramed.kept hb
  | bytes i =>
      simp only [read]
      split_ifs
      · exact Kept.refl hb
      · exact (views_getBytes i.toNat).kept hb
  | string =>
      simp only [read, readString_eq malformed hb, Prod.map, id]
      split_ifs
      · exact views_readFramed.kept hb
      · exact Kept.refl hb
  | inputStream => exact readStream_kept pool hb

end Agrees

/-! ## Sequences of reads -/

section Sequences

variable {malformed : List UInt8 → List UInt16} {pools pools' : ℕ → Pool} {ops : List ReadOp}
  {b c : ByteBuffer}

theorem readAll_kept (hb : b.Wf) : b.Kept (readAll malformed pools ops b).2 := by
  induction ops generalizing b pools with
  | nil => exact Kept.refl hb
  | cons op ops ih =>
    have first := read_kept malformed (pools 0) op hb
    exact first.trans (ih first.wf)

theorem readAll_agrees (hb : b.Wf) (hc : c.Wf) (agrees : b.Agrees c)
    (contained : Contained malformed pools ops b) :
    (readAll malformed pools' ops c).1 = (readAll malformed pools ops b).1 ∧
      (readAll malformed pools ops b).2.Agrees (readAll malformed pools' ops c).2 := by
  induction ops generalizing b c pools pools' with
  | nil => exact ⟨rfl, agrees⟩
  | cons op ops ih =>
    obtain ⟨head, tail⟩ := contained
    obtain ⟨value, later⟩ := read_agrees malformed (pools 0) (pools' 0) op hb hc agrees head
    have wf := (read_kept malformed (pools 0) op hb).wf
    have wf' := (read_kept malformed (pools' 0) op hc).wf
    exact ⟨congrArg₂ List.cons value (ih wf wf' later tail).1, (ih wf wf' later tail).2⟩

/-- A stream that overreaches shows the byte behind the limit. -/
theorem readStream_differs (pool pool' : Pool) (hb : b.Wf) (hc : c.Wf) (agrees : b.Agrees c)
    (overreaches : b.Overreaches) (different : c.array[b.limit]? ≠ b.array[b.limit]?) :
    (readStream pool' c).1.map unread ≠ (readStream pool b).1.map unread := by
  obtain ⟨value, agrees'⟩ := views_readLength.agrees hb hc agrees
  have first := views_readLength.kept hb
  have first' := views_readLength.kept hc
  unfold Overreaches at overreaches
  rcases run : readLength b with ⟨_ | ⟨l, sl⟩, t⟩
  · rw [run] at overreaches
    exact overreaches.elim
  have run' : readLength c = (some (l, sl), (readLength c).2) := Prod.ext (by rw [value, run]) rfl
  rw [run] at agrees' first overreaches
  unfold readStream
  rw [bind_of_some run, bind_of_some run']
  generalize (readLength c).2 = u at agrees' first'
  change t.Agrees u at agrees'
  change b.Kept t at first
  obtain ⟨behind, inside, aligned⟩ := overreaches
  have hposition := agrees'.position
  have hcapacity := agrees'.capacity
  show (copyStream pool' l sl u).1.map unread ≠ (copyStream pool l sl t).1.map unread
  rcases copyStream_cases first.wf pool l sl with ⟨beyond, -⟩ | ⟨-, stream, content, copied⟩
  · omega
  rcases copyStream_cases first'.wf pool' l sl with ⟨beyond, -⟩ | ⟨-, stream', content', copied'⟩
  · omega
  rw [copied, copied', run_then_pure, run_then_pure, agrees'.unread, if_neg (by omega),
    if_neg (by omega), whileUnaligned_exhausted, whileUnaligned_exhausted, if_pos aligned]
  intro same
  have bytes : stream'.unread = stream.unread := Option.some.inj same
  rw [content, content', hposition, first.array, first'.array] at bytes
  apply different
  have hle := first.wf.position_le
  rw [length_unread first.wf] at behind
  rw [first.limit] at hle behind
  have index := congrArg (fun xs => xs[b.limit - t.position]?) bytes
  simp only [List.getElem?_take_of_lt behind, List.getElem?_drop, Nat.add_sub_cancel' hle] at index
  exact index

/-- A buffer that another byte follows behind the limit. -/
theorem readAll_differs (hb : b.Wf) (hc : c.Wf) (agrees : b.Agrees c)
    (different : c.array[b.limit]? ≠ b.array[b.limit]?)
    (leaks : ¬ Contained malformed pools ops b) :
    (readAll malformed pools' ops c).1 ≠ (readAll malformed pools ops b).1 := by
  induction ops generalizing b c pools pools' with
  | nil => exact absurd trivial leaks
  | cons op ops ih =>
    intro same
    obtain ⟨head, tail⟩ := List.cons.inj same
    by_cases here : op = .inputStream ∧ b.Overreaches
    · obtain ⟨rfl, overreaches⟩ := here
      exact readStream_differs (pools 0) (pools' 0) hb hc agrees overreaches different
        (ReadValue.inputStream.inj head)
    · have kept := read_kept malformed (pools 0) op hb
      have kept' := read_kept malformed (pools' 0) op hc
      obtain ⟨-, later⟩ := read_agrees malformed (pools 0) (pools' 0) op hb hc agrees here
      refine ih kept.wf kept'.wf later ?_ (fun contained => leaks ⟨here, contained⟩) tail
      rwa [kept.array, kept'.array, kept.limit]

/-- Without bytes behind the limit nothing overreaches. -/
theorem contained_of_full (hb : b.Wf) (full : b.limit = b.array.length) :
    Contained malformed pools ops b := by
  induction ops generalizing b pools with
  | nil => trivial
  | cons op ops ih =>
    have kept := read_kept malformed (pools 0) op hb
    refine ⟨?_, ih kept.wf (by rw [kept.limit, kept.array, full])⟩
    rintro ⟨-, overreaches⟩
    have first := views_readLength.kept hb
    unfold Overreaches at overreaches
    rcases run : readLength b with ⟨_ | ⟨l, sl⟩, t⟩
    · rw [run] at overreaches
      exact overreaches
    · rw [run] at overreaches first
      obtain ⟨behind, inside, -⟩ := overreaches
      have hlimit := first.limit
      have harray := congrArg List.length first.array
      have hle := first.wf.position_le
      rw [length_unread first.wf] at behind
      dsimp only at hlimit harray hle behind inside
      omega

/-- The reads of a sequence see nothing but the bytes between the position and the limit: with every
buffer that agrees there they return the same values and lead to the same position and limit. -/
def SeesOnlyUnread (malformed : List UInt8 → List UInt16) (pools : ℕ → Pool) (ops : List ReadOp)
    (b : ByteBuffer) : Prop :=
  ∀ (pools' : ℕ → Pool) (c : ByteBuffer), c.Wf → b.Agrees c →
    (readAll malformed pools' ops c).1 = (readAll malformed pools ops b).1 ∧
    (readAll malformed pools' ops c).2.position = (readAll malformed pools ops b).2.position ∧
    (readAll malformed pools' ops c).2.limit = (readAll malformed pools ops b).2.limit

/-- A sequence of reads sees bytes behind the limit exactly when one of its streams overreaches, and
it never changes the limit. -/
theorem reads_see_only_unread_iff (malformed : List UInt8 → List UInt16) (pools : ℕ → Pool)
    (ops : List ReadOp) (b : ByteBuffer) (wf : b.Wf) :
    (SeesOnlyUnread malformed pools ops b ↔ Contained malformed pools ops b) ∧
      (readAll malformed pools ops b).2.limit = b.limit := by
  refine ⟨⟨?_, ?_⟩, (readAll_kept wf).limit⟩
  · intro sees
    by_contra leaks
    have notFull : b.limit ≠ b.array.length := fun full => leaks (contained_of_full wf full)
    have inside : b.limit < b.array.length := lt_of_le_of_ne wf.limit_le notFull
    -- the same buffer with another byte behind the limit
    let c : ByteBuffer := { b with array := b.array.set b.limit (b.array[b.limit] + 1) }
    have length : c.array.length = b.array.length := List.length_set
    have wf' : c.Wf := ⟨wf.position_le, wf.limit_le.trans length.ge, length.trans_lt wf.length_lt⟩
    have agrees : b.Agrees c := by
      refine ⟨rfl, rfl, length, ?_⟩
      show ((b.array.set b.limit _).drop b.position).take (b.limit - b.position) = _
      rw [List.drop_set, if_neg (Nat.not_lt.2 wf.position_le), List.take_set_of_le le_rfl]
      rfl
    have different : c.array[b.limit]? ≠ b.array[b.limit]? := by
      show (b.array.set b.limit _)[b.limit]? ≠ _
      rw [List.getElem?_set_self inside, List.getElem?_eq_getElem inside]
      intro same
      have same : b.array[b.limit] + 1 = b.array[b.limit] := Option.some.inj same
      simp at same
    exact readAll_differs wf wf' agrees different leaks (sees pools c wf' agrees).1
  · intro contained pools' c wf' agrees
    obtain ⟨values, last⟩ := readAll_agrees wf wf' agrees contained
    exact ⟨values, last.position, last.limit⟩

end Sequences

/-! ## A stream behind the limit -/

/-- The length of a stream of three bytes, and one byte of an earlier message for each. -/
def leaking (old : UInt8) : ByteBuffer := ⟨[3, 7, old, old], 0, 2⟩

/-- Pools of zeros. -/
def zeros : ℕ → Pool :=
  fun _ => ⟨fun size => List.replicate size 0, fun _ => List.length_replicate.ge⟩

/-- A number, a stream that ends before the limit, a byte array and one byte of an earlier
message. -/
def complete (old : UInt8) : ByteBuffer := ⟨[5, 0, 0, 0, 3, 7, 8, 9, 2, 10, 11, 0, old], 0, 12⟩

/-- The reads of `complete` are the same whatever is behind its limit. -/
theorem reads_see_only_unread_iff_complete :
    SeesOnlyUnread (fun _ => []) zeros [.int, .inputStream, .byteArray] (complete 1) ∧
      (readAll (fun _ => []) zeros [.int, .inputStream, .byteArray] (complete 1)).1 =
        [.int 5, .inputStream (some [7, 8, 9]), .byteArray [10, 11]] ∧
      (readAll (fun _ => []) zeros [.int, .inputStream, .byteArray] (complete 1)).2.limit = 12 := by
  obtain ⟨sees, limit⟩ :=
    reads_see_only_unread_iff (fun _ => []) zeros [.int, .inputStream, .byteArray]
    (complete 1) ⟨by decide, by decide, by decide⟩
  refine ⟨sees.2 ⟨?_, ?_, ?_, trivial⟩, ?_, limit⟩
  · rintro ⟨own, -⟩
    cases own
  · rintro ⟨-, past⟩
    have less : 7 < 3 := past.1
    exact absurd less (by decide)
  · rintro ⟨own, -⟩
    cases own
  · simp only [readAll, read, readStream, copyStream, whileUnaligned_eq]
    decide +kernel

/-- Of the stream of `leaking` two bytes are old. -/
theorem readInputStream_sees_old :
    (leaking 1).Agrees (leaking 2) ∧
      (readAll (fun _ => []) zeros [.inputStream] (leaking 1)).1 = [.inputStream (some [7, 1, 1])] ∧
      ¬ SeesOnlyUnread (fun _ => []) zeros [.inputStream] (leaking 1) := by
  have run (old : UInt8) : (readAll (fun _ => []) zeros [.inputStream] (leaking old)).1 =
      [.inputStream (some [7, old, old])] := by
    simp only [readAll, read, readStream, copyStream, whileUnaligned_eq]
    rfl
  have agrees : (leaking 1).Agrees (leaking 2) := ⟨rfl, rfl, rfl, rfl⟩
  refine ⟨agrees, run 1, ?_⟩
  intro sees
  have values := (sees zeros (leaking 2) ⟨by decide, by decide, by decide⟩ agrees).1
  rw [run 1, run 2] at values
  exact absurd values (by decide)

end ByteBuffer

end Mtproto.Java
