import Mtproto.Tgnet.NativeByteBuffer

/-!
# The outgoing byte stream

`ByteStream.cpp` and the round of `ConnectionSocket::onEvent` that sends from it.  Seen from outside
the queue of buffers is a queue of bytes, `pending`: `append` puts bytes at its end, `get` copies
bytes from its front and `discard` takes them off.
-/

namespace Mtproto.Tgnet

open NativeByteBuffer

/-- A buffer that the queue can hold. -/
abbrev Buffer := { b : NativeByteBuffer // b.Wf }

structure ByteStream where
  buffersQueue : List NativeByteBuffer := []
deriving DecidableEq, Repr

namespace ByteStream

/-! ## Operations -/

def append (s : ByteStream) : Option NativeByteBuffer → ByteStream
  | none => s
  | some buffer => ⟨s.buffersQueue ++ [buffer]⟩

/-- The loop of `get`. -/
def copy (dst : NativeByteBuffer) : List NativeByteBuffer → NativeByteBuffer
  | [] => dst
  | buffer :: buffers =>
      if buffer.remaining > dst.remaining then
        dst.writeBytesFrom buffer.buffer buffer.position dst.remaining
      else
        let dst := dst.writeBytesFrom buffer.buffer buffer.position buffer.remaining
        if dst.hasRemaining then copy dst buffers else dst

def get (s : ByteStream) (dst : NativeByteBuffer) : NativeByteBuffer := copy dst s.buffersQueue

/-- The loop of `discard`; there is no result where the first buffer of an empty queue is used. -/
def drop (count : ℕ) : List NativeByteBuffer → Option (List NativeByteBuffer)
  | [] => if count > 0 then none else some []
  | buffer :: buffers =>
      if count > 0 then
        if count < buffer.remaining then
          some (buffer.setPosition (u32 (buffer.position + count)) :: buffers)
        else drop (count - buffer.remaining) buffers
      else some (buffer :: buffers)

def discard (s : ByteStream) (count : ℕ) : Option ByteStream :=
  (drop count s.buffersQueue).map ByteStream.mk

/-- What a call of `send` did: the bytes that it took, and the stream behind them. -/
structure Sent where
  bytes : List UInt8
  stream : ByteStream

/-- The sending part of `onEvent`: the network buffer is filled from its front, and `send` takes as
many of its bytes as it wants. -/
def sendRound (s : ByteStream) (networkBuffer : NativeByteBuffer) (wanted : ℕ) : Option Sent :=
  let buffer := (s.get networkBuffer.clear).flip
  let remaining := buffer.remaining
  if remaining = 0 then some ⟨[], s⟩
  else
    let sentLength := min wanted remaining
    (s.discard sentLength).map fun t => ⟨buffer.unread.take sentLength, t⟩

/-! ## The queue of bytes -/

/-- The bytes that have not been sent. -/
def pending (s : ByteStream) : List UInt8 := s.buffersQueue.flatMap unread

/-- Every buffer of the queue is well formed. -/
def Wf (s : ByteStream) : Prop := ∀ b ∈ s.buffersQueue, b.Wf

theorem Wf.append {s : ByteStream} (h : s.Wf) (buffer : Buffer) : (s.append buffer.1).Wf := by
  intro b mem
  rcases List.mem_append.1 mem with old | new
  · exact h b old
  · rw [List.mem_singleton.1 new]
    exact buffer.2

theorem pending_append (s : ByteStream) (buffer : NativeByteBuffer) :
    (s.append (some buffer)).pending = s.pending ++ buffer.unread := by
  show (s.buffersQueue ++ [buffer]).flatMap unread = _
  rw [List.flatMap_append, List.flatMap_singleton]
  rfl

section Copy

variable {dst : NativeByteBuffer} {buffers : List NativeByteBuffer}

/-- The loop of `get` copies as many bytes as fit. -/
theorem copy_eq (h : dst.Wf) (hb : ∀ b ∈ buffers, b.Wf) :
    (copy dst buffers).Wf ∧
      (copy dst buffers).filled =
        dst.filled ++ (buffers.flatMap unread).take dst.unread.length := by
  induction buffers generalizing dst with
  | nil => exact ⟨h, by simp [copy]⟩
  | cons buffer buffers ih =>
      have wf : buffer.Wf := hb buffer (by simp)
      have room := length_unread h
      have := h.position_le
      rw [copy, remaining_eq wf, remaining_eq h, List.flatMap_cons]
      dsimp only
      split_ifs with large space
      · obtain ⟨wf', filled, -⟩ :=
          writeBytesFrom_eq (n := dst.unread.length) h wf (by omega) (by omega)
        refine ⟨wf', ?_⟩
        rw [filled, List.take_append_of_le_length (by omega)]
      · obtain ⟨wf', filled, limit⟩ :=
          writeBytesFrom_eq (n := buffer.unread.length) h wf le_rfl (by omega)
        obtain ⟨wf'', copied⟩ := ih wf' fun b mem => hb b (by simp [mem])
        refine ⟨wf'', ?_⟩
        have length_filled' := length_filled wf'
        have length_unread' := length_unread wf'
        rw [filled, List.length_append, length_filled h, List.take_length] at length_filled'
        have left : (dst.writeBytesFrom buffer.buffer buffer.position
            buffer.unread.length).unread.length =
            dst.unread.length - buffer.unread.length := by omega
        rw [copied, filled, List.take_length, left, List.append_assoc, List.take_append,
          List.take_of_length_le (l := buffer.unread) (by omega)]
      · obtain ⟨wf', filled, limit⟩ :=
          writeBytesFrom_eq (n := buffer.unread.length) h wf le_rfl (by omega)
        refine ⟨wf', ?_⟩
        have length_filled' := length_filled wf'
        rw [filled, List.length_append, length_filled h, List.take_length] at length_filled'
        rw [hasRemaining, decide_eq_true_eq] at space
        rw [filled, List.take_length, List.take_append_of_le_length (by omega),
          List.take_of_length_le (by omega)]

end Copy

section Drop

variable {buffers : List NativeByteBuffer} {count : ℕ}

/-- The loop of `discard` takes as many bytes off as it is told to. -/
theorem drop_eq (hb : ∀ b ∈ buffers, b.Wf) (enough : count ≤ (buffers.flatMap unread).length) :
    ∃ rest, drop count buffers = some rest ∧ (∀ b ∈ rest, b.Wf) ∧
      rest.flatMap unread = (buffers.flatMap unread).drop count := by
  induction buffers generalizing count with
  | nil =>
      obtain rfl : count = 0 := by simpa using enough
      exact ⟨[], rfl, by simp, rfl⟩
  | cons buffer buffers ih =>
      have wf : buffer.Wf := hb buffer (by simp)
      have later : ∀ b ∈ buffers, b.Wf := fun b mem => hb b (by simp [mem])
      rw [List.flatMap_cons, List.length_append] at enough
      rw [drop, remaining_eq wf, List.flatMap_cons]
      split_ifs with positive partly
      · -- the buffer keeps some of its bytes
        have within := partly.le
        have moved : buffer.setPosition (u32 (buffer.position + count)) = buffer.advance count := by
          rw [u32_position_add wf within, setPosition, if_neg]
          · rfl
          · have := length_unread wf
            omega
        refine ⟨_, rfl, ?_, ?_⟩
        · rw [moved]
          exact List.forall_mem_cons.2 ⟨wf.advance within, later⟩
        · rw [moved, List.flatMap_cons, unread_advance, List.drop_append_of_le_length within]
      · have less : count - buffer.unread.length ≤ (buffers.flatMap unread).length := by omega
        obtain ⟨rest, dropped, wf', front⟩ := ih later less
        refine ⟨rest, dropped, wf', ?_⟩
        rw [front, List.drop_append, List.drop_of_length_le (l := buffer.unread) (by omega),
          List.nil_append]
      · obtain rfl : count = 0 := by omega
        exact ⟨_, rfl, hb, List.flatMap_cons⟩

end Drop

variable {s : ByteStream}

theorem get_filled (h : s.Wf) {dst : NativeByteBuffer} (hd : dst.Wf) :
    (s.get dst.clear).Wf ∧ (s.get dst.clear).filled = s.pending.take dst.capacity := by
  obtain ⟨wf, copied⟩ := copy_eq hd.clear h
  refine ⟨wf, ?_⟩
  rw [get, copied, filled_clear, length_unread hd.clear]
  rfl

theorem discard_pending (h : s.Wf) {count : ℕ} (enough : count ≤ s.pending.length) :
    ∃ t, s.discard count = some t ∧ t.Wf ∧ t.pending = s.pending.drop count := by
  obtain ⟨rest, dropped, wf, front⟩ := drop_eq h enough
  exact ⟨⟨rest⟩, by rw [discard, dropped]; rfl, wf, front⟩

/-- A round takes bytes off the front of the queue, and these are the bytes that it sends. -/
theorem sendRound_pending (h : s.Wf) {networkBuffer : NativeByteBuffer} (hd : networkBuffer.Wf)
    (wanted : ℕ) :
    ∃ sent, s.sendRound networkBuffer wanted = some sent ∧ sent.stream.Wf ∧
      sent.bytes ++ sent.stream.pending = s.pending := by
  obtain ⟨wf, filled⟩ := get_filled h hd
  have unread_eq := unread_flip (s.get networkBuffer.clear)
  rw [filled] at unread_eq
  rw [sendRound]
  dsimp only
  rw [remaining_eq wf.flip, unread_eq]
  split_ifs with nothing
  · exact ⟨_, rfl, h, rfl⟩
  · have within : min wanted (s.pending.take networkBuffer.capacity).length ≤ s.pending.length := by
      rw [List.length_take]
      omega
    obtain ⟨t, discarded, wf', behind⟩ := discard_pending h within
    refine ⟨_, by rw [discarded]; rfl, wf', ?_⟩
    have fits : min wanted (s.pending.take networkBuffer.capacity).length ≤
        networkBuffer.capacity := by
      rw [List.length_take]
      omega
    rw [behind, List.take_take, Nat.min_eq_left fits, List.take_append_drop]

/-! ## Runs -/

/-- What happens to the stream: a buffer is appended, or a round sends into a network buffer. -/
inductive Op
  | append (buffer : Option Buffer)
  | sendRound (networkBuffer : Buffer) (wanted : ℕ)

/-- The bytes that an operation appends. -/
def Op.appended : Op → List UInt8
  | .append (some buffer) => buffer.1.unread
  | _ => []

def Op.run (s : ByteStream) : Op → Option Sent
  | .append buffer => some ⟨[], s.append (buffer.map Subtype.val)⟩
  | .sendRound networkBuffer wanted => s.sendRound networkBuffer.1 wanted

/-- A run, with the bytes of all its rounds. -/
def runAll (s : ByteStream) : List Op → Option Sent
  | [] => some ⟨[], s⟩
  | op :: ops =>
      (op.run s).bind fun first => (runAll first.stream ops).map fun later =>
        ⟨first.bytes ++ later.bytes, later.stream⟩

/-- One operation: what is sent and what is pending behind it is what was pending with what was
appended. -/
theorem Op.run_fifo (h : s.Wf) (op : Op) :
    ∃ sent, op.run s = some sent ∧ sent.stream.Wf ∧ sent.bytes ++ sent.stream.pending =
      s.pending ++ op.appended := by
  cases op with
  | append buffer =>
      refine ⟨_, rfl, ?_⟩
      cases buffer with
      | none => exact ⟨h, by simp [Op.appended, ByteStream.append]⟩
      | some buffer => exact ⟨h.append buffer, pending_append s buffer.1⟩
  | sendRound networkBuffer wanted =>
      obtain ⟨sent, run, wf, same⟩ := sendRound_pending h networkBuffer.2 wanted
      exact ⟨sent, run, wf, same.trans (List.append_nil _).symm⟩

theorem runAll_fifo (h : s.Wf) (ops : List Op) :
    ∃ sent, runAll s ops = some sent ∧ sent.stream.Wf ∧
      sent.bytes ++ sent.stream.pending = s.pending ++ ops.flatMap Op.appended := by
  induction ops generalizing s with
  | nil => exact ⟨_, rfl, h, by simp⟩
  | cons op ops ih =>
      obtain ⟨first, run, wf, same⟩ := op.run_fifo h
      obtain ⟨later, runs, wf', same'⟩ := ih wf
      refine ⟨⟨first.bytes ++ later.bytes, later.stream⟩, ?_, wf', ?_⟩
      · rw [runAll, run, Option.bind_some, runs]
        rfl
      · rw [List.append_assoc, same', ← List.append_assoc, same, List.append_assoc,
          List.flatMap_cons]

/-- In every run, from the empty stream, the bytes that were sent and the bytes that are pending are
the bytes that were appended.  A `get` then copies as many of the pending bytes as the buffer can
hold, and a `discard` of any number of these takes exactly them off. -/
theorem outgoing_fifo (ops : List Op) :
    ∃ sent, runAll {} ops = some sent ∧ sent.bytes ++ sent.stream.pending =
      ops.flatMap Op.appended ∧
      ∀ dst : Buffer, (sent.stream.get dst.1.clear).filled =
        sent.stream.pending.take dst.1.capacity ∧
        ∀ count : Fin ((sent.stream.get dst.1.clear).position + 1),
          ∃ t, sent.stream.discard count = some t ∧ t.pending = sent.stream.pending.drop count := by
  have empty : Wf {} := by simp [Wf]
  obtain ⟨sent, runs, wf, same⟩ := runAll_fifo empty ops
  refine ⟨sent, runs, same, fun dst => ?_⟩
  obtain ⟨wf', filled⟩ := get_filled wf dst.2
  refine ⟨filled, fun count => ?_⟩
  have copied := length_filled wf'
  rw [filled, List.length_take] at copied
  have enough : count.val ≤ sent.2.pending.length := by
    have := count.isLt
    omega
  obtain ⟨t, discarded, -, behind⟩ := discard_pending wf enough
  exact ⟨t, discarded, behind⟩

end ByteStream

end Mtproto.Tgnet
