import Mtproto.Tgnet.NativeByteBuffer

/-!
# Reading the socket

The `EPOLLIN` branch of `ConnectionSocket::onEvent` on a non-blocking socket whose peer stays:
`recv` returns at most `READ_BUFFER_SIZE` of the bytes that wait, and -1 when none does.
-/

namespace Mtproto.Tgnet.Drain

open Bytes NativeByteBuffer

def READ_BUFFER_SIZE : ℕ := 1024 * 128

/-- The `networkBuffer` of the manager. -/
structure NetworkBuffer extends NativeByteBuffer where
  capacity_eq : capacity = READ_BUFFER_SIZE
  length_eq : buffer.length = READ_BUFFER_SIZE

/-- The bytes that a `recv` takes. -/
def chunk (waiting : List UInt8) : List UInt8 := waiting.take READ_BUFFER_SIZE

theorem length_chunk (waiting : List UInt8) :
    (chunk waiting).length = min READ_BUFFER_SIZE waiting.length :=
  List.length_take

namespace NetworkBuffer

/-- `rewind` and the bytes of a `recv` at the start of the store. -/
def recv (b : NetworkBuffer) (waiting : List UInt8) : NetworkBuffer where
  toNativeByteBuffer := { b.rewind with buffer := splice b.buffer 0 (chunk waiting) }
  capacity_eq := b.capacity_eq
  length_eq := by
    have within : 0 + (chunk waiting).length ≤ b.buffer.length := by
      rw [length_chunk, b.length_eq]
      omega
    exact (length_splice within).trans b.length_eq

/-- `limit(uint32_t)`. -/
def limitTo (b : NetworkBuffer) (readCount : ℕ) : NetworkBuffer where
  toNativeByteBuffer := b.setLimit readCount
  capacity_eq := by
    rw [setLimit]
    split_ifs <;> exact b.capacity_eq
  length_eq := by
    rw [setLimit]
    split_ifs <;> exact b.length_eq

/-- The bytes of the `recv` are what there is to read. -/
theorem unread_recv (b : NetworkBuffer) (waiting : List UInt8) :
    ((b.recv waiting).limitTo (chunk waiting).length).unread = chunk waiting := by
  have size := length_chunk waiting
  have fits : ¬ (chunk waiting).length > (b.recv waiting).capacity := by
    rw [(b.recv waiting).capacity_eq]
    omega
  have front := @take_splice b.buffer (chunk waiting) 0 (Nat.zero_le _)
  rw [Nat.zero_add, List.take_zero, List.nil_append] at front
  have start : (b.recv waiting).position = 0 := rfl
  change ((b.recv waiting).setLimit (chunk waiting).length).unread = _
  rw [setLimit, if_neg fits, start, if_neg (Nat.not_lt_zero _)]
  exact front

end NetworkBuffer

/-! ## The socket -/

/-- The state around the socket; `onReceivedData` works on `connection` and may leave anything in
the buffer. -/
structure Socket (σ : Type) where
  isOpen : Bool := true
  proxyAuthState : ℕ := 0
  networkBuffer : NetworkBuffer
  connection : σ
  /-- The bytes of each call of `onReceivedData`. -/
  received : List (List UInt8) := []

variable {σ : Type} (onReceivedData : σ → NetworkBuffer → σ × NetworkBuffer)

def closeSocket (s : Socket σ) : Socket σ := { s with isOpen := false, proxyAuthState := 0 }

/-- The second byte of the buffer. -/
def secondByte (s : Socket σ) : UInt8 := (s.networkBuffer.buffer.drop 1).headD 0

/-- What is read goes to the proxy handshake or to `onReceivedData`; `adjustWriteOp` changes nothing
here. -/
def process (readCount : ℕ) (s : Socket σ) : Socket σ :=
  if s.proxyAuthState = 2 then
    if readCount = 2 then
      if secondByte s = 0xff then closeSocket s
      else if secondByte s = 0x02 then { s with proxyAuthState := 3 }
      else if secondByte s = 0x00 then { s with proxyAuthState := 5 }
      else s
    else closeSocket s
  else if s.proxyAuthState = 4 then
    if readCount = 2 then if secondByte s ≠ 0x00 then closeSocket s else
      { s with proxyAuthState := 5 }
    else closeSocket s
  else if s.proxyAuthState = 6 then
    if 2 < readCount then if secondByte s = 0x00 then { s with proxyAuthState := 0 } else
      closeSocket s
    else closeSocket s
  else if s.proxyAuthState = 0 then
    { s with
      connection := (onReceivedData s.connection s.networkBuffer).1
      networkBuffer := (onReceivedData s.connection s.networkBuffer).2
      received := s.received ++ [s.networkBuffer.unread] }
  else s

/-- A `recv` that returned bytes. -/
def readRound (waiting : List UInt8) (s : Socket σ) : Socket σ :=
  process onReceivedData (chunk waiting).length
    { s with networkBuffer := (s.networkBuffer.recv waiting).limitTo (chunk waiting).length }

/-- The loop: the bytes that still wait when it ends, and the socket. -/
def readLoop (waiting : List UInt8) (s : Socket σ) : List UInt8 × Socket σ :=
  if s.isOpen = false ∨ waiting = [] then (waiting, closeSocket s)
  else if (chunk waiting).length ≠ READ_BUFFER_SIZE then
    (waiting.drop READ_BUFFER_SIZE, readRound onReceivedData waiting s)
  else readLoop (waiting.drop READ_BUFFER_SIZE) (readRound onReceivedData waiting s)
termination_by waiting.length
decreasing_by
  rename_i goes _
  have := List.length_pos_iff.2 (not_or.1 goes).2
  rw [List.length_drop, READ_BUFFER_SIZE]
  omega

/-- The `EPOLLIN` branch of `onEvent`. -/
def onReadable (socketError : Bool) (waiting : List UInt8) (s : Socket σ) : List UInt8 × Socket σ :=
  if socketError then (waiting, closeSocket s) else readLoop onReceivedData waiting s

/-- The bytes that waited were passed on in order, and the socket is still open. -/
structure Drained (waiting : List UInt8) (left : List UInt8) (s : Socket σ) : Prop where
  nothing_left : left = []
  passed : s.received.flatten = waiting
  isOpen : s.isOpen = true

section Loop

variable {s : Socket σ} {waiting : List UInt8}

theorem onReadable_eq (waiting : List UInt8) (s : Socket σ) :
    onReadable onReceivedData false waiting s = readLoop onReceivedData waiting s := by
  simp [onReadable]

theorem process_plain (plain : s.proxyAuthState = 0) (readCount : ℕ) :
    process onReceivedData readCount s =
      { s with
        connection := (onReceivedData s.connection s.networkBuffer).1
        networkBuffer := (onReceivedData s.connection s.networkBuffer).2
        received := s.received ++ [s.networkBuffer.unread] } := by
  simp [process, plain]

/-- One round outside of the proxy handshake. -/
theorem readRound_spec (isOpen : s.isOpen = true) (plain : s.proxyAuthState = 0)
    (waiting : List UInt8) :
    (readRound onReceivedData waiting s).isOpen = true ∧
      (readRound onReceivedData waiting s).proxyAuthState = 0 ∧
      (readRound onReceivedData waiting s).received.flatten = s.received.flatten ++
        chunk waiting := by
  have piece := s.networkBuffer.unread_recv waiting
  rw [readRound, process_plain]
  · refine ⟨isOpen, plain, ?_⟩
    change (s.received ++
      [((s.networkBuffer.recv waiting).limitTo (chunk waiting).length).unread]).flatten = _
    rw [piece, List.flatten_append, List.flatten_singleton]
  · exact plain

/-- The loop passes everything on; behind a full buffer it asks once more and takes the answer for
an error. -/
theorem readLoop_spec (s : Socket σ) (n : ℕ) (length : waiting.length = n)
    (isOpen : s.isOpen = true)
    (plain : s.proxyAuthState = 0) :
    (readLoop onReceivedData waiting s).1 = [] ∧
      (readLoop onReceivedData waiting s).2.received.flatten = s.received.flatten ++ waiting ∧
      ((readLoop onReceivedData waiting s).2.isOpen = true ↔ n % READ_BUFFER_SIZE ≠ 0) := by
  induction n using Nat.strongRecOn generalizing waiting s with
  | ind n ih =>
    obtain ⟨isOpen', plain', received'⟩ := readRound_spec onReceivedData isOpen plain waiting
    have size := length_chunk waiting
    have whole : chunk waiting ++ waiting.drop READ_BUFFER_SIZE = waiting :=
      List.take_append_drop _ _
    rw [readLoop]
    split_ifs with ends short
    · rcases ends with closed | rfl
      · rw [isOpen] at closed
        cases closed
      · subst length
        simp [closeSocket]
    · have less : n < READ_BUFFER_SIZE := by omega
      have rest : waiting.drop READ_BUFFER_SIZE = [] := List.drop_eq_nil_of_le (by omega)
      have nonempty : n ≠ 0 := by
        rw [← length]
        exact mt List.length_eq_zero_iff.1 (not_or.1 ends).2
      rw [rest, List.append_nil] at whole
      rw [received', whole, Nat.mod_eq_of_lt less]
      exact ⟨rest, rfl, iff_of_true isOpen' nonempty⟩
    · have full : READ_BUFFER_SIZE ≤ n := by omega
      have shorter : (waiting.drop READ_BUFFER_SIZE).length = n - READ_BUFFER_SIZE := by
        rw [List.length_drop, length]
      have fewer : n - READ_BUFFER_SIZE < n := by
        rw [READ_BUFFER_SIZE] at full ⊢
        omega
      obtain ⟨left, passed, stays⟩ := ih _ fewer _ shorter isOpen' plain'
      refine ⟨left, ?_, ?_⟩
      · rw [passed, received', List.append_assoc, whole]
      · rw [stays, Nat.mod_eq_sub_mod full]

end Loop

/-- One event passes all waiting bytes on and keeps the socket open exactly if their number is no
multiple of the buffer size. -/
theorem drained_iff (waiting : List UInt8) (networkBuffer : NetworkBuffer) (connection : σ) :
    Drained waiting (onReadable onReceivedData false waiting { networkBuffer, connection }).1
        (onReadable onReceivedData false waiting { networkBuffer, connection }).2 ↔
      waiting.length % READ_BUFFER_SIZE ≠ 0 := by
  obtain ⟨left, passed, stays⟩ :=
    readLoop_spec onReceivedData { networkBuffer, connection } waiting.length rfl rfl rfl
  rw [onReadable_eq, ← stays]
  exact ⟨fun drained => drained.isOpen, fun isOpen => ⟨left, passed, isOpen⟩⟩

/-- A fresh `networkBuffer`. -/
def freshBuffer : NetworkBuffer where
  toNativeByteBuffer := new READ_BUFFER_SIZE
  capacity_eq := rfl
  length_eq := List.length_replicate

/-- A full buffer of bytes closes the connection. -/
theorem not_drained_full :
    ¬ Drained (List.replicate READ_BUFFER_SIZE 7)
        (onReadable (fun (_ : Unit) b => ((), b)) false (List.replicate READ_BUFFER_SIZE 7)
          { networkBuffer := freshBuffer, connection := () }).1
        (onReadable (fun (_ : Unit) b => ((), b)) false (List.replicate READ_BUFFER_SIZE 7)
          { networkBuffer := freshBuffer, connection := () }).2 := by
  have length : (List.replicate READ_BUFFER_SIZE (7 : UInt8)).length = READ_BUFFER_SIZE :=
    List.length_replicate
  generalize List.replicate READ_BUFFER_SIZE (7 : UInt8) = waiting at length ⊢
  obtain ⟨-, -, stays⟩ := readLoop_spec (fun (_ : Unit) b => ((), b))
    { networkBuffer := freshBuffer, connection := () } READ_BUFFER_SIZE length rfl rfl
  rw [onReadable_eq]
  intro drained
  exact stays.1 drained.isOpen (Nat.mod_self _)

end Mtproto.Tgnet.Drain
