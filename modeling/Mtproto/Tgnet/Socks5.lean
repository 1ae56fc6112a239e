import Mtproto.Tgnet.Drain

/-!
# The negotiation with a SOCKS5 proxy

`ConnectionSocket::onEvent` sends a greeting, the user and the password when the proxy wants them,
and the address to connect to, and takes the result of one `recv` for one reply.  A proxy answers
each request when it has come, and its answers may be cut into any `recv` results.  The connection
looks at three things of the socket and the bytes of a `recv` only (`View`), and on these the runs
are followed.
-/

namespace Mtproto.Tgnet.Socks5

open Drain

/-! ## The client -/

/-- What the requests are made of; `address` is what `inet_pton` makes of `currentAddress`. -/
structure Target where
  proxyUser : List UInt8
  proxyPassword : List UInt8
  isIpv6 : Bool
  address : List UInt8
  port : BitVec 16

/-- The methods that are offered: none, and user and password. -/
def greeting : List UInt8 := [0x05, 0x02, 0x00, 0x02]

/-- The lengths are cast to `uint8_t`. -/
def Target.credentials (t : Target) : List UInt8 :=
  let len1 := t.proxyUser.length % 256
  let len2 := t.proxyPassword.length % 256
  [0x01, UInt8.ofNat len1] ++ t.proxyUser.take len1 ++ [UInt8.ofNat len2] ++
    t.proxyPassword.take len2

/-- The port in network order. -/
def Target.connect (t : Target) : List UInt8 :=
  [0x05, 0x01, 0x00, if t.isIpv6 then 0x04 else 0x01] ++ t.address ++ Bytes.toBE 2 t.port.toNat

variable {σ : Type}

/-- A socket with the requests that it has sent. -/
structure Client (σ : Type) extends Socket σ where
  onConnectedSent : Bool := false
  sent : List (List UInt8) := []

/-- `send` of a request, which succeeds, in the state that is set before it. -/
def send (proxyAuthState : ℕ) (request : List UInt8) (c : Client σ) : Client σ :=
  { c with proxyAuthState, sent := c.sent ++ [request] }

/-- The `EPOLLOUT` branch as far as the negotiation goes. -/
def onWritable (t : Target) (c : Client σ) : Client σ :=
  if c.isOpen = false then c
  else if c.proxyAuthState ≠ 0 then
    if c.proxyAuthState = 1 then send 2 greeting c
    else if c.proxyAuthState = 3 then send 4 t.credentials c
    else if c.proxyAuthState = 5 then send 6 t.connect c
    else c
  else if c.onConnectedSent = false then { c with onConnectedSent := true }
  else c

/-- The results of `recv`, one after the other.  A result that fills the buffer lets the loop ask
again, and behind the last one there is nothing to read. -/
def onReadable (onReceivedData : σ → NetworkBuffer → σ × NetworkBuffer) :
    List (List UInt8) → Client σ → Client σ
  | [], c => c
  | chunk :: chunks, c =>
      if c.isOpen = false then c
      else if chunk.length = READ_BUFFER_SIZE ∧ chunks = [] then
        { c with toSocket := closeSocket (readRound onReceivedData chunk c.toSocket) }
      else onReadable onReceivedData chunks
        { c with toSocket := readRound onReceivedData chunk c.toSocket }

/-! ## The proxy -/

/-- The address in a connect reply. -/
inductive Address
  | ipv4 (a : Fin 4 → UInt8)
  | ipv6 (a : Fin 16 → UInt8)
  | domain (length : UInt8) (name : Fin length.toNat → UInt8)

def Address.bytes : Address → List UInt8
  | ipv4 a => 0x01 :: List.ofFn a
  | ipv6 a => 0x04 :: List.ofFn a
  | domain length name => 0x03 :: length :: List.ofFn name

/-- What the proxy sends: the method, the answer to the credentials if the method asks for them, the
connect reply and the data that follow it. -/
structure Dialogue where
  version : UInt8
  method : UInt8
  authVersion : UInt8
  authStatus : UInt8
  replyVersion : UInt8
  status : UInt8
  reserved : UInt8
  address : Address
  port : Fin 2 → UInt8
  data : List UInt8

namespace Dialogue

def methodReply (d : Dialogue) : List UInt8 := [d.version, d.method]

def authReply (d : Dialogue) : List UInt8 := [d.authVersion, d.authStatus]

def connectReply (d : Dialogue) : List UInt8 :=
  [d.replyVersion, d.status, d.reserved] ++ d.address.bytes ++ List.ofFn d.port

/-- The proxy lets the client through. -/
def Accepted (d : Dialogue) : Prop :=
  (d.method = 0x00 ∨ d.method = 0x02 ∧ d.authStatus = 0x00) ∧ d.status = 0x00

instance (d : Dialogue) : Decidable d.Accepted := inferInstanceAs (Decidable (_ ∧ _))

/-- A connect reply has ten bytes, twenty-two, or seven and those of the domain. -/
theorem length_connectReply (d : Dialogue) :
    d.connectReply.length = match d.address with
      | .ipv4 _ => 10
      | .ipv6 _ => 22
      | .domain length _ => 7 + length.toNat := by
  unfold connectReply
  cases d.address with
  | ipv4 a => simp [Address.bytes]
  | ipv6 a => simp [Address.bytes]
  | domain length name =>
      simp [Address.bytes]
      omega

end Dialogue

/-- Bytes cut into results of `recv`. -/
structure Cut (bytes : List UInt8) where
  chunks : List (List UInt8)
  flatten_eq : chunks.flatten = bytes
  nonempty : ∀ chunk ∈ chunks, chunk ≠ []
  small : ∀ chunk ∈ chunks, chunk.length ≤ READ_BUFFER_SIZE

/-- The answers of the proxy, each cut in its way; the data may come together with the connect
reply. -/
structure Split (d : Dialogue) where
  method : Cut d.methodReply
  auth : Cut d.authReply
  connect : Cut (d.connectReply ++ d.data)

/-- An answer comes when its request has been sent. -/
def answer (onReceivedData : σ → NetworkBuffer → σ × NetworkBuffer) (proxyAuthState : ℕ)
    (chunks : List (List UInt8)) (c : Client σ) : Client σ :=
  if c.proxyAuthState = proxyAuthState then onReadable onReceivedData chunks c else c

/-- The negotiation, from the connection to the proxy on: the client can write whenever it wants
to. -/
def negotiate (onReceivedData : σ → NetworkBuffer → σ × NetworkBuffer) (t : Target) {d : Dialogue}
    (split : Split d) (networkBuffer : NetworkBuffer) (connection : σ) : Client σ :=
  let c : Client σ := { networkBuffer, connection, proxyAuthState := 1 }
  let c := answer onReceivedData 2 split.method.chunks (onWritable t c)
  let c := answer onReceivedData 4 split.auth.chunks (onWritable t c)
  let c := answer onReceivedData 6 split.connect.chunks (onWritable t c)
  onWritable t c

/-! ## What a run depends on -/

/-- The state of the negotiation and the bytes that `onReceivedData` has been given. -/
structure View where
  isOpen : Bool
  proxyAuthState : ℕ
  received : List UInt8
  onConnectedSent : Bool
deriving DecidableEq, Repr

def Client.view (c : Client σ) : View :=
  ⟨c.isOpen, c.proxyAuthState, c.received.flatten, c.onConnectedSent⟩

namespace View

def close (v : View) : View := { v with isOpen := false, proxyAuthState := 0 }

/-- The result of a `recv`. -/
def hear (chunk : List UInt8) (v : View) : View :=
  if v.proxyAuthState = 2 then
    if chunk.length = 2 then
      if (chunk.drop 1).headD 0 = 0xff then v.close
      else if (chunk.drop 1).headD 0 = 0x02 then { v with proxyAuthState := 3 }
      else if (chunk.drop 1).headD 0 = 0x00 then { v with proxyAuthState := 5 }
      else v
    else v.close
  else if v.proxyAuthState = 4 then
    if chunk.length = 2 then
      if (chunk.drop 1).headD 0 ≠ 0x00 then v.close else { v with proxyAuthState := 5 }
    else v.close
  else if v.proxyAuthState = 6 then
    if 2 < chunk.length then
      if (chunk.drop 1).headD 0 = 0x00 then { v with proxyAuthState := 0 } else v.close
    else v.close
  else if v.proxyAuthState = 0 then { v with received := v.received ++ chunk }
  else v

theorem hear_other {v : View} {chunk : List UInt8} (method : v.proxyAuthState ≠ 2)
    (auth : v.proxyAuthState ≠ 4)
    (connect : v.proxyAuthState ≠ 6) (connected : v.proxyAuthState ≠ 0) : hear chunk v = v := by
  rw [hear, if_neg method, if_neg auth, if_neg connect, if_neg connected]

def hearAll : List (List UInt8) → View → View
  | [], v => v
  | chunk :: chunks, v =>
      if v.isOpen = false then v
      else if chunk.length = READ_BUFFER_SIZE ∧ chunks = [] then (hear chunk v).close
      else hearAll chunks (hear chunk v)

def answer (proxyAuthState : ℕ) (chunks : List (List UInt8)) (v : View) : View :=
  if v.proxyAuthState = proxyAuthState then hearAll chunks v else v

def write (v : View) : View :=
  if v.isOpen = false then v
  else if v.proxyAuthState ≠ 0 then
    if v.proxyAuthState = 1 then { v with proxyAuthState := 2 }
    else if v.proxyAuthState = 3 then { v with proxyAuthState := 4 }
    else if v.proxyAuthState = 5 then { v with proxyAuthState := 6 }
    else v
  else if v.onConnectedSent = false then { v with onConnectedSent := true }
  else v

end View

section Viewing

variable (onReceivedData : σ → NetworkBuffer → σ × NetworkBuffer) {c : Client σ}
  {chunk : List UInt8}
  {chunks : List (List UInt8)}

/-- The second byte of the network buffer is that of the result. -/
theorem secondByte_recv (s : Socket σ) (small : chunk.length ≤ READ_BUFFER_SIZE)
    (two : 2 ≤ chunk.length) :
    secondByte
      { s with networkBuffer := (s.networkBuffer.recv chunk).limitTo (Drain.chunk chunk).length } =
      (chunk.drop 1).headD 0 := by
  have whole : Drain.chunk chunk = chunk := List.take_of_length_le small
  have store : ∀ (b : NetworkBuffer) (n : ℕ), (b.limitTo n).buffer = b.buffer := by
    intro b n
    show (b.setLimit n).buffer = b.buffer
    unfold NativeByteBuffer.setLimit
    split <;> rfl
  unfold secondByte
  rw [store]
  show (((Bytes.splice s.networkBuffer.buffer 0 (Drain.chunk chunk)).drop 1).headD 0) = _
  rw [whole]
  obtain ⟨x, y, rest, rfl⟩ : ∃ x y rest, chunk = x :: y :: rest := by
    match chunk, two with
    | x :: y :: rest, _ => exact ⟨x, y, rest, rfl⟩
  rfl

theorem view_readRound (small : chunk.length ≤ READ_BUFFER_SIZE) :
    Client.view { c with toSocket := readRound onReceivedData chunk c.toSocket } =
      c.view.hear chunk := by
  have whole : Drain.chunk chunk = chunk := List.take_of_length_le small
  have second := secondByte_recv c.toSocket small
  have unread := c.networkBuffer.unread_recv chunk
  rw [whole] at second unread
  unfold readRound
  rw [whole]
  generalize (c.networkBuffer.recv chunk).limitTo chunk.length = networkBuffer at second unread ⊢
  have passed : (c.received ++ [networkBuffer.unread]).flatten = c.received.flatten ++ chunk := by
    rw [List.flatten_append, List.flatten_singleton, unread]
  obtain ⟨⟨isOpen, proxyAuthState, b, connection, received⟩, onConnectedSent, sent⟩ := c
  dsimp only at second passed ⊢
  by_cases method : proxyAuthState = 2
  · subst method
    by_cases two : chunk.length = 2
    · simp only [process, View.hear, Client.view, if_pos two, second two.ge, if_true]
      split_ifs <;> rfl
    · simp only [process, View.hear, Client.view, if_neg two, if_true]
      rfl
  by_cases auth : proxyAuthState = 4
  · subst auth
    by_cases two : chunk.length = 2
    · simp only [process, View.hear, Client.view, if_pos two, second two.ge, if_true, if_neg method]
      split_ifs <;> rfl
    · simp only [process, View.hear, Client.view, if_neg two, if_true, if_neg method]
      rfl
  by_cases connect : proxyAuthState = 6
  · subst connect
    by_cases two : 2 < chunk.length
    · simp only [process, View.hear, Client.view, if_pos two, second two.le, if_true, if_neg method,
        if_neg auth]
      split_ifs <;> rfl
    · simp only [process, View.hear, Client.view, if_neg two, if_true, if_neg method, if_neg auth]
      rfl
  by_cases connected : proxyAuthState = 0
  · subst connected
    exact congrArg (fun r => View.mk isOpen 0 r onConnectedSent) passed
  · rw [View.hear_other method auth connect connected]
    simp only [process, Client.view, if_neg method, if_neg auth, if_neg connect, if_neg connected]

theorem view_onReadable (small : ∀ chunk ∈ chunks, chunk.length ≤ READ_BUFFER_SIZE) :
    (onReadable onReceivedData chunks c).view = c.view.hearAll chunks := by
  induction chunks generalizing c with
  | nil => rfl
  | cons chunk chunks ih =>
    have first := view_readRound onReceivedData (c := c) (small chunk List.mem_cons_self)
    rw [onReadable, View.hearAll]
    have isOpen : c.view.isOpen = c.isOpen := rfl
    rw [isOpen]
    split_ifs with closed full
    · rfl
    · rw [← first]
      rfl
    · rw [ih fun chunk mem => small chunk (List.mem_cons_of_mem _ mem), first]

theorem view_answer (proxyAuthState : ℕ)
    (small : ∀ chunk ∈ chunks, chunk.length ≤ READ_BUFFER_SIZE) :
    (answer onReceivedData proxyAuthState chunks c).view = c.view.answer proxyAuthState chunks := by
  unfold answer View.answer
  have state : c.view.proxyAuthState = c.proxyAuthState := rfl
  rw [state]
  split
  · exact view_onReadable onReceivedData small
  · rfl

theorem view_onWritable (t : Target) : (onWritable t c).view = c.view.write := by
  have isOpen : c.view.isOpen = c.isOpen := rfl
  have state : c.view.proxyAuthState = c.proxyAuthState := rfl
  have onConnectedSent : c.view.onConnectedSent = c.onConnectedSent := rfl
  unfold onWritable View.write
  rw [isOpen, state, onConnectedSent]
  split_ifs <;> rfl

end Viewing

/-- The negotiation, on the view. -/
def View.negotiate {d : Dialogue} (split : Split d) : View :=
  let v : View := ⟨true, 1, [], false⟩
  let v := v.write.answer 2 split.method.chunks
  let v := v.write.answer 4 split.auth.chunks
  let v := v.write.answer 6 split.connect.chunks
  v.write

theorem view_negotiate (onReceivedData : σ → NetworkBuffer → σ × NetworkBuffer) (t : Target)
    {d : Dialogue}
    (split : Split d) (networkBuffer : NetworkBuffer) (connection : σ) :
    (negotiate onReceivedData t split networkBuffer connection).view = View.negotiate split := by
  unfold negotiate View.negotiate
  dsimp only
  rw [view_onWritable, view_answer _ _ split.connect.small, view_onWritable,
    view_answer _ _ split.auth.small, view_onWritable, view_answer _ _ split.method.small,
    view_onWritable]
  rfl

/-! ## Phases -/

namespace View

/-- The view of a closed connection that has passed nothing on. -/
def closed : View := ⟨false, 0, [], false⟩

/-- The last result fills the buffer. -/
def endsFull (chunks : List (List UInt8)) : Bool :=
  chunks.getLast?.any fun chunk => chunk.length = READ_BUFFER_SIZE

theorem endsFull_cons {chunk : List UInt8} {chunks : List (List UInt8)} (h : chunks ≠ []) :
    endsFull (chunk :: chunks) = endsFull chunks := by
  unfold endsFull
  rw [List.getLast?_cons, List.getLast?_eq_some_getLast h, Option.getD_some]

section Phases

variable {x y : UInt8} {v : View}

/-- Nothing but empty results have no bytes. -/
theorem chunks_eq_nil {chunks : List (List UInt8)} (flatten_eq : chunks.flatten = [])
    (nonempty : ∀ chunk ∈ chunks, chunk ≠ []) : chunks = [] := by
  cases chunks with
  | nil => rfl
  | cons chunk chunks =>
    exact absurd (List.append_eq_nil_iff.1 flatten_eq).1 (nonempty chunk List.mem_cons_self)

/-- Two bytes come together or one by one. -/
theorem cut_two (cut : Cut [x, y]) : cut.chunks = [[x, y]] ∨ cut.chunks = [[x], [y]] := by
  obtain ⟨chunks, flatten_eq, nonempty, -⟩ := cut
  show chunks = [[x, y]] ∨ chunks = [[x], [y]]
  match chunks with
  | [] => cases flatten_eq
  | [] :: _ => exact absurd rfl (nonempty [] List.mem_cons_self)
  | [a] :: rest =>
    right
    obtain ⟨rfl, tail⟩ := List.cons.inj flatten_eq
    match rest with
    | [] => cases tail
    | [] :: _ => exact absurd rfl (nonempty [] (by simp))
    | (b :: c) :: rest =>
      obtain ⟨rfl, none⟩ := List.cons.inj tail
      obtain ⟨rfl, none⟩ := List.append_eq_nil_iff.1 none
      rw [chunks_eq_nil none fun chunk mem => nonempty chunk (by simp [mem])]
  | (a :: b :: c) :: rest =>
    left
    obtain ⟨rfl, tail⟩ := List.cons.inj flatten_eq
    obtain ⟨rfl, none⟩ := List.cons.inj tail
    obtain ⟨rfl, none⟩ := List.append_eq_nil_iff.1 none
    rw [chunks_eq_nil none fun chunk mem => nonempty chunk (by simp [mem])]

theorem hearAll_closed {chunks : List (List UInt8)} (isOpen : v.isOpen = false) :
    hearAll chunks v = v := by
  cases chunks with
  | nil => rfl
  | cons chunk chunks => rw [hearAll, if_pos isOpen]

theorem hearAll_cons {chunk : List UInt8} {chunks : List (List UInt8)} (isOpen : v.isOpen = true)
    (goes : ¬ (chunk.length = READ_BUFFER_SIZE ∧ chunks = [])) :
    hearAll (chunk :: chunks) v = hearAll chunks (hear chunk v) := by
  rw [hearAll, isOpen, if_neg (Bool.not_eq_false _ ▸ rfl), if_neg goes]

/-- One or two bytes do not fill the buffer. -/
theorem hearAll_short {chunk : List UInt8} {chunks : List (List UInt8)} (isOpen : v.isOpen = true)
    (short : chunk.length ≤ 2) : hearAll (chunk :: chunks) v = hearAll chunks (hear chunk v) := by
  refine hearAll_cons isOpen ?_
  rw [READ_BUFFER_SIZE]
  omega

/-- A reply of which one byte comes first closes the connection. -/
theorem hearAll_broken {n : ℕ} (state : n = 2 ∨ n = 4) :
    hearAll [[x], [y]] ⟨true, n, [], false⟩ = closed := by
  rw [hearAll_short rfl (by simp)]
  have first : hear [x] ⟨true, n, [], false⟩ = closed := by
    rcases state with rfl | rfl <;> rfl
  rw [first, hearAll_closed rfl]

theorem hear_method (x y : UInt8) : hear [x, y] ⟨true, 2, [], false⟩ =
    if y = 0xff then closed else if y = 0x02 then ⟨true, 3, [], false⟩
    else if y = 0x00 then ⟨true, 5, [], false⟩ else ⟨true, 2, [], false⟩ := rfl

theorem hear_auth (x y : UInt8) : hear [x, y] ⟨true, 4, [], false⟩ =
    if y ≠ 0x00 then closed else ⟨true, 5, [], false⟩ := rfl

theorem hear_connect (chunk : List UInt8) : hear chunk ⟨true, 6, [], false⟩ =
    if 2 < chunk.length then
      if (chunk.drop 1).headD 0 = 0x00 then ⟨true, 0, [], false⟩ else closed
    else closed := rfl

/-- A result that closes the connection. -/
theorem hearAll_of_closed {chunk : List UInt8} {chunks : List (List UInt8)}
    (isOpen : v.isOpen = true)
    (heard : hear chunk v = closed) : hearAll (chunk :: chunks) v = closed := by
  by_cases full : chunk.length = READ_BUFFER_SIZE ∧ chunks = []
  · rw [hearAll, isOpen, if_neg (Bool.not_eq_false _ ▸ rfl), if_pos full, heard]
    rfl
  · rw [hearAll_cons isOpen full, heard, hearAll_closed rfl]

/-- A result behind which the client is connected; behind a full buffer it takes the failed `recv`
for an error. -/
theorem hearAll_of_connected {chunk received : List UInt8} {chunks : List (List UInt8)}
    (isOpen : v.isOpen = true)
    (heard : hear chunk v = ⟨true, 0, received, false⟩)
    (later : hearAll chunks ⟨true, 0, received, false⟩ =
      ⟨!endsFull chunks, 0, received ++ chunks.flatten, false⟩) :
    hearAll (chunk :: chunks) v = ⟨!endsFull (chunk :: chunks), 0, received ++ chunks.flatten,
      false⟩ := by
  by_cases full : chunk.length = READ_BUFFER_SIZE ∧ chunks = []
  · rw [hearAll, isOpen, if_neg (Bool.not_eq_false _ ▸ rfl), if_pos full, heard]
    obtain ⟨length, rfl⟩ := full
    simp [close, endsFull, length]
  · rw [hearAll_cons isOpen full, heard, later]
    by_cases last : chunks = []
    · subst last
      have short : chunk.length ≠ READ_BUFFER_SIZE := fun length => full ⟨length, rfl⟩
      simp [endsFull, short]
    · rw [endsFull_cons last]

theorem hearAll_connected (chunks : List (List UInt8)) (received : List UInt8) :
    hearAll chunks ⟨true, 0, received, false⟩ =
      ⟨!endsFull chunks, 0, received ++ chunks.flatten, false⟩ := by
  induction chunks generalizing received with
  | nil => simp [hearAll, endsFull]
  | cons chunk chunks ih =>
    have heard : hear chunk ⟨true, 0, received, false⟩ = ⟨true, 0, received ++ chunk, false⟩ := rfl
    rw [hearAll_of_connected rfl heard (ih _), List.flatten_cons, List.append_assoc]

/-- The connect reply and the data: what comes first is taken for the whole reply. -/
theorem hearAll_connect {d : Dialogue} (cut : Cut (d.connectReply ++ d.data)) :
    ∃ chunk chunks, cut.chunks = chunk :: chunks ∧
      chunk ++ chunks.flatten = d.connectReply ++ d.data ∧
      hearAll cut.chunks ⟨true, 6, [], false⟩ =
        if 2 < chunk.length ∧ d.status = 0x00 then ⟨!endsFull cut.chunks, 0, chunks.flatten, false⟩
        else closed := by
  obtain ⟨chunks, flatten_eq, -, -⟩ := cut
  match chunks with
  | [] => cases flatten_eq
  | chunk :: chunks =>
    refine ⟨chunk, chunks, rfl, flatten_eq, ?_⟩
    have heard := hear_connect chunk
    dsimp only
    by_cases long : 2 < chunk.length
    · -- the status is the second byte of the first result
      obtain ⟨x, y, rest, rfl⟩ : ∃ x y rest, chunk = x :: y :: rest := by
        match chunk, long with
        | x :: y :: rest, _ => exact ⟨x, y, rest, rfl⟩
      obtain rfl : y = d.status := (List.cons.inj (List.cons.inj flatten_eq).2).1
      rw [if_pos long] at heard
      by_cases accepted : d.status = 0x00
      · rw [if_pos ⟨long, accepted⟩]
        exact hearAll_of_connected rfl (heard.trans (if_pos accepted)) (hearAll_connected _ _)
      · rw [if_neg fun both => accepted both.2]
        exact hearAll_of_closed rfl (heard.trans (if_neg accepted))
    · rw [if_neg long] at heard
      rw [if_neg fun both => long both.1]
      exact hearAll_of_closed rfl heard

end Phases

end View

/-! ## Outcomes -/

/-- A proxy that lets the client through connects it, and all the data and no byte of a reply are
passed on; any other proxy has the connection closed. -/
def Meets (d : Dialogue) (c : Client σ) : Prop :=
  (d.Accepted → c.isOpen = true ∧ c.onConnectedSent = true ∧ c.received.flatten = d.data) ∧
    (¬ d.Accepted → c.isOpen = false)

/-- A method that is not known comes in two pieces, and a proxy that lets the client through sends
its short replies in one piece each and the connect reply as a piece of its own, and the last piece
does not fill the buffer. -/
structure Unbroken {d : Dialogue} (split : Split d) : Prop where
  known : d.method = 0x00 ∨ d.method = 0x02 ∨ d.method = 0xff ∨ split.method.chunks.length ≠ 1
  method : d.Accepted → split.method.chunks.length = 1
  auth : d.Accepted → d.method = 0x02 → split.auth.chunks.length = 1
  connect : d.Accepted → split.connect.chunks.head? = some d.connectReply
  last : d.Accepted → View.endsFull split.connect.chunks = false

section Outcomes

variable {d : Dialogue} (split : Split d)

/-- The end of a negotiation whose connect request has been sent. -/
def View.ending : View := (View.hearAll split.connect.chunks ⟨true, 6, [], false⟩).write

/-- A short reply is heard when it comes in one piece. -/
theorem View.hearAll_reply {x y : UInt8} (cut : Cut [x, y]) {n : ℕ} (state : n = 2 ∨ n = 4) :
    hearAll cut.chunks ⟨true, n, [], false⟩ =
      if cut.chunks.length ≠ 1 then closed else hear [x, y] ⟨true, n, [], false⟩ := by
  rcases cut_two cut with whole | broken
  · have one : ¬ [[x, y]].length ≠ 1 := not_not_intro rfl
    rw [whole, if_neg one, hearAll_short rfl le_rfl]
    rfl
  · have two : [[x], [y]].length ≠ 1 := by simp
    rw [broken, if_pos two, hearAll_broken state]

/-- Where the negotiation ends. -/
theorem negotiate_eq :
    View.negotiate split =
      if split.method.chunks.length ≠ 1 then View.closed
      else if d.method = 0xff then View.closed
      else if d.method = 0x02 then
        if split.auth.chunks.length ≠ 1 then View.closed
        else if d.authStatus ≠ 0x00 then View.closed
        else View.ending split
      else if d.method = 0x00 then View.ending split
      else ⟨true, 2, [], false⟩ := by
  have method := View.hearAll_reply split.method (Or.inl rfl)
  have auth := View.hearAll_reply split.auth (Or.inr rfl)
  rw [View.hear_method] at method
  rw [View.hear_auth] at auth
  have run : View.negotiate split =
    ((((View.hearAll split.method.chunks ⟨true, 2, [], false⟩).write.answer 4
      split.auth.chunks).write.answer 6 split.connect.chunks).write) := rfl
  rw [run, method]
  split_ifs with broken refused asked broken' wrong free
  · rfl
  · rfl
  · have phase : (View.write ⟨true, 3, [], false⟩).answer 4 split.auth.chunks =
        View.hearAll split.auth.chunks ⟨true, 4, [], false⟩ := rfl
    rw [phase, auth, if_pos broken']
    rfl
  · have phase : (View.write ⟨true, 3, [], false⟩).answer 4 split.auth.chunks =
        View.hearAll split.auth.chunks ⟨true, 4, [], false⟩ := rfl
    rw [phase, auth, if_neg broken', if_pos wrong]
    rfl
  · have phase : (View.write ⟨true, 3, [], false⟩).answer 4 split.auth.chunks =
        View.hearAll split.auth.chunks ⟨true, 4, [], false⟩ := rfl
    rw [phase, auth, if_neg broken', if_neg wrong]
    rfl
  · rfl
  · rfl

/-- The end behind a connect request: connected when the first piece holds the whole reply and
more. -/
theorem ending_eq :
    ∃ chunk chunks, split.connect.chunks = chunk :: chunks ∧
      chunk ++ chunks.flatten = d.connectReply ++ d.data ∧
      View.ending split =
        if 2 < chunk.length ∧ d.status = 0x00 then
          ⟨!View.endsFull split.connect.chunks, 0, chunks.flatten,
            !View.endsFull split.connect.chunks⟩
        else View.closed := by
  obtain ⟨chunk, chunks, cut, whole, heard⟩ := View.hearAll_connect split.connect
  refine ⟨chunk, chunks, cut, whole, ?_⟩
  unfold View.ending
  rw [heard]
  split_ifs
  · cases View.endsFull split.connect.chunks <;> rfl
  · rfl

/-- The outcome on the view. -/
def View.Meets (d : Dialogue) (v : View) : Prop :=
  (d.Accepted → v.isOpen = true ∧ v.onConnectedSent = true ∧ v.received = d.data) ∧
    (¬ d.Accepted → v.isOpen = false)

/-- A closed connection is what a proxy that refuses should lead to. -/
theorem View.closed_meets_iff : View.closed.Meets d ↔ ¬ d.Accepted := by
  constructor
  · intro meets accepted
    cases (meets.1 accepted).1
  · intro refused
    exact ⟨fun accepted => absurd accepted refused, fun _ => rfl⟩

theorem View.ending_meets_iff (passed : d.Accepted ↔ d.status = 0x00) :
    (View.ending split).Meets d ↔ (d.Accepted → split.connect.chunks.head? = some d.connectReply ∧
      View.endsFull split.connect.chunks = false) := by
  obtain ⟨chunk, chunks, cut, whole, ending⟩ := ending_eq split
  rw [ending, cut, List.head?_cons, Option.some_inj]
  have long : 2 < d.connectReply.length := by
    rw [d.length_connectReply]
    split <;> omega
  split_ifs with heard
  · have accepted := passed.2 heard.2
    constructor
    · intro meets _
      obtain ⟨isOpen, -, received⟩ := meets.1 accepted
      have received : chunks.flatten = d.data := received
      rw [received] at whole
      exact ⟨List.append_cancel_right whole, by simpa using isOpen⟩
    · intro condition
      obtain ⟨first, notFull⟩ := condition accepted
      rw [first] at whole
      refine ⟨fun _ => ⟨?_, ?_, List.append_cancel_left whole⟩, fun refused =>
        absurd accepted refused⟩
      · show (!View.endsFull (chunk :: chunks)) = true
        rw [notFull]
        rfl
      · show (!View.endsFull (chunk :: chunks)) = true
        rw [notFull]
        rfl
  · rw [View.closed_meets_iff]
    constructor
    · exact fun refused accepted => absurd accepted refused
    · intro condition accepted
      obtain ⟨rfl, -⟩ := condition accepted
      exact heard ⟨long, passed.1 accepted⟩

/-- What the negotiation comes to. -/
theorem negotiate_meets_iff : (View.negotiate split).Meets d ↔ Unbroken split := by
  have refused_iff (known : d.method = 0x00 ∨ d.method = 0x02 ∨ d.method = 0xff ∨
    split.method.chunks.length ≠ 1)
      (closes : Unbroken split → ¬ d.Accepted) : View.closed.Meets d ↔ Unbroken split := by
    rw [View.closed_meets_iff]
    refine ⟨fun refused => ⟨known, ?_, ?_, ?_, ?_⟩, closes⟩ <;> exact fun accepted =>
      absurd accepted refused
  have ending_iff (known : d.method = 0x00 ∨ d.method = 0x02) (passed : d.Accepted ↔
    d.status = 0x00)
      (method : split.method.chunks.length = 1)
        (auth : d.method = 0x02 → split.auth.chunks.length = 1) :
      (View.ending split).Meets d ↔ Unbroken split := by
    rw [View.ending_meets_iff split passed]
    constructor
    · intro condition
      exact ⟨known.imp_right .inl, fun _ => method, fun _ => auth, fun accepted =>
        (condition accepted).1,
        fun accepted => (condition accepted).2⟩
    · exact fun unbroken accepted => ⟨unbroken.connect accepted, unbroken.last accepted⟩
  rw [negotiate_eq]
  split_ifs with broken refused asked broken' wrong free
  · exact refused_iff (.inr (.inr (.inr broken))) fun unbroken accepted =>
      broken (unbroken.method accepted)
  · refine refused_iff (.inr (.inr (.inl refused))) fun _ accepted => ?_
    rcases accepted.1 with free | ⟨asked, -⟩
    · exact absurd (refused.symm.trans free) (by decide)
    · exact absurd (refused.symm.trans asked) (by decide)
  · exact refused_iff (.inr (.inl asked)) fun unbroken accepted =>
      broken' (unbroken.auth accepted asked)
  · refine refused_iff (.inr (.inl asked)) fun _ accepted => ?_
    rcases accepted.1 with free | ⟨-, right⟩
    · exact absurd (asked.symm.trans free) (by decide)
    · exact wrong right
  · have right : d.authStatus = 0x00 := not_not.1 wrong
    exact ending_iff (.inr asked) ⟨And.right, fun status => ⟨.inr ⟨asked, right⟩, status⟩⟩
      (not_not.1 broken)
      fun _ => not_not.1 broken'
  · exact ending_iff (.inl free) ⟨And.right, fun status => ⟨.inl free, status⟩⟩ (not_not.1 broken)
      fun asked' => absurd asked' asked
  · -- an unknown method neither connects nor closes
    constructor
    · intro meets
      have notAccepted : ¬ d.Accepted := fun accepted => accepted.1.elim free fun both =>
        asked both.1
      cases meets.2 notAccepted
    · intro unbroken
      rcases unbroken.known with h | h | h | h
      · exact absurd h free
      · exact absurd h asked
      · exact absurd h refused
      · exact absurd h broken

end Outcomes

theorem client_meets_iff (onReceivedData : σ → NetworkBuffer → σ × NetworkBuffer) (t : Target)
    {d : Dialogue} (split : Split d) (networkBuffer : NetworkBuffer) (connection : σ) :
    Meets d (negotiate onReceivedData t split networkBuffer connection) ↔ Unbroken split := by
  have viewed : Meets d (negotiate onReceivedData t split networkBuffer connection) ↔
      (negotiate onReceivedData t split networkBuffer connection).view.Meets d := Iff.rfl
  rw [viewed, view_negotiate, negotiate_meets_iff]

/-- A proxy that wants no credentials and lets the client through, and two bytes of data. -/
def welcoming : Dialogue where
  version := 5
  method := 0
  authVersion := 1
  authStatus := 0
  replyVersion := 5
  status := 0
  reserved := 0
  address := .ipv4 fun _ => 0
  port := fun _ => 0
  data := [42, 43]

/-- Each reply in a piece of its own, and the data in another one. -/
def separate : Split welcoming where
  method := ⟨[[5, 0]], rfl, by decide, by decide⟩
  auth := ⟨[[1, 0]], rfl, by decide, by decide⟩
  connect := ⟨[[5, 0, 0, 1, 0, 0, 0, 0, 0, 0], [42, 43]], rfl, by decide, by decide⟩

/-- The method reply in two pieces. -/
def halved : Split welcoming where
  method := ⟨[[5], [0]], rfl, by decide, by decide⟩
  auth := separate.auth
  connect := separate.connect

/-- The connect reply together with the data. -/
def coalesced : Split welcoming where
  method := separate.method
  auth := separate.auth
  connect := ⟨[[5, 0, 0, 1, 0, 0, 0, 0, 0, 0, 42, 43]], rfl, by decide, by decide⟩

/-- A proxy that chooses a method that has not been offered. -/
def foreign : Dialogue := { welcoming with method := 1 }

def foreignSplit : Split foreign where
  method := ⟨[[5, 1]], rfl, by decide, by decide⟩
  auth := ⟨[[1, 0]], rfl, by decide, by decide⟩
  connect := ⟨[[5, 0, 0, 1, 0, 0, 0, 0, 0, 0], [42, 43]], rfl, by decide, by decide⟩

def plainTarget : Target where
  proxyUser := []
  proxyPassword := []
  isIpv6 := false
  address := [127, 0, 0, 1]
  port := 443

end Mtproto.Tgnet.Socks5
