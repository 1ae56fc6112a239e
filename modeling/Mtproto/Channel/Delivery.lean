import Mtproto.Channel.Messages
import Mtproto.Lifecycle.Record

/-!
# What arrives

However a line is lost and opened again and however little a socket takes at a time, the other side
reads on each socket frames that it opens with the key, and finds the packets of
`sendMessagesToConnection` in them, each at most once and in order; and the packets have the
messages that were given, each at most once and in order (`messages_arrive`).
-/

namespace Mtproto.Channel

open Lib Program Bytes Streams Tgnet Datacenter Lifecycle

variable {crypto : Datacenter.Crypto} {tgnet : Tgnet.Crypto} {x : Sender}

/-! ## Packets -/

namespace Packet

variable (p : Packet)

def envelope : Envelope :=
  Datacenter.envelope p.occasion.surroundings false (p.messages.map NetworkMessage.message)

/-- What is encrypted: the header, the body and the padding. -/
def plaintext : List UInt8 := Datacenter.plaintext p.occasion.surroundings p.envelope

/-- The other side cuts the padding of the transport off, opens the message with the key and finds
the header and the body. -/
structure Read (crypto : Datacenter.Crypto) (f : Frame) : Prop where
  reportAck : f.reportAck = p.reportAck
  opened : ∃ length, cipherLength true f.body.length = some length ∧ ∀ scratch,
    openMessage crypto false p.occasion.authKey 2 scratch (frameKeyId f.body) (frameKey f.body)
      (slice f.body 24 length) = (true, p.plaintext)
  recovered : Recovered p.occasion.surroundings p.envelope p.plaintext

/-- What `createRequestsData` made of the messages. -/
structure Made (crypto : Datacenter.Crypto) : Prop where
  opened : Opened crypto p.occasion.authKey p.occasion.surroundings p.envelope p.data.frame
    p.plaintext
  fits : p.send.Fits
  short : 32 ≤ (frameData p.data.frame).length
  quickAckId : ∃ authKey, p.occasion.authKey.authKeyPerm = some authKey ∧
    p.data.quickAckId = if p.reportAck then some (quickAckIdOf crypto authKey p.plaintext) else none

end Packet

/-- A message with its size in `bytes`, small enough for the three bytes of a length in EF. -/
structure Small (m : TL_message) : Prop extends Measured m where
  short : m.bytes.toNat + 2 ^ 14 ≤ 2 ^ 26

/-- The messages of one packet: the last may be of any size. -/
theorem length_packet {current : List TL_message} {message : TL_message}
    (small : ∀ m ∈ current ++ [message], Small m) (below : batchSize current < 3 * 1024) :
    (Native.spellAll (msgContainer (current ++ [message]))).length + 2 ^ 9 ≤ 2 ^ 26 := by
  have measured : ∀ m ∈ current ++ [message], Measured m := fun m member =>
    (small m member).toMeasured
  have few := length_le_batchSize fun m member => measured m (List.mem_append_left [message] member)
  have short :=
    (small message (List.mem_append_right current (List.mem_singleton_self message))).short
  rw [length_msgContainer measured, batchSize_append_singleton, List.length_append,
    List.length_singleton]
  omega

theorem made_of_created {o : Occasion} (version : o.surroundings.mtProtoVersion = 2)
    (reportAck : Bool)
    {messages : List NetworkMessage}
    (short : (Native.spellAll (msgContainer (messages.map NetworkMessage.message))).length + 2 ^ 9 ≤
      2 ^ 26)
    {data : RequestsData}
    (created : createRequestsData crypto o.authKey o.scratch o.surroundings false reportAck
      (messages.map NetworkMessage.message) = some data) :
    Packet.Made ⟨o, reportAck, messages, data⟩ crypto := by
  obtain ⟨authKey, perm⟩ : ∃ authKey, o.authKey.authKeyPerm = some authKey := by
    cases perm : o.authKey.authKeyPerm with
    | none => simp [createRequestsData, AuthKey.getAuthKey, perm] at created
    | some authKey => exact ⟨authKey, rfl⟩
  obtain ⟨sent, built, length_frame, opened, ack⟩ :=
    createRequestsData_reads (e := o.surroundings) crypto perm version
    o.scratch reportAck ⟨messages.map NetworkMessage.message, by omega⟩
  obtain rfl : sent = data := Option.some.inj (built.symm.trans created)
  have length_frame : sent.frame.length = 24 + (plaintext o.surroundings
    (Datacenter.envelope o.surroundings false (messages.map NetworkMessage.message))).length :=
      length_frame
  have length_data := length_plaintext o.surroundings
    (Datacenter.envelope o.surroundings false (messages.map NetworkMessage.message))
  have length_body := length_envelope_le o.surroundings false (messages.map NetworkMessage.message)
  obtain ⟨aligned, -, most⟩ :=
    additionalSize_two o.surroundings.index (by omega : 24 + 32 + (Native.spellAll
      (Datacenter.envelope o.surroundings false
        (messages.map NetworkMessage.message)).messageBody).length + 255 < 2 ^ 32)
  rw [← length_data] at aligned
  refine ⟨opened, ⟨?_, ?_⟩, ?_, authKey, perm, ack⟩
  · show sent.frame.length % 4 = 0
    omega
  · show sent.frame.length < 2 ^ 24 * 4
    omega
  · show 32 ≤ (frameData sent.frame).length
    rw [frameData, List.length_drop]
    omega

/-- The padding of the transport is shorter than a block. -/
theorem Packet.Made.read {p : Packet} (made : p.Made crypto) {protocol : ProtocolType} {f : Frame}
    (carried : p.send.Carried protocol f) : p.Read crypto f := by
  obtain ⟨reportAck, padding, body, short⟩ := carried
  have body : f.body = p.data.frame ++ padding := body
  have few : padding.length ≤ 15 := by
    cases protocol with
    | EF => exact short.trans (Nat.zero_le 15)
    | EE | DD => exact short
  have whole := made.opened.whole
  have least := made.short
  have most : p.data.frame.length < 2 ^ 24 * 4 := made.fits.short
  rw [frameData, List.length_drop] at whole least
  have length_body : f.body.length = p.data.frame.length + padding.length := by
    rw [body, List.length_append]
  refine ⟨reportAck, ⟨(frameData p.data.frame).length, ?_, fun scratch => ?_⟩,
    made.opened.recovered⟩
  · have rest : u32 (f.body.length + 2 ^ 32 - 24) = f.body.length - 24 := by
      rw [u32]
      omega
    have cut : u32 (f.body.length - padding.length + 2 ^ 32 - 24) = p.data.frame.length - 24 := by
      rw [u32]
      omega
    have trimmed : (f.body.length - 24) % 16 = padding.length := by omega
    simp only [cipherLength, rest, if_true, trimmed, cut, Bool.not_true, Bool.false_and,
      Bool.or_false, decide_eq_true_eq]
    rw [if_neg (by omega), frameData, List.length_drop]
  · have id_eq : slice f.body 0 8 = slice p.data.frame 0 8 := by
      rw [body]
      exact slice_append_left (by omega)
    have key_eq : slice f.body 8 16 = slice p.data.frame 8 16 := by
      rw [body]
      exact slice_append_left (by omega)
    have data_eq : slice f.body 24 (frameData p.data.frame).length = frameData p.data.frame := by
      have inside : 24 + (frameData p.data.frame).length ≤ p.data.frame.length := by
        rw [frameData, List.length_drop]
        omega
      rw [body, slice_append_left inside, slice, frameData, List.take_length]
    rw [frameKeyId, frameKey, id_eq, key_eq, data_eq]
    exact made.opened.accepted scratch

/-! ## Wires -/

namespace Handed

def messages : Handed → List NetworkMessage
  | packet p => p.messages
  | other _ => []

/-- A packet is opened; anything else comes as it was handed over. -/
def Read (crypto : Datacenter.Crypto) (f : Frame) : Handed → Prop
  | packet p => p.Read crypto f
  | other s => ∃ protocol ≠ ProtocolType.EE, s.Carried protocol f

end Handed

/-- What the wire has carried is the front of a stream with these packets. -/
def Delivers (crypto : Datacenter.Crypto) (tgnet : Tgnet.Crypto) (wire : Wire)
    (items : List Handed) : Prop :=
  (items = [] ∧ wire.bytes = []) ∨ ∃ stream frames, wire.bytes <+: stream ∧
    receive tgnet wire.sharedSecret stream = some frames ∧
      List.Forall₂ (fun h f => Handed.Read crypto f h) items frames

/-- A good wire delivers what was handed to it. -/
theorem delivers_of_good {wire : Wire} (good : wire.Good tgnet) {items : List Handed}
    (sends : wire.sends = items.map Handed.send)
    (made : ∀ p, Handed.packet p ∈ items → p.Made crypto) : Delivers crypto tgnet wire items := by
  obtain ⟨stream, front, carries⟩ := good
  rcases carries with ⟨silent, rfl⟩ | ⟨protocol, frames, ne, received, carried⟩
  · refine .inl ⟨?_, List.prefix_nil.1 front⟩
    simpa [silent] using sends
  · refine .inr ⟨stream, frames, front, received, ?_⟩
    rw [sends, List.forall₂_map_left_iff] at carried
    refine (List.forall₂_iff_get.2 ⟨carried.length_eq, fun i h h' => ?_⟩)
    have here := carried.get h h'
    have mem := List.get_mem items ⟨i, h⟩
    cases item : items.get ⟨i, h⟩ with
    | packet p =>
        rw [item] at mem here
        exact (made p mem).read here
    | other s =>
        rw [item] at here
        exact ⟨protocol, ne, here⟩

/-- The items of several wires are those of each. -/
theorem exists_parts {wires : List Wire} {items : List Handed}
    (all : wires.flatMap Wire.sends = items.map Handed.send) :
    ∃ parts : List (List Handed), parts.flatten = items ∧
      List.Forall₂ (fun (wire : Wire) part => wire.sends = part.map Handed.send) wires parts := by
  induction wires generalizing items with
  | nil =>
    refine ⟨[], ?_, .nil⟩
    simpa using all.symm
  | cons wire wires ih =>
    rw [List.flatMap_cons, List.append_eq_map_iff] at all
    obtain ⟨part, rest, rfl, here, there⟩ := all
    obtain ⟨parts, rfl, each⟩ := ih there.symm
    exact ⟨part :: parts, rfl, .cons here.symm each⟩

/-! ## Runs -/

/-- What the input needs: small messages, version 2, and for other packets a length that fits. -/
def Input.Fits : Input → Prop
  | .line _ i => i.Fits
  | .sendMessages messages _ occasions =>
      (∀ m ∈ messages, Small m.message) ∧ ∀ n, (occasions n).surroundings.mtProtoVersion = 2
  | .quickAck _ _ => True

/-- A line as constructed, and nothing on record. -/
structure Constructed (x : Sender) : Prop where
  line : Lifecycle.Constructed x.line
  quickAckIdToRequestIds : x.quickAckIdToRequestIds = []
  history : x.history = []

/-- The sockets were given packets that were handed over, in order, and every packet is one of
`createRequestsData`. -/
structure Sending (crypto : Datacenter.Crypto) (tgnet : Tgnet.Crypto) (x : Sender) : Prop where
  sound : Sound tgnet x.line
  sent : x.line.sent.Sublist (x.handed.map Handed.send)
  made : ∀ p, Handed.packet p ∈ x.handed → p.Made crypto

theorem Sending.congr {x' : Sender} (sending : Sending crypto tgnet x) (line : x'.line = x.line)
    (handed : x'.handed = x.handed) : Sending crypto tgnet x' := by
  refine ⟨?_, ?_, ?_⟩
  · rw [line]
    exact sending.sound
  · rw [line, handed]
    exact sending.sent
  · rw [handed]
    exact sending.made

theorem Sending.sendPacket (sending : Sending crypto tgnet x) {o : Occasion}
    (version : o.surroundings.mtProtoVersion = 2) (reportAck : Bool)
    {messages : List NetworkMessage}
    (short : (Native.spellAll (msgContainer (messages.map NetworkMessage.message))).length + 2 ^ 9 ≤
      2 ^ 26) :
    Sending crypto tgnet (sendPacket crypto tgnet reportAck o messages x) ∧
      (sendPacket crypto tgnet reportAck o messages x).given = x.given ∧
      ∃ more, (sendPacket crypto tgnet reportAck o messages x).handed = x.handed ++ more ∧
        (more.flatMap Handed.messages).Sublist messages := by
  cases created : createRequestsData crypto o.authKey o.scratch o.surroundings false reportAck
      (messages.map NetworkMessage.message) with
  | none =>
    simp only [Channel.sendPacket, created]
    exact ⟨sending, trivial, [], (List.append_nil _).symm, List.nil_sublist _⟩
  | some data =>
    have made := made_of_created version reportAck short created
    simp only [Channel.sendPacket, created]
    generalize packet : (⟨o, reportAck, messages, data⟩ : Packet) = p at made
    have handed : (x.history ++ [Event.handed (.packet p)]).flatMap Event.handed? =
        x.handed ++ [.packet p] := by
      simp [Sender.handed, Event.handed?]
    refine ⟨⟨sending.sound.sendData made.fits, ?_, fun q mem => ?_⟩, ?_, [.packet p], handed, ?_⟩
    · rw [Sender.handed, handed, List.map_append]
      rcases sending.sound.sent_sendData (w := o.world) p.send with dropped | kept
      · rw [dropped]
        exact sending.sent.trans (List.sublist_append_left _ _)
      · rw [kept]
        exact sending.sent.append (List.Sublist.refl _)
    · rw [Sender.handed, handed, List.mem_append, List.mem_singleton, Handed.packet.injEq] at mem
      rcases mem with mem | rfl
      · exact sending.made q mem
      · exact made
    · simp [Sender.given, Event.given?]
    · simp [Handed.messages, ← packet]

/-- A packet of version 2 whose length fits. -/
structure Proper (r : Occasion × List NetworkMessage) : Prop where
  version : r.1.surroundings.mtProtoVersion = 2
  short : (Native.spellAll (msgContainer (r.2.map NetworkMessage.message))).length + 2 ^ 9 ≤ 2 ^ 26

/-- One packet after another. -/
def sendRounds (crypto : Datacenter.Crypto) (tgnet : Tgnet.Crypto) (reportAck : Bool)
    (rounds : List (Occasion × List NetworkMessage)) (x : Sender) : Sender :=
  rounds.foldl (fun x r => sendPacket crypto tgnet reportAck r.1 r.2 x) x

/-- The loop makes packet after packet of the messages gathered so far and those to come. -/
theorem exists_rounds (crypto : Datacenter.Crypto) (tgnet : Tgnet.Crypto) {occasions : ℕ → Occasion}
    (version : ∀ n, (occasions n).surroundings.mtProtoVersion = 2) (reportAck : Bool)
    (current : List NetworkMessage) {messages : List NetworkMessage}
    (small : ∀ m ∈ current ++ messages, Small m.message)
    (below : batchSize (current.map NetworkMessage.message) < 3 * 1024)
    (started : messages = [] → current = []) :
    ∃ rounds : List (Occasion × List NetworkMessage), rounds.flatMap Prod.snd =
      current ++ messages ∧
      (∀ r ∈ rounds, Proper r) ∧
      ∀ x, sendPackets crypto tgnet reportAck occasions current
          (batchSize (current.map NetworkMessage.message)) messages
          x = sendRounds crypto tgnet reportAck rounds x := by
  induction messages generalizing occasions current with
  | nil => exact ⟨[], by rw [started rfl]; rfl, by simp, fun _ => rfl⟩
  | cons message messages ih =>
    have gathered : ∀ m ∈ (current ++ [message]) ++ messages, Small m.message := by
      rwa [List.append_assoc, List.singleton_append]
    have here := (small message (List.mem_append_right current List.mem_cons_self)).short
    have size : u32 (batchSize (current.map NetworkMessage.message) + message.message.bytes.toNat) =
        batchSize ((current ++ [message]).map NetworkMessage.message) := by
      rw [List.map_append, List.map_singleton, batchSize_append_singleton, u32_of_lt (by omega)]
    simp only [sendPackets, size]
    split_ifs with full
    · have short :
          (Native.spellAll
            (msgContainer ((current ++ [message]).map NetworkMessage.message))).length + 2 ^ 9 ≤
          2 ^ 26 := by
        rw [List.map_append, List.map_singleton]
        apply length_packet _ below
        rw [← List.map_singleton, ← List.map_append, List.forall_mem_map]
        exact fun m member => gathered m (List.mem_append_left messages member)
      obtain ⟨rounds, content, proper, run⟩ := ih (fun n => version (n + 1)) []
        (fun m member => gathered m (List.mem_append_right _ member)) (by decide) fun _ => rfl
      refine ⟨(occasions 0, current ++ [message]) :: rounds, ?_, ?_, fun x => run _⟩
      · rw [List.flatMap_cons, content, List.nil_append, List.append_assoc, List.singleton_append]
      · exact List.forall_mem_cons.2 ⟨⟨version 0, short⟩, proper⟩
    · rw [Bool.or_eq_true, decide_eq_true_eq, not_or, not_le] at full
      obtain ⟨rounds, content, proper, run⟩ :=
        ih version _ gathered full.1 fun empty => by simp [empty] at full
      refine ⟨rounds, ?_, proper, run⟩
      rw [content, List.append_assoc, List.singleton_append]

theorem Sending.rounds (reportAck : Bool) {rounds : List (Occasion × List NetworkMessage)}
    (proper : ∀ r ∈ rounds, Proper r) (sending : Sending crypto tgnet x) :
    ∃ y, sendRounds crypto tgnet reportAck rounds x = y ∧ Sending crypto tgnet y ∧
      y.given = x.given ∧
      ∃ more, y.handed = x.handed ++ more ∧
        (more.flatMap Handed.messages).Sublist (rounds.flatMap Prod.snd) := by
  induction rounds generalizing x with
  | nil => exact ⟨x, rfl, sending, rfl, [], (List.append_nil _).symm, List.nil_sublist _⟩
  | cons r rounds ih =>
    have first := proper r List.mem_cons_self
    obtain ⟨sent, same, more, handed, inMore⟩ :=
      sending.sendPacket first.version reportAck first.short
    obtain ⟨y, run, sending, given, later, handed', inLater⟩ :=
      ih (fun r mem => proper r (List.mem_cons_of_mem _ mem)) sent
    refine ⟨y, run, sending, given.trans same, more ++ later, ?_, ?_⟩
    · rw [handed', handed, List.append_assoc]
    · rw [List.flatMap_append, List.flatMap_cons]
      exact inMore.append inLater

theorem Sending.sendMessagesToConnection (sending : Sending crypto tgnet x)
    {occasions : ℕ → Occasion}
    (version : ∀ n, (occasions n).surroundings.mtProtoVersion = 2) (reportAck : Bool)
    {messages : List NetworkMessage}
    (small : ∀ m ∈ messages, Small m.message) :
    ∃ y, sendMessagesToConnection crypto tgnet reportAck occasions messages x = y ∧
      Sending crypto tgnet y ∧
      y.given = x.given ++ messages ∧
      ∃ more, y.handed = x.handed ++ more ∧ (more.flatMap Handed.messages).Sublist messages := by
  have given : (x.history ++ [Event.given messages]).flatMap Event.given? =
      x.given ++ messages := by
    simp [Sender.given, Event.given?]
  have handed : (x.history ++ [Event.given messages]).flatMap Event.handed? = x.handed := by
    simp [Sender.handed, Event.handed?]
  obtain ⟨rounds, content, proper, run⟩ :=
    exists_rounds crypto tgnet version reportAck [] small (by decide) fun _ => rfl
  have begun : Sending crypto tgnet { x with history := x.history ++ [.given messages] } :=
    sending.congr rfl handed
  obtain ⟨y, same, sent, given', more, handed', inMore⟩ := begun.rounds reportAck proper
  refine ⟨y, (run _).trans same, sent, given'.trans given, more,
    handed'.trans (congrArg (· ++ more) handed), ?_⟩
  rwa [content] at inMore

/-- Every message that is in a packet was given, and none was put in twice. -/
structure Delivering (crypto : Datacenter.Crypto) (tgnet : Tgnet.Crypto) (x : Sender) : Prop extends
    Sending crypto tgnet x where
  messages : (x.handed.flatMap Handed.messages).Sublist x.given

theorem Constructed.delivering (constructed : Constructed x) : Delivering crypto tgnet x := by
  have handed : x.handed = [] := by rw [Sender.handed, constructed.history, List.flatMap_nil]
  refine ⟨⟨constructed.line.sound, ?_, ?_⟩, ?_⟩
  · rw [Line.sent, constructed.line.closed, constructed.line.wire]
    exact List.nil_sublist _
  · simp [handed]
  · simp [handed]

theorem onConnectionQuickAckReceived_spec (ack : ℕ) (runningRequests : List ℤ) (x : Sender) :
    (onConnectionQuickAckReceived ack runningRequests x).line = x.line ∧
      (onConnectionQuickAckReceived ack runningRequests x).handed = x.handed ∧
      (onConnectionQuickAckReceived ack runningRequests x).given = x.given := by
  rw [onConnectionQuickAckReceived]
  split <;> simp [Sender.handed, Sender.given, Event.handed?, Event.given?]

theorem Delivering.step {x' : Sender} (delivering : Delivering crypto tgnet x) {i : Input}
    (fits : i.Fits)
    (run : Channel.step crypto tgnet i x = some ((), x')) : Delivering crypto tgnet x' := by
  cases i with
  | line w i =>
    simp only [Channel.step, Option.map_eq_some_iff, Prod.exists] at run
    obtain ⟨⟨⟩, l, run, same⟩ := run
    cases same
    have sound := delivering.sound.step fits run
    obtain ⟨more, inMore, sent⟩ := delivering.sound.sent_step run
    have handed : (x.history ++ directly i).flatMap Event.handed? =
        x.handed ++ (Lifecycle.Input.sends i).map Handed.other := by
      rw [List.flatMap_append, ← Sender.handed]
      cases i <;> rfl
    have given : (x.history ++ directly i).flatMap Event.given? = x.given := by
      rw [List.flatMap_append, ← Sender.given]
      cases i <;> simp [directly, Event.given?]
    refine ⟨⟨sound, ?_, fun p mem => ?_⟩, ?_⟩
    · rw [sent, Sender.handed, handed, List.map_append, List.map_map]
      have same : (Lifecycle.Input.sends i).map (Handed.send ∘ Handed.other) =
        Lifecycle.Input.sends i := List.map_id _
      rw [same]
      exact delivering.sent.append inMore
    · rw [Sender.handed, handed, List.mem_append] at mem
      rcases mem with mem | mem
      · exact delivering.made p mem
      · simp at mem
    · have silent : ((Lifecycle.Input.sends i).map Handed.other).flatMap Handed.messages = [] := by
        simp [List.flatMap_map, Handed.messages]
      rw [Sender.handed, handed, Sender.given, given, List.flatMap_append, silent, List.append_nil]
      exact delivering.messages
  | sendMessages messages reportAck occasions =>
    cases run
    obtain ⟨y, run, sending, given, more, handed, inMore⟩ :=
      delivering.sendMessagesToConnection fits.2 reportAck fits.1
    rw [run]
    refine ⟨sending, ?_⟩
    rw [handed, given, List.flatMap_append]
    exact delivering.messages.append inMore
  | quickAck ack runningRequests =>
    cases run
    have spec := onConnectionQuickAckReceived_spec ack runningRequests x
    refine ⟨delivering.congr spec.1 spec.2.1, ?_⟩
    rw [spec.2.1, spec.2.2]
    exact delivering.messages

/-- In every state a line with its manager reaches, the sockets split packets of the history among
them, in order; from the bytes that a socket carries the other side reads the packets of its own;
and the messages in the packets are messages that were given, in order. -/
theorem messages_arrive
    (reached : Reaches (Channel.step crypto tgnet) Constructed (fun _ i => i.Fits) x) :
    (∃ carried : List (List Handed), carried.flatten.Sublist x.handed ∧
      List.Forall₂ (Delivers crypto tgnet) (x.line.closed ++ [x.line.wire]) carried) ∧
      (x.handed.flatMap Handed.messages).Sublist x.given := by
  have delivering : Delivering crypto tgnet x :=
    reached.invariant (fun _ constructed => constructed.delivering) fun _ _ _ delivering fits run =>
      delivering.step fits run
  obtain ⟨items, inside, split⟩ := List.sublist_map_iff.1 delivering.sent
  obtain ⟨parts, rfl, each⟩ := exists_parts split
  refine ⟨⟨parts, inside, ?_⟩, delivering.messages⟩
  have good : ∀ wire ∈ x.line.closed ++ [x.line.wire], wire.Good tgnet := by
    simp only [List.mem_append, List.mem_singleton]
    rintro wire (mem | rfl)
    · exact delivering.sound.closed wire mem
    · exact delivering.sound.underway.good
  have made : ∀ part ∈ parts, ∀ p, Handed.packet p ∈ part → p.Made crypto :=
    fun part mem p member =>
      delivering.made p (inside.subset (List.mem_flatten_of_mem mem member))
  refine List.forall₂_iff_get.2 ⟨each.length_eq, fun i h h' => ?_⟩
  exact delivers_of_good (good _ (List.get_mem _ _)) (each.get h h') (made _ (List.get_mem _ _))

/-- A ping goes out on a fresh connection, for the request with token 5. -/
def askedSender : Sender :=
  sendMessagesToConnection sampleCrypto countingCrypto true
    (fun _ => ⟨plainWorld, sampleAuthKey, sampleScratch, sampleSurroundings, plainDraws⟩)
    (sampleBatch.messages.map fun message => ⟨message, 5⟩) { line := constructedLine }

theorem fits_samplePing :
    (Input.sendMessages (sampleBatch.messages.map fun message => ⟨message, 5⟩) true
      (fun _ => ⟨plainWorld, sampleAuthKey, sampleScratch, sampleSurroundings,
        plainDraws⟩)).Fits := by
  refine ⟨fun m mem => ?_, fun _ => rfl⟩
  obtain rfl := List.mem_singleton.1 mem
  exact ⟨⟨by decide, by decide, by decide⟩, by decide⟩

theorem reaches_askedSender :
    Reaches (Channel.step sampleCrypto countingCrypto) Constructed (fun _ i =>
      i.Fits) askedSender := by
  have start : Reaches (Channel.step sampleCrypto countingCrypto) Constructed (fun _ i => i.Fits)
      { line := constructedLine } :=
        .start ⟨⟨rfl, rfl, rfl, rfl, rfl, rfl, rfl, rfl, rfl, rfl⟩, rfl, rfl⟩
  exact .step start fits_samplePing rfl

/-- The ping is given again when part of the first one has left and the socket is lost. -/
def askedAgain : List Input :=
  [.line plainWorld (.write 80), .line plainWorld (.closeSocket 1 (-1)),
    .sendMessages (sampleBatch.messages.map fun message => ⟨message, 5⟩) true
      (fun _ => ⟨plainWorld, sampleAuthKey, sampleScratch, sampleSurroundings, plainDraws⟩),
    .line plainWorld (.write 40)]

theorem messages_arrive_again :
    ∃ x, each (Channel.step sampleCrypto countingCrypto) askedAgain askedSender = some ((), x) ∧
      x.handed.length = 2 ∧ x.line.closed.map (·.bytes.length) = [80] ∧
        x.line.wire.bytes.length = 40 ∧
      (∃ carried : List (List Handed), carried.flatten.Sublist x.handed ∧
        List.Forall₂ (Delivers sampleCrypto countingCrypto) (x.line.closed ++ [x.line.wire])
          carried) ∧
      (x.handed.flatMap Handed.messages).Sublist x.given := by
  have lengths :
    (each (Channel.step sampleCrypto countingCrypto) askedAgain askedSender).map (fun after =>
      (after.2.handed.length, after.2.line.closed.map (·.bytes.length),
        after.2.line.wire.bytes.length)) =
        some (2, [80], 40) := by
    decide +kernel
  obtain ⟨⟨⟨⟩, x⟩, run, lengths⟩ := Option.map_eq_some_iff.1 lengths
  injection lengths with handed lengths
  injection lengths with lost sent
  have reached : Reaches (Channel.step sampleCrypto countingCrypto) Constructed (fun _ i =>
      i.Fits) x := by
    refine Reaches.each (fun i mem _ => ?_) reaches_askedSender run
    simp only [askedAgain, List.mem_cons, List.not_mem_nil, or_false] at mem
    rcases mem with rfl | rfl | rfl | rfl
    · trivial
    · trivial
    · exact fits_samplePing
    · trivial
  obtain ⟨carried, messages⟩ := messages_arrive reached
  exact ⟨x, run, handed, lost, sent, carried, messages⟩

end Mtproto.Channel
