import Mtproto.Tgnet.Segmentation

/-!
# Which cuts of a stream are harmless

A stream of accepted items reaches `onReceivedData` in non-empty recv buffers.  The deliveries are
those of the stream in one piece exactly when the cuts are `Intact`.

A recv buffer may end right behind a packet that was parsed in the carried buffer.  That buffer goes
back to the pool, and the loop condition reads it once more: the pool must not delete it, which it
does with a buffer of no pool class and with one whose free list is full (`Carry.usedUp`).

When a recv buffer is joined to an incomplete length word or quick ack, parsing starts in the
carried buffer, and only a packet removes from it what has been delivered.  If the last item that
the buffer completes is a quick ack and more is to come, then

* a buffer that ends right behind the ack is kept whole, and its acks are delivered again
  (`Carry.acks`);
* a buffer that ends inside the body of a packet for which the capacity suffices is kept whole,
  and its acks are taken for the beginning of that packet (`Carry.misread`).

Every other cut is harmless.
-/

namespace Mtproto.Tgnet

open Bytes NativeByteBuffer

/-- The length of a recv buffer, with what it says about the pool. -/
def Recv.cut (recv : Recv) : ℕ × Bool := (recv.bytes.length, recv.room)

/-- Recv buffers of these lengths use up no carried buffer that the pool deletes, and they leave
nothing behind that has been delivered, except at the end of the stream. -/
def Intact (p : ProtocolType) : Carry → List Item → ℕ → List (ℕ × Bool) → Prop
  | _, _, _, [] => True
  | carry, items, left, (length, room) :: cuts =>
    (carry.usedUp p items left length).all (survivesReuse room) = true ∧
      (cuts = [] ∨ (carry.next p items left length).Sound ∧
        Intact p (carry.next p items left length) (split p items (left + length)).2.1
          (split p items (left + length)).2.2 cuts)

instance decidableIntact (p : ProtocolType) :
    (carry : Carry) → (items : List Item) → (left : ℕ) → (cuts : List (ℕ × Bool)) →
      Decidable (Intact p carry items left cuts)
  | _, _, _, [] => isTrue trivial
  | carry, items, left, (length, room) :: cuts =>
    have := decidableIntact p (carry.next p items left length) (split p items (left + length)).2.1
      (split p items (left + length)).2.2 cuts
    inferInstanceAs (Decidable ((carry.usedUp p items left length).all (survivesReuse room) = true ∧
      (cuts = [] ∨ (carry.next p items left length).Sound ∧
        Intact p (carry.next p items left length) (split p items (left + length)).2.1
          (split p items (left + length)).2.2 cuts)))

/-- No buffer that is used up is deleted. -/
theorem all_survives_iff (room : Bool) (usedUp : Option ℕ) :
    usedUp.all (survivesReuse room) = true ↔
      ¬ usedUp.any (fun c => !survivesReuse room c) = true := by
  cases usedUp <;> simp

section Runs

variable {p : ProtocolType} {room : Bool} {s s' : ReceiveState} {carry : Carry}
  {items done todo : List Item} {left left' : ℕ} {recvs : List Recv} {ds : List Delivery}

theorem receiveAll_cons {recv : Recv} (step : onReceivedData p s recv = some (s', ds)) :
    receiveAll p s (recv :: recvs) = (receiveAll p s' recvs).map fun rest => ds ++ rest := by
  rw [receiveAll, step]
  rfl

theorem receiveAll_dangling {recv : Recv} (step : onReceivedData p s recv = none) :
    receiveAll p s (recv :: recvs) = none := by
  rw [receiveAll, step]
  rfl

/-! ## Delivered acks do not outgrow the stream -/

theorem length_wires_trail (acks done : List Item) :
    (wires p (trail acks done)).length ≤ (wires p acks).length + (wires p done).length := by
  induction done generalizing acks with
  | nil => exact Nat.le_add_right _ _
  | cons i done ih =>
    have := ih (if i.isQuickAck then acks ++ [i] else [])
    rw [trail, wires_cons, List.length_append]
    split_ifs at * with hi
    · rw [wires_append, wires_cons, wires_nil, List.append_nil, List.length_append] at this
      omega
    · rw [wires_nil, List.length_nil] at this
      omega

theorem again_plain (todo : List Item) : (Carry.plain p todo left).again = [] := by
  unfold Carry.plain
  split
  · rfl
  · split_ifs <;> rfl

theorem length_again_joined (capacity : ℕ) (acks todo : List Item) :
    (wires p (Carry.joined p capacity acks todo left).again).length ≤ (wires p acks).length := by
  unfold Carry.joined
  split
  · split_ifs <;> simp [Carry.again]
  · split_ifs <;> simp [Carry.again]

theorem length_again_next (carry : Carry) {length : ℕ}
    (cut : split p items (left + length) = (done, todo, left')) :
    (wires p (carry.next p items left length).again).length ≤
      (wires p carry.again).length + (wires p done).length := by
  simp only [Carry.next, cut]
  cases carry with
  | nothing => simp [again_plain]
  | header capacity =>
    exact (length_again_joined ..).trans (length_wires_trail [] done)
  | body capacity =>
    split_ifs
    · simp [Carry.again]
    · simp [again_plain]
  | acks delivered capacity =>
      exact (length_again_joined ..).trans (length_wires_trail delivered done)
  | misread delivered => simp [Carry.again]

/-! ## A misread packet -/

/-- Four bytes of a packet's length word are not the whole of a packet with a body. -/
theorem four_lt_length_wire {long : Bool} {payload : List UInt8}
    (accepted : (Item.packet long payload).Accepted p)
    (headed : ((Item.packet long payload).header p).length ≤ left)
    (short : left < ((Item.packet long payload).wire p).length) :
    4 < ((Item.packet long payload).wire p).length := by
  obtain ⟨hmod, -, -⟩ := accepted
  rw [Item.length_wire, Item.body] at short ⊢
  cases p with
  | EF =>
    have := hmod (by decide)
    have := Item.length_header_pos (p := .EF) (i := .packet long payload)
    omega
  | EE | DD =>
    simp only [Item.header, length_toLE] at *
    omega

/-- A connection that takes a quick ack for the beginning of a packet delivers no packet first. -/
theorem receiveAll_misread {ackId len capacity : ℕ} {t : List UInt8} {ws : List Delivery}
    (accepted : (Item.quickAck ackId).Accepted p) (last : s.lastPacketLength = len)
    (known : len ≠ 0) (keeps : Keeps s ((Item.quickAck ackId).wire p ++ t) len capacity)
    (bound : ∀ recv ∈ recvs, recv.bytes.length < 2 ^ 32) (run : receiveAll p s recvs = some ws)
    (payload : List UInt8) : ws.head? ≠ some (.data payload) := by
  induction recvs generalizing s t with
  | nil =>
    obtain rfl : [] = ws := Option.some.inj run
    simp
  | cons recv recvs ih =>
    have hpiece := bound recv (List.mem_cons_self ..)
    rcases joinRest_body last known keeps hpiece with
      ⟨-, b, later, join, wf, -, unread, -, -⟩ | ⟨-, s', join, last', keeps'⟩
    · rw [List.append_assoc] at unread
      have more : b.unread ≠ [] := (unread_advance_wire unread).2.1
      have step := iteration_quickAck recv.room (r := ⟨b, .buffer, len, later⟩) wf accepted
        unread
      rw [receiveAll, onReceivedData, join] at run
      simp only [loopFuel, receiveLoop, if_pos ((hasRemaining_iff wf).2 more), step] at run
      cases hrest : receiveLoop p recv.room (b.unread.length + later.elim 0 fun b =>
          b.unread.length)
          ⟨b.advance 4, .buffer, len, later⟩ with
      | none => simp [hrest] at run
      | some out =>
        simp only [hrest, Option.map_some, Option.bind_some, Option.map_eq_some_iff] at run
        obtain ⟨rest, -, rfl⟩ := run
        simp
    · rw [List.append_assoc] at keeps'
      have step : onReceivedData p s recv = some (s', []) := by
        rw [onReceivedData, join]
      rw [receiveAll_cons step] at run
      simp only [List.nil_append, Option.map_id'] at run
      exact ih last' keeps' (fun q hq => bound q (List.mem_cons_of_mem _ hq)) run

/-- The state after a cut inside the body of a packet that follows delivered acks. -/
theorem Holds.misread_keeps {delivered : List Item}
    (holds : Holds p s items left (.misread delivered)) (accepted : ∀ i ∈ items, i.Accepted p) :
    ∃ payload ackId len capacity t, (items.map Item.delivery).head? = some (.data payload) ∧
      (Item.quickAck ackId).Accepted p ∧ s.lastPacketLength = len ∧ len ≠ 0 ∧
      Keeps s ((Item.quickAck ackId).wire p ++ t) len capacity := by
  obtain ⟨long, payload, rest, capacity, rfl, ne, quick, headed, short, last, keeps⟩ := holds
  have big := four_lt_length_wire (accepted _ (List.mem_cons_self ..)) headed short
  obtain ⟨i, delivered, rfl⟩ := List.exists_cons_of_ne_nil ne
  obtain ⟨hquick, haccepted⟩ := quick i (List.mem_cons_self ..)
  cases i with
  | packet long payload => exact absurd hquick Bool.false_ne_true
  | quickAck ackId =>
    have hlen : ((Item.quickAck ackId).wire p).length = 4 := by
      rw [Item.wire_quickAck, Item.length_header_quickAck]
    rw [wires_cons, List.append_assoc, List.take_append, List.take_of_length_le (by omega)] at keeps
    exact ⟨payload, ackId, _, capacity, _, rfl, haccepted, last, by omega, keeps⟩

/-! ## Acks that are delivered again -/

/-- How many quick acks a sequence of deliveries begins with. -/
def lead : List Delivery → ℕ
  | .quickAck _ :: ds => lead ds + 1
  | _ => 0

theorem lead_append_le (ds : List Delivery) {es es' : List Delivery} (h : lead es ≤ lead es') :
    lead (ds ++ es) ≤ lead (ds ++ es') := by
  induction ds with
  | nil => exact h
  | cons d ds ih =>
    cases d with
    | quickAck ackId => exact Nat.add_le_add_right ih 1
    | data payload => exact le_rfl
    | reconnect => exact le_rfl

theorem lead_quickAcks {acks : List Item} (quick : QuickAcks p acks) (ds : List Delivery) :
    lead (acks.map Item.delivery ++ ds) = acks.length + lead ds := by
  induction acks with
  | nil => exact (Nat.zero_add _).symm
  | cons i acks ih =>
    have hi := (quick i (List.mem_cons_self ..)).1
    have htail := ih fun j hj => quick j (List.mem_cons_of_mem _ hj)
    cases i with
    | packet long payload => exact absurd hi Bool.false_ne_true
    | quickAck ackId =>
      simp only [List.map_cons, List.cons_append, Item.delivery, lead, htail, List.length_cons]
      omega

theorem Holds.quickAcks_again (holds : Holds p s items left carry) : QuickAcks p carry.again := by
  cases carry with
  | acks delivered capacity => exact holds.2.2.1
  | nothing | header capacity | body capacity | misread delivered => exact quickAcks_nil p

/-- However the rest of the stream is cut, the leading quick acks are delivered, and those that are
still in the carried buffer once more. -/
theorem lead_le_lead_receiveAll {ws : List Delivery} (holds : Holds p s items left carry)
    (accepted : ∀ i ∈ items, i.Accepted p) (partly : Partial p items left)
    (nonempty : ∀ recv ∈ recvs, recv.bytes ≠ [])
    (stream : (wires p items).drop left = (recvs.map Recv.bytes).flatten)
    (bound : (wires p carry.again).length + (wires p items).length < 2 ^ 32)
    (more : carry.again ≠ [] → recvs ≠ []) (run : receiveAll p s recvs = some ws) :
    carry.again.length + lead (items.map Item.delivery) ≤ lead ws := by
  induction recvs generalizing s items left carry ws with
  | nil =>
    obtain rfl := items_eq_nil_of_partial partly stream
    have hnone : carry.again = [] := by
      by_contra h
      exact more h rfl
    rw [hnone]
    exact Nat.zero_le _
  | cons recv recvs ih =>
    by_cases hmisread : ∃ delivered, carry = .misread delivered
    · obtain ⟨delivered, rfl⟩ := hmisread
      obtain ⟨long, payload, rest, capacity, rfl, -⟩ := holds
      exact Nat.zero_le _
    obtain ⟨done, todo, left', cut⟩ : ∃ done todo left',
        split p items (left + recv.bytes.length) = (done, todo, left') := ⟨_, _, _, rfl⟩
    have hpiece := nonempty recv (List.mem_cons_self ..)
    have leads := onReceivedData_spec recv.room holds (fun d h => hmisread ⟨d, h⟩) accepted
      bound hpiece stream cut
    obtain ⟨s', step, holds'⟩ := leads.2 fun dangling => by
      rw [receiveAll_dangling (leads.1 dangling)] at run
      cases run
    obtain ⟨rfl, -, partly', stream', -⟩ := split_stream stream hpiece cut
    have hbound := length_again_next carry cut
    rw [receiveAll_cons step, Option.map_eq_some_iff] at run
    obtain ⟨ws, run, rfl⟩ := run
    have htodo : lead (todo.map Item.delivery) ≤ lead ws := by
      by_cases hlast : recvs = []
      · subst hlast
        obtain rfl := items_eq_nil_of_partial partly' stream'
        exact Nat.zero_le _
      · have := ih holds' (fun i hi => accepted i (List.mem_append_right _ hi)) partly'
          (fun q hq => nonempty q (List.mem_cons_of_mem _ hq)) stream'
          (by rw [wires_append, List.length_append] at bound; omega) (fun _ => hlast) run
        omega
    rw [List.map_append, List.map_append, List.append_assoc, lead_quickAcks holds.quickAcks_again]
    exact Nat.add_le_add_left (lead_append_le _ htodo) _

/-! ## Runs -/

/-- A connection that keeps what it should delivers the rest of the stream as it is exactly when the
cuts are harmless. -/
theorem receiveAll_eq_iff_intact (holds : Holds p s items left carry) (sound : carry.Sound)
    (accepted : ∀ i ∈ items, i.Accepted p) (partly : Partial p items left)
    (nonempty : ∀ recv ∈ recvs, recv.bytes ≠ [])
    (stream : (wires p items).drop left = (recvs.map Recv.bytes).flatten)
    (bound : (wires p items).length < 2 ^ 32) :
    receiveAll p s recvs = some (items.map Item.delivery) ↔
      Intact p carry items left (recvs.map Recv.cut) := by
  induction recvs generalizing s items left carry with
  | nil =>
    obtain rfl := items_eq_nil_of_partial partly stream
    exact iff_of_true rfl trivial
  | cons recv recvs ih =>
    obtain ⟨done, todo, left', cut⟩ : ∃ done todo left',
        split p items (left + recv.bytes.length) = (done, todo, left') := ⟨_, _, _, rfl⟩
    have hpiece := nonempty recv (List.mem_cons_self ..)
    have hagain : carry.again = [] := by
      cases carry with
      | nothing | header capacity | body capacity => rfl
      | acks delivered capacity | misread delivered => exact sound.elim
    have hknown (delivered : List Item) : carry ≠ .misread delivered := by
      rintro rfl
      exact sound
    have leads := onReceivedData_spec recv.room holds hknown accepted
      (by rw [hagain]; simpa using bound) hpiece stream cut
    rw [hagain, List.nil_append] at leads
    rw [List.map_cons, Recv.cut, Intact, all_survives_iff]
    by_cases dangling : ((carry.usedUp p items left recv.bytes.length).any
        fun c => !survivesReuse recv.room c) = true
    · refine iff_of_false (fun run => ?_) (fun h => h.1 dangling)
      rw [receiveAll_dangling (leads.1 dangling)] at run
      cases run
    obtain ⟨s', step, holds'⟩ := leads.2 dangling
    rw [and_iff_right dangling]
    have hbound := length_again_next carry cut
    rw [hagain] at hbound
    obtain ⟨rfl, -, partly', stream', -⟩ := split_stream stream hpiece cut
    have accepted' : ∀ i ∈ todo, i.Accepted p := fun i hi => accepted i (List.mem_append_right _ hi)
    have nonempty' : ∀ q ∈ recvs, q.bytes ≠ [] := fun q hq => nonempty q (List.mem_cons_of_mem _ hq)
    rw [wires_append, List.length_append] at bound
    -- What this buffer delivers is right, so the rest of the run decides.
    have hrest : receiveAll p s (recv :: recvs) = some ((done ++ todo).map Item.delivery) ↔
        receiveAll p s' recvs = some (todo.map Item.delivery) := by
      rw [receiveAll_cons step, List.map_append, Option.map_eq_some_iff]
      constructor
      · rintro ⟨ws, run, hws⟩
        rw [run, List.append_cancel_left hws]
      · exact fun run => ⟨_, run, rfl⟩
    rw [hrest, cut]
    simp only
    by_cases hlast : recvs = []
    · subst hlast
      obtain rfl := items_eq_nil_of_partial partly' stream'
      exact iff_of_true rfl (Or.inl rfl)
    have hmore : recvs.map Recv.cut ≠ [] := by simpa using hlast
    rw [or_iff_right hmore]
    generalize carry.next p (done ++ todo) left recv.bytes.length = carry' at holds' hbound ⊢
    by_cases hsound : carry'.Sound
    · rw [and_iff_right hsound]
      exact ih holds' hsound accepted' partly' nonempty' stream' (by omega)
    refine iff_of_false (fun run => ?_) (fun h => hsound h.1)
    cases carry' with
    | nothing | header capacity | body capacity => exact hsound trivial
    | acks delivered capacity =>
      have hlead := lead_le_lead_receiveAll holds' accepted' partly' nonempty' stream'
        (by rw [wires_nil, List.length_nil] at hbound; omega) (fun _ => hlast) run
      have hpos : 0 < delivered.length := List.length_pos_iff.2 holds'.2.1
      simp only [Carry.again] at hlead
      omega
    | misread delivered =>
      obtain ⟨payload, ackId, len, capacity, t, head, haccepted, last, known, keeps⟩ :=
        holds'.misread_keeps accepted'
      refine receiveAll_misread haccepted last known keeps (fun q hq => ?_) run payload head
      have hq : q.bytes.length ≤ (recvs.map Recv.bytes).flatten.length :=
        (List.sublist_flatten_of_mem (List.mem_map_of_mem hq)).length_le
      rw [← stream', List.length_drop] at hq
      omega

/-- Cutting a stream changes nothing exactly when the cuts are harmless. -/
theorem receiveAll_eq_whole_iff {p : ProtocolType} {items : List Item} {recvs : List Recv}
    (room : Bool) (accepted : ∀ i ∈ items, i.Accepted p)
    (nonempty : ∀ recv ∈ recvs, recv.bytes ≠ [])
    (stream : (recvs.map Recv.bytes).flatten = wires p items)
    (bound : (wires p items).length < 2 ^ 32) :
    receiveAll p .initial [⟨wires p items, room⟩] = some (items.map Item.delivery) ∧
      (receiveAll p .initial recvs = receiveAll p .initial [⟨wires p items, room⟩] ↔
        Intact p .nothing items 0 (recvs.map Recv.cut)) := by
  have holds : Holds p .initial items 0 .nothing := ⟨rfl, rfl⟩
  have partly : Partial p items 0 := by
    cases items with
    | nil => rfl
    | cons i items => exact Item.length_wire_pos
  have whole : receiveAll p .initial [⟨wires p items, room⟩] = some (items.map Item.delivery) := by
    by_cases hnil : items = []
    · subst hnil
      rfl
    · refine (receiveAll_eq_iff_intact holds trivial accepted partly ?_ (by simp) bound).2
        ⟨rfl, Or.inl rfl⟩
      simpa [wires_eq_nil_iff] using hnil
  refine ⟨whole, ?_⟩
  rw [whole]
  exact receiveAll_eq_iff_intact holds trivial accepted partly nonempty stream.symm bound

end Runs

/-- A frame and a quick ack that are cut inside a length word, a body and the ack. -/
theorem receiveAll_eq_whole_of_cuts :
    receiveAll .DD .initial
        [⟨[4, 0], true⟩, ⟨[0, 0, 1], true⟩, ⟨[2, 3, 4], true⟩, ⟨[5, 0, 0], false⟩,
          ⟨[0x80], false⟩] =
      receiveAll .DD .initial [⟨wires .DD [.packet false [1, 2, 3, 4], .quickAck 5], true⟩] :=
  (@receiveAll_eq_whole_iff .DD [.packet false [1, 2, 3, 4], .quickAck 5]
    [⟨[4, 0], true⟩, ⟨[0, 0, 1], true⟩, ⟨[2, 3, 4], true⟩, ⟨[5, 0, 0], false⟩, ⟨[0x80], false⟩] true
    (by decide) (by decide) (by decide) (by decide)).2.2 (by decide +kernel)

/-- A quick ack that arrives in two halves is delivered again with the next recv buffer. -/
theorem receiveAll_ne_whole_of_split_quickAck :
    (∀ i ∈ [Item.quickAck 5, Item.quickAck 6], i.Accepted .EF) ∧
      List.flatten [[0x80, 0], [0, 5], [0x80, 0, 0, 6]] =
        wires .EF [Item.quickAck 5, Item.quickAck 6] ∧
      receiveAll .EF .initial [⟨wires .EF [Item.quickAck 5, Item.quickAck 6], true⟩] =
        some [.quickAck 5, .quickAck 6] ∧
      receiveAll .EF .initial [⟨[0x80, 0], true⟩, ⟨[0, 5], true⟩, ⟨[0x80, 0, 0, 6], true⟩] =
        some [.quickAck 5, .quickAck 5, .quickAck 6] := by
  decide +kernel

/-- The body of the second frame is lost when it is cut behind a quick ack. -/
example : receiveAll .DD .initial [⟨[4, 0], true⟩, ⟨[0, 0, 1, 2, 3, 4, 5, 0], true⟩,
    ⟨[0, 0x80, 2, 0, 0, 0, 7], true⟩, ⟨[7], true⟩] =
      some [.data [1, 2, 3, 4], .quickAck 5, .quickAck 5] := by decide +kernel

/-- A frame that is completed without a further byte is read in its buffer once more. -/
example : receiveAll .DD .initial [⟨[4, 0], true⟩, ⟨[0, 0, 1, 2, 3, 4], false⟩] = none := by
  decide +kernel

end Mtproto.Tgnet
