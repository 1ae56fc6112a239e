import Mtproto.Tgnet.Reassembly

/-!
# One recv buffer of a stream

The bytes of a recv buffer complete some items of the stream and leave a part of the next one.
`joinRest_header` and `joinRest_body` say how they are joined to what is carried, and
`onReceivedData_spec` what one call delivers and keeps, for every `Carry` whose bytes are taken
for what they are, and when it reads a deleted buffer instead.
-/

namespace Mtproto.Tgnet

open Bytes NativeByteBuffer

/-! ## Cutting a list of items -/

section Split

variable {p : ProtocolType}

/-- `split` cuts the bytes of a stream at `n`. -/
theorem split_spec {items done todo : List Item} {n left : ℕ} (within : n ≤ (wires p items).length)
    (cut : split p items n = (done, todo, left)) :
    items = done ++ todo ∧ n = (wires p done).length + left ∧ Partial p todo left := by
  induction items generalizing n done with
  | nil =>
    simp only [split, Prod.mk.injEq] at cut
    obtain ⟨rfl, rfl, rfl⟩ := cut
    exact ⟨rfl, (Nat.zero_add n).symm, Nat.le_zero.1 within⟩
  | cons i items ih =>
    rw [split] at cut
    split_ifs at cut with hle
    · obtain ⟨done', todo', left', cut'⟩ : ∃ done' todo' left',
          split p items (n - (i.wire p).length) = (done', todo', left') := ⟨_, _, _, rfl⟩
      simp only [cut', Prod.mk.injEq] at cut
      obtain ⟨rfl, rfl, rfl⟩ := cut
      have hrest : n - (i.wire p).length ≤ (wires p items).length := by
        rw [wires_cons, List.length_append] at within
        omega
      obtain ⟨rfl, hn, partly⟩ := ih hrest cut'
      refine ⟨rfl, ?_, partly⟩
      rw [wires_cons, List.length_append]
      omega
    · simp only [Prod.mk.injEq] at cut
      obtain ⟨rfl, rfl, rfl⟩ := cut
      exact ⟨rfl, (Nat.zero_add n).symm, Nat.not_le.1 hle⟩

variable {items done todo : List Item} {left left' : ℕ} {piece rest : List UInt8}

/-- The stream behind the next recv buffer of `piece.length` bytes. -/
theorem split_stream (stream : (wires p items).drop left = piece ++ rest) (nonempty : piece ≠ [])
    (cut : split p items (left + piece.length) = (done, todo, left')) :
    items = done ++ todo ∧ left + piece.length = (wires p done).length + left' ∧
      Partial p todo left' ∧ (wires p todo).drop left' = rest ∧
      (wires p items).take left ++ piece = wires p done ++ (wires p todo).take left' := by
  have hlen := congrArg List.length stream
  have hpos := List.length_pos_iff.2 nonempty
  rw [List.length_drop, List.length_append] at hlen
  obtain ⟨rfl, hn, partly⟩ := split_spec (by omega) cut
  rw [wires_append] at stream ⊢
  refine ⟨rfl, hn, partly, ?_, ?_⟩
  · calc (wires p todo).drop left'
        = (wires p done ++ wires p todo).drop ((wires p done).length + left') := by
          rw [List.drop_length_add_append]
      _ = ((wires p done ++ wires p todo).drop left).drop piece.length := by
          rw [← hn, List.drop_drop]
      _ = rest := by rw [stream, List.drop_left]
  · calc (wires p done ++ wires p todo).take left ++ piece
        = (wires p done ++ wires p todo).take (left + piece.length) := by
          rw [List.take_add, stream, List.take_left]
      _ = wires p done ++ (wires p todo).take left' := by
          rw [hn, List.take_length_add_append]

/-- An incomplete item at the end of a stream is none at all. -/
theorem items_eq_nil_of_partial (partly : Partial p items left)
    (stream : (wires p items).drop left = []) : items = [] := by
  cases items with
  | nil => rfl
  | cons i items =>
    have hshort : left < (i.wire p).length := partly
    have hlen := congrArg List.length stream
    rw [List.length_drop, wires_cons, List.length_append, List.length_nil] at hlen
    omega

end Split

/-! ## Joining a recv buffer to the carried bytes -/

section Join

variable {s : ReceiveState} {kept piece : List UInt8} {capacity len : ℕ}

theorem joinRest_nothing (nothing : s.restOfTheData = none) :
    joinRest s (sliced piece) = .inl ⟨sliced piece, .null, s.lastPacketLength, none⟩ := by
  rw [joinRest, nothing]
  rfl

/-- What has been written is what is read after a rewind. -/
theorem unread_rewind_of_full {b : NativeByteBuffer} (wf : b.Wf) (full : b.position = b.limit) :
    b.rewind.unread = b.filled := by
  rw [unread_rewind wf, (unread_eq_nil_iff wf).2 full, List.append_nil]

/-- Behind an incomplete header the new bytes are appended, in place or in a larger buffer. -/
theorem joinRest_header (last : s.lastPacketLength = 0)
    (keeps : Keeps s kept kept.length capacity) (bound : kept.length + piece.length < 2 ^ 32) :
    ∃ b, joinRest s (sliced piece) = .inl ⟨b, .buffer, 0, none⟩ ∧ b.Wf ∧ b.filled = [] ∧
      b.unread = kept ++ piece ∧
      b.capacity = Carry.joinedCapacity capacity kept.length piece.length := by
  obtain ⟨b, hb, wf, filled, limit, rfl⟩ := keeps
  have hposition : b.position = kept.length := by rw [← filled, length_filled wf]
  have wfp : (sliced piece).Wf := wf_sliced (by omega)
  have hcapacity := wf.capacity_lt
  have hle := wf.position_le.trans wf.limit_le
  have hroom : u32 (b.capacity + 2 ^ 32 - b.position) = b.capacity - kept.length := by
    rw [u32]
    omega
  have hlimit : (sliced piece).limit = piece.length := rfl
  unfold joinRest Carry.joinedCapacity
  simp only [hb, last, if_true, hroom, hlimit]
  by_cases hfit : b.capacity - kept.length ≥ piece.length
  · have hsum : u32 (b.position + piece.length) = b.position + piece.length :=
      u32_of_lt (by omega)
    have hgrow : b.setLimit (b.position + piece.length) =
        { b with limit := b.position + piece.length } := by
      rw [setLimit, if_neg (by omega), if_neg (by omega)]
    have wfg : ({ b with limit := b.position + piece.length } : NativeByteBuffer).Wf :=
      ⟨Nat.le_add_right .., by simp only; omega, wf.length_eq, wf.capacity_lt⟩
    obtain ⟨-, wf', filled', position', limit', capacity'⟩ :=
      writeBytes_eq wfg wfp (by rw [unread_sliced])
    rw [unread_sliced] at filled' position'
    rw [if_pos hfit, if_pos hfit, hsum, hgrow]
    refine ⟨_, rfl, rewind_wf wf', filled_rewind, ?_, by rw [rewind_capacity, capacity']⟩
    rw [unread_rewind_of_full wf' (position'.trans limit'.symm), filled', ← filled]
    rfl
  · have hsum : u32 (b.limit + piece.length) = kept.length + piece.length := by
      rw [limit]
      exact u32_of_lt bound
    have hkept : b.rewind.unread = kept := by
      rw [unread_rewind_of_full wf (hposition.trans limit.symm), filled]
    obtain ⟨wf1, filled1, position1, limit1, capacity1⟩ :=
      getFreeBuffer_writeBytes bound (rewind_wf wf) (by rw [hkept]; omega)
    rw [hkept] at filled1 position1
    obtain ⟨-, wf2, filled2, position2, limit2, capacity2⟩ :=
      writeBytes_eq wf1 wfp (by rw [unread_sliced, position1, limit1])
    rw [unread_sliced] at filled2 position2
    rw [if_neg hfit, if_neg hfit, hsum]
    refine ⟨_, rfl, rewind_wf wf2, filled_rewind, ?_,
      by rw [rewind_capacity, capacity2, capacity1]⟩
    rw [unread_rewind_of_full wf2 (by omega), filled2, filled1]

/-- Behind an incomplete packet only the missing bytes are appended. -/
theorem joinRest_body (last : s.lastPacketLength = len) (known : len ≠ 0)
    (keeps : Keeps s kept len capacity) (bound : piece.length < 2 ^ 32) :
    (len ≤ kept.length + piece.length ∧
      ∃ b later, joinRest s (sliced piece) = .inl ⟨b, .buffer, len, later⟩ ∧ b.Wf ∧ b.position = 0 ∧
        b.unread = kept ++ piece.take (len - kept.length) ∧ b.capacity = capacity ∧
        later = (if len - kept.length < piece.length then
          some ((sliced piece).advance (len - kept.length)) else none)) ∨
    (kept.length + piece.length < len ∧
      ∃ s', joinRest s (sliced piece) = .inr s' ∧ s'.lastPacketLength = len ∧
        Keeps s' (kept ++ piece) len capacity) := by
  obtain ⟨b, hb, wf, filled, limit, rfl⟩ := keeps
  have hposition : b.position = kept.length := by rw [← filled, length_filled wf]
  have wfp : (sliced piece).Wf := wf_sliced bound
  have hcapacity := wf.capacity_lt
  have hle := wf.position_le
  have hlimit := wf.limit_le
  have hmissing : u32 (len + 2 ^ 32 - b.position) = len - kept.length := by
    rw [u32]
    omega
  -- `part` is how much of the recv buffer belongs to the carried packet.
  obtain ⟨part, hpart⟩ : ∃ part, part = if len - kept.length ≤ piece.length then len - kept.length
      else piece.length := ⟨_, rfl⟩
  have hpartle : part ≤ (sliced piece).unread.length := by
    rw [unread_sliced, hpart]
    split_ifs <;> omega
  have hnarrow := setLimit_packet wfp hpartle
  have hunread := unread_setLimit_packet wfp hpartle
  rw [unread_sliced] at hunread hpartle
  have hzero : (sliced piece).position + part = part := Nat.zero_add part
  rw [hzero] at hnarrow hunread
  have wfn : ((sliced piece).setLimit part).Wf := by
    rw [hnarrow]
    exact ⟨Nat.zero_le _, hpartle, rfl, bound⟩
  have hlength : ((sliced piece).setLimit part).unread.length = part := by
    rw [hunread, List.length_take, Nat.min_eq_left hpartle]
  obtain ⟨source, wf', filled', position', limit', capacity'⟩ :=
    writeBytes_eq wf wfn (by rw [hlength, hpart]; split_ifs <;> omega)
  rw [hlength] at source position'
  rw [hunread, filled] at filled'
  have hrestore : (((sliced piece).setLimit part).advance part).setLimit piece.length =
      (sliced piece).advance part := by
    rw [hnarrow, setLimit, if_neg (by exact Nat.lt_irrefl _),
      if_neg (by simp only [advance, sliced]; omega)]
    rfl
  have hjoin : joinRest s (sliced piece) =
      if b.position + part = len then
        .inl ⟨(b.writeBytes ((sliced piece).setLimit part)).1.rewind, .buffer, len,
          if ((sliced piece).advance part).hasRemaining then some ((sliced piece).advance part)
          else none⟩
      else .inr ⟨some (b.writeBytes ((sliced piece).setLimit part)).1, len⟩ := by
    have hl : (sliced piece).limit = piece.length := rfl
    unfold joinRest
    simp only [hb, last, if_neg known, hmissing, hl, ← hpart, source, position', hrestore]
  by_cases hfull : len ≤ kept.length + piece.length
  · have hpart' : part = len - kept.length := by
      rw [hpart, if_pos (by omega)]
    left
    refine ⟨hfull, _, _, hjoin.trans (if_pos (by omega)), rewind_wf wf', rfl, ?_, ?_, ?_⟩
    · rw [unread_rewind_of_full wf' (by omega), filled', hpart']
    · rw [rewind_capacity, capacity']
    · simp only [hasRemaining, advance, sliced, decide_eq_true_eq, Nat.zero_add, hpart']
  · have hpart' : part = piece.length := by
      rw [hpart, if_neg (by omega)]
    right
    refine ⟨by omega, _, hjoin.trans (if_neg (by omega)), rfl, _, rfl, wf', ?_, limit'.trans limit,
      capacity'⟩
    rw [filled', hpart', List.take_length]

end Join

/-! ## One recv buffer -/

/-- The items that are delivered once more with the next recv buffer. -/
def Carry.again : Carry → List Item
  | .acks delivered _ => delivered
  | _ => []

theorem trail_append (acks done done' : List Item) :
    trail acks (done ++ done') = trail (trail acks done) done' := by
  induction done generalizing acks with
  | nil => rfl
  | cons i done ih => exact ih _

theorem trail_quickAcks {p : ProtocolType} {done : List Item} (acks : List Item)
    (quick : QuickAcks p done) : trail acks done = acks ++ done := by
  induction done generalizing acks with
  | nil => exact (List.append_nil acks).symm
  | cons i done ih =>
    have hi : i.isQuickAck = true := (quick i (List.mem_cons_self ..)).1
    rw [trail, if_pos hi, ih _ fun j hj => quick j (List.mem_cons_of_mem _ hj), List.append_assoc]
    rfl

/-- Quick acks that come first are `acks` to the rest. -/
theorem endsBehindPacket_quickAcks {p : ProtocolType} {acks done : List Item} {left : ℕ}
    (some_acks : acks ≠ []) (quick : QuickAcks p acks) :
    EndsBehindPacket [] (acks ++ done) left ↔ EndsBehindPacket acks done left := by
  unfold EndsBehindPacket
  rw [trail_append, trail_quickAcks [] quick, List.nil_append]
  refine ⟨fun h => ⟨?_, h.2⟩, fun h => ⟨List.append_ne_nil_of_left_ne_nil some_acks _, h.2⟩⟩
  rintro rfl
  exact some_acks h.2.1

theorem any_ite_some_iff {c : Prop} [Decidable c] {capacity : ℕ} {f : ℕ → Bool} :
    ((if c then some capacity else none).any fun n => !f n) = true ↔ c ∧ f capacity = false := by
  split_ifs with h
  · simp [h]
  · simp [h]

section Piece

variable {p : ProtocolType} {room : Bool} {s : ReceiveState} {items done todo : List Item}
  {left left' : ℕ} {piece rest : List UInt8}

theorem partial_le (partly : Partial p todo left) : left ≤ (wires p todo).length := by
  cases todo with
  | nil => exact Nat.le_of_eq partly
  | cons i rest =>
    rw [wires_cons, List.length_append]
    exact Nat.le_add_right_of_le (Nat.le_of_lt partly)

theorem length_le_length_wires (items : List Item) : items.length ≤ (wires p items).length := by
  induction items with
  | nil => exact Nat.zero_le _
  | cons i items ih =>
    have := Item.length_wire_pos (p := p) (i := i)
    rw [wires_cons, List.length_append, List.length_cons]
    omega

/-- The loop has fuel for every item that lies in its buffers. -/
theorem length_lt_loopFuel {r : Receiving} {t : List UInt8}
    (unread : r.buffer.unread = wires p done ++ t) : done.length < loopFuel r := by
  have hdone := length_le_length_wires (p := p) done
  have hlen := congrArg List.length unread
  rw [List.length_append] at hlen
  unfold loopFuel
  omega

variable (room) in
/-- Parsing in the carried buffer, from its front. -/
theorem onReceivedData_joined (delivered : List Item) {kept : List UInt8} {capacity : ℕ}
    (last : s.lastPacketLength = 0) (keeps : Keeps s kept kept.length capacity)
    (bound : kept.length + piece.length < 2 ^ 32) (nonempty : piece ≠ [])
    (accepted : ∀ i ∈ delivered ++ done ++ todo, i.Accepted p) (partly : Partial p todo left')
    (bytes : kept ++ piece = wires p (delivered ++ done) ++ (wires p todo).take left') :
    Leads (onReceivedData p s ⟨piece, room⟩)
      (EndsBehindPacket [] (delivered ++ done) left' ∧
        survivesReuse room (Carry.joinedCapacity capacity kept.length piece.length) = false)
      ((delivered ++ done).map Item.delivery) fun s' =>
        Holds p s' todo left' (Carry.joined p
          (Carry.joinedCapacity capacity kept.length piece.length)
          (trail [] (delivered ++ done)) todo left') := by
  obtain ⟨b, join, wf, filled, unread, hcapacity⟩ := joinRest_header last keeps bound
  have hne : b.unread ≠ [] := by
    rw [unread]
    exact List.append_ne_nil_of_right_ne_nil _ nonempty
  rw [bytes] at unread
  rw [onReceivedData, join, ← hcapacity]
  exact receiveLoop_joined (quickAcks_nil p)
    (length_lt_loopFuel unread) wf accepted partly filled (Or.inr hne) unread

variable (room) in
/-- The carried packet is complete: it is delivered, and parsing goes on in the recv buffer if that
has more; if not, the loop condition still reads the carried buffer. -/
theorem iteration_carried {b : NativeByteBuffer} (later : Option NativeByteBuffer) {long : Bool}
    {payload : List UInt8} (wf : b.Wf) (front : b.position = 0)
    (accepted : (Item.packet long payload).Accepted p)
    (unread : b.unread = (Item.packet long payload).wire p) :
    iteration p room ⟨b, .buffer, ((Item.packet long payload).wire p).length, later⟩ =
      if later = none ∧ survivesReuse room b.capacity = false then .dangling
      else .next ⟨later.getD (b.advance ((Item.packet long payload).wire p).length), .null,
        ((Item.packet long payload).wire p).length, none⟩ (.data payload) := by
  have hpos := Item.length_wire_pos (p := p) (i := .packet long payload)
  have step := iteration_packet room (t := [])
    (r := ⟨b, .buffer, ((Item.packet long payload).wire p).length, later⟩) wf accepted
    (unread.trans (List.append_nil _).symm)
  have hrelease : releaseRest ⟨b.advance ((Item.packet long payload).wire p).length, .buffer,
      ((Item.packet long payload).wire p).length, later⟩ =
      ⟨b.advance ((Item.packet long payload).wire p).length, .null,
        ((Item.packet long payload).wire p).length, later⟩ := by
    refine if_pos (Or.inl ⟨by simp only; omega, ?_⟩)
    rw [advance_position, front, Nat.zero_add]
  rw [step]
  simp only [DeletesBuffer, hrelease, true_and, advance_capacity]
  cases later <;> rfl

theorem onReceivedData_body {long : Bool} {payload : List UInt8} {tail : List Item} {capacity : ℕ}
    (short : left < ((Item.packet long payload).wire p).length)
    (last : s.lastPacketLength = ((Item.packet long payload).wire p).length)
    (keeps : Keeps s (((Item.packet long payload).wire p).take left)
      ((Item.packet long payload).wire p).length capacity)
    (accepted : ∀ i ∈ Item.packet long payload :: tail, i.Accepted p)
    (bound : piece.length < 2 ^ 32) (nonempty : piece ≠ [])
    (stream : (wires p (.packet long payload :: tail)).drop left = piece ++ rest)
    (cut : split p (.packet long payload :: tail) (left + piece.length) = (done, todo, left')) :
    Leads (onReceivedData p s ⟨piece, room⟩)
      ((done.length = 1 ∧ left' = 0) ∧ survivesReuse room capacity = false)
      (done.map Item.delivery) fun s' =>
        Holds p s' todo left' (if done = [] then .body capacity else Carry.plain p todo left') := by
  obtain ⟨hitems, hn, partly, -, bytes⟩ := split_stream stream nonempty cut
  have hpos := Item.length_wire_pos (p := p) (i := .packet long payload)
  have hkept : (((Item.packet long payload).wire p).take left).length = left := by
    rw [List.length_take]
    omega
  rw [wires_take_of_lt _ short] at bytes
  rcases joinRest_body last (by omega) keeps bound with
    ⟨hfull, b, later, join, wf, front, unread, hcapacity, hlater⟩ |
    ⟨hshort, s', join, last', keeps'⟩
  · rw [hkept] at hfull unread hlater
    set len := ((Item.packet long payload).wire p).length with hlen
    -- The first item is complete, and what `split` does with the rest is a split of the tail.
    rw [split, if_pos hfull] at cut
    obtain ⟨done', todo', left'', cut'⟩ : ∃ done' todo' left'',
        split p tail (left + piece.length - len) = (done', todo', left'') := ⟨_, _, _, rfl⟩
    simp only [← hlen, cut', Prod.mk.injEq] at cut
    obtain ⟨rfl, rfl, rfl⟩ := cut
    obtain rfl : tail = done' ++ todo' := by simpa using hitems
    rw [wires_cons, List.append_assoc] at bytes
    have hwire : (Item.packet long payload).wire p =
        ((Item.packet long payload).wire p).take left ++ piece.take (len - left) := by
      have := congrArg (List.take len) bytes
      rw [List.take_append, hkept, List.take_take, List.take_left' hlen.symm,
        Nat.min_eq_right short.le] at this
      exact this.symm
    have hdrop : piece.drop (len - left) = wires p done' ++ (wires p todo').take left'' := by
      have := congrArg (List.drop len) bytes
      rw [List.drop_append, hkept, List.drop_left' hlen.symm,
        List.drop_eq_nil_of_le (by omega), List.nil_append] at this
      exact this
    have step := iteration_carried room later wf front
      (accepted _ (List.mem_cons_self ..)) (unread.trans hwire.symm)
    rw [← hlen, hcapacity] at step
    have more : b.unread ≠ [] := by
      rw [unread, ← hwire, ← List.length_pos_iff]
      exact hpos
    have hsum := congrArg List.length hdrop
    rw [List.length_append, List.length_drop, List.length_take] at hsum
    have hpartial := partial_le partly
    -- Nothing follows the packet in the recv buffer.
    have hnone : later = none ↔ (Item.packet long payload :: done').length = 1 ∧ left'' = 0 := by
      have hwires := wires_eq_nil_iff (p := p) done'
      rw [← List.length_eq_zero_iff] at hwires
      rw [hlater, List.length_cons, Nat.add_eq_right, List.length_eq_zero_iff, ← hwires]
      split_ifs with hmore
      · exact iff_of_false (by simp) (by omega)
      · exact iff_of_true rfl (by omega)
    have fault : onReceivedData p s ⟨piece, room⟩ =
        receiveLoop p room (loopFuel ⟨b, .buffer, len, later⟩) ⟨b, .buffer, len, later⟩ := by
      rw [onReceivedData, join]
    rw [← hnone, fault]
    by_cases gone : later = none ∧ survivesReuse room capacity = false
    · rw [if_pos gone] at step
      exact ⟨fun _ => receiveLoop_dangling wf more step, fun h => absurd gone h⟩
    refine leads_of_not gone ?_
    rw [if_neg gone] at step
    have wfb : (b.advance len).Wf := wf.advance (by rw [unread, ← hwire])
    obtain ⟨c, hc, wfc, unreadc⟩ : ∃ c, later.getD (b.advance len) = c ∧ c.Wf ∧
        c.unread = piece.drop (len - left) := by
      rw [hlater]
      split_ifs with hmore
      · refine ⟨_, rfl, (wf_sliced bound).advance (by rw [unread_sliced]; omega), ?_⟩
        rw [Option.getD_some, unread_advance, unread_sliced]
      · refine ⟨_, rfl, wfb, ?_⟩
        rw [List.drop_eq_nil_of_le (by omega), Option.getD_none, unread_advance, unread, ← hwire,
          hlen, List.drop_length]
    rw [hc] at step
    rw [hdrop] at unreadc
    have hfuel : done'.length <
        b.unread.length + (later.elim 0 fun b => b.unread.length) := by
      have hdone := length_le_length_wires (p := p) done'
      have hb : b.unread.length = len := by rw [unread, ← hwire]
      rw [hb, hlater]
      split_ifs with hmore
      · simp only [Option.elim, unread_advance, unread_sliced, List.length_drop]
        omega
      · omega
    obtain ⟨s', loop, holds⟩ := receiveLoop_plain room (n := len) hfuel wfc
      (fun j hj => accepted j (List.mem_cons_of_mem _ hj)) partly unreadc
    refine ⟨s', receiveLoop_next wf more step loop, ?_⟩
    rw [if_neg (List.cons_ne_nil _ _)]
    exact holds
  · rw [hkept] at hshort
    rw [split, if_neg (by omega)] at cut
    simp only [Prod.mk.injEq] at cut
    obtain ⟨rfl, rfl, rfl⟩ := cut
    refine leads_of_not (fun h => by simp at h) ⟨s', by rw [onReceivedData, join]; rfl, ?_⟩
    rw [if_pos rfl]
    refine ⟨long, payload, tail, rfl, hshort, last', ?_⟩
    rw [bytes, wires_nil, List.nil_append, wires_take_of_lt _ hshort] at keeps'
    exact keeps'

variable (room) in
/-- One recv buffer, whatever is carried: the complete items are delivered, after those that are
still in the carried buffer, and the next state holds what is left; where a packet uses the carried
buffer up, that has to survive. -/
theorem onReceivedData_spec {carry : Carry} (holds : Holds p s items left carry)
    (known : ∀ delivered, carry ≠ .misread delivered) (accepted : ∀ i ∈ items, i.Accepted p)
    (bound : (wires p carry.again).length + (wires p items).length < 2 ^ 32)
    (nonempty : piece ≠ []) (stream : (wires p items).drop left = piece ++ rest)
    (cut : split p items (left + piece.length) = (done, todo, left')) :
    Leads (onReceivedData p s ⟨piece, room⟩)
      ((carry.usedUp p items left piece.length).any (fun c => !survivesReuse room c) = true)
      ((carry.again ++ done).map Item.delivery) fun s' =>
        Holds p s' todo left' (carry.next p items left piece.length) := by
  obtain ⟨hitems, hn, partly, -, bytes⟩ := split_stream stream nonempty cut
  have hlen := congrArg List.length stream
  have hpiece := List.length_pos_iff.2 nonempty
  have hall : ∀ i ∈ done ++ todo, i.Accepted p := hitems ▸ accepted
  rw [List.length_drop, List.length_append] at hlen
  simp only [Carry.next, Carry.usedUp, cut]
  cases carry with
  | nothing =>
    obtain ⟨nothing, rfl⟩ := holds
    rw [List.take_zero, List.nil_append] at bytes
    have unread : (sliced piece).unread = wires p done ++ (wires p todo).take left' := by
      rw [unread_sliced, bytes]
    refine leads_of_not (by simp) ?_
    rw [onReceivedData, joinRest_nothing nothing]
    exact receiveLoop_plain room (length_lt_loopFuel unread) (wf_sliced (by simp only; omega)) hall
      partly unread
  | header capacity =>
    obtain ⟨hpos, last, keeps⟩ := holds
    have hkept : ((wires p items).take left).length = left := by
      rw [List.length_take]
      omega
    have joined := onReceivedData_joined room [] last (by rw [hkept]; exact keeps)
      (by omega) nonempty hall partly bytes
    rw [hkept, ← any_ite_some_iff] at joined
    exact joined
  | body capacity =>
    obtain ⟨long, payload, tail, rfl, short, last, keeps⟩ := holds
    rw [any_ite_some_iff]
    exact onReceivedData_body short last keeps accepted (by omega) nonempty stream cut
  | acks delivered capacity =>
    obtain ⟨rfl, hne, quick, last, keeps⟩ := holds
    have hall' : ∀ i ∈ delivered ++ done ++ todo, i.Accepted p := by
      intro i hi
      rw [List.append_assoc] at hi
      exact (List.mem_append.1 hi).elim (fun h => (quick i h).2) (hall i)
    rw [List.take_zero, List.nil_append] at bytes
    have hbytes : wires p delivered ++ piece =
        wires p (delivered ++ done) ++ (wires p todo).take left' := by
      rw [bytes, wires_append, List.append_assoc]
    have hbound : (wires p delivered).length + piece.length < 2 ^ 32 := by
      simp only [Carry.again] at bound
      omega
    have joined := onReceivedData_joined room delivered last keeps hbound nonempty hall'
      partly hbytes
    rw [endsBehindPacket_quickAcks hne quick, trail_append, trail_quickAcks [] quick,
      List.nil_append, ← any_ite_some_iff] at joined
    exact joined
  | misread delivered => exact absurd rfl (known delivered)

end Piece

end Mtproto.Tgnet
