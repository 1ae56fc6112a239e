import Mtproto.Scheme.Deserialize

/-!
# Progress of the loop over a container

Every round of the loop in `TL_msg_container::readParams` should move the position ahead by the
sixteen bytes of a message header, so that their number is bounded by the bytes that are left.  A
round does so unless the parser takes the length from the message and the end it states wraps around
`2 ^ 32`, and the rounds are as few as they should be unless the loop runs into a header that is cut
off.
-/

namespace Mtproto.Scheme

open Lib Lib.Interruptible Tgnet Scan

/-! ## Rounds -/

namespace Iteration

/-- The round sets the error or moves ahead by a header, it does not move back, and the messages
made so far are at most one for every sixteen bytes. -/
def Progress (limit : ℕ) (it : Iteration) : Prop :=
  (it.error = true ∨ it.start + 16 ≤ it.stop) ∧ it.start ≤ it.stop ∧
    it.index + 1 ≤ (limit - it.first) / 16

/-- The end that the message states does not wrap around when the parser relies on it, and a header
that is cut off comes no earlier than there could be one more message. -/
def Bounded (limit : ℕ) (it : Iteration) : Prop :=
  (it.start + 16 ≤ limit → it.relied = true → it.start + 16 + it.bytes < 2 ^ 32) ∧
    (limit < it.start + 16 → it.index + 1 ≤ (limit - it.first) / 16)

/-- What happens when the end wraps around. -/
def Lawful (limit : ℕ) (it : Iteration) : Prop :=
  it.start + 16 ≤ limit → it.relied = true → 2 ^ 32 ≤ it.start + 16 + it.bytes →
    it.error = false ∧ it.stop < it.start + 16

theorem Progress.bounded {limit : ℕ} {it : Iteration} (h : it.Progress limit)
    (hlawful : it.Lawful limit) : it.Bounded limit := by
  refine ⟨?_, fun _ => h.2.2⟩
  intro hfits hrelied
  by_contra hwraps
  obtain ⟨herror, hstop⟩ := hlawful hfits hrelied (Nat.not_lt.1 hwraps)
  rcases h.1 with h | h
  · rw [herror] at h
    cases h
  · omega

end Iteration

/-- All rounds that are written down are as they should be. -/
def AllBounded (limit : ℕ) (new : List Iteration) : Prop := ∀ it ∈ new, it.Bounded limit

theorem AllBounded.left {limit : ℕ} {xs ys : List Iteration} (h : AllBounded limit (xs ++ ys)) :
    AllBounded limit xs :=
  fun it hit => h it (List.mem_append_left _ hit)

theorem AllBounded.right {limit : ℕ} {xs ys : List Iteration} (h : AllBounded limit (xs ++ ys)) :
    AllBounded limit ys :=
  fun it hit => h it (List.mem_append_right _ hit)

/-! ## Runs -/

/-- A run over the same bytes, with the rounds it has written down. -/
structure Ran (s t : Stream) (new : List Iteration) : Prop extends s.Inside t where
  iterations : t.iterations = s.iterations ++ new

section Ran

variable {s t u : Stream} {new more : List Iteration}

theorem Ran.trans (hst : Ran s t new) (htu : Ran t u more) : Ran s u (new ++ more) := by
  refine ⟨hst.toInside.trans htu.toInside, ?_⟩
  rw [htu.iterations, hst.iterations, List.append_assoc]

theorem Stream.After.ran (h : s.After t) : Ran s t [] :=
  ⟨h.toInside, by rw [h.iterations, List.append_nil]⟩

end Ran

/-- A plain parser reads on. -/
theorem Plain.after {α : Type} {m : Scan α} (h : Plain m) {s : Stream} (hs : s.Sound) :
    s.After (m s).2 :=
  h.moves.moves s hs

/-! ## Reading a header -/

/-- What a read of a word does to the position and to the error. -/
def ReadsWord (width : ℕ) (s t : Stream) : Prop :=
  (s.buffer.position + width ≤ s.buffer.limit ∧
      t.buffer.position = s.buffer.position + width ∧ t.error = s.error) ∨
    (s.buffer.limit < s.buffer.position + width ∧
      t.buffer.position = s.buffer.position ∧ t.error = true)

section Words

variable {s : Stream}

theorem readsWord {α : Type} {width : ℕ} {read : Reader α} {look : Input → ℕ} (hs : s.Sound)
    (hwidth : width ≤ 8) (hread : (read s.toInput).2 = (Input.word width s.toInput).2) :
    ReadsWord width s (scan look read s).2 := by
  have hbuffer : (scan look read s).2.toInput = (Input.word width s.toInput).2 := hread
  unfold ReadsWord
  rcases word_cases hs.wf hs.room hwidth with ⟨hle, hword⟩ | ⟨hgt, hword⟩
  · rw [hbuffer, hword]
    exact .inl ⟨hle, rfl, rfl⟩
  · rw [hbuffer, hword]
    exact .inr ⟨hgt, rfl, rfl⟩

theorem readInt64_cases (hs : s.Sound) : ReadsWord 8 s (readInt64 s).2 :=
  readsWord hs (by decide) rfl

theorem readInt32_cases (hs : s.Sound) : ReadsWord 4 s (readInt32 s).2 :=
  readsWord hs (by decide) rfl

theorem readUint32_cases (hs : s.Sound) : ReadsWord 4 s (readUint32 s).2 :=
  readsWord hs (by decide) rfl

theorem readUint32_zero (hs : s.Sound) (h : s.buffer.limit < s.buffer.position + 4) :
    (readUint32 s).1 = some 0 := by
  rcases word_cases hs.wf hs.room (show 4 ≤ 8 by decide) with ⟨hle, -⟩ | ⟨-, hword⟩
  · omega
  · show some (Input.word 4 s.toInput).1 = _
    rw [hword]

end Words

/-- The stream after the header of a message. -/
def afterHeader (s : Stream) : Stream := (readUint32 (readInt32 (readInt64 s).2).2).2

/-- The length that the header states. -/
def statedBytes (s : Stream) : ℕ := ((readUint32 (readInt32 (readInt64 s).2).2).1).getD 0

theorem after_afterHeader {s : Stream} (hs : s.Sound) : s.After (afterHeader s) := by
  have hfirst : s.After (readInt64 s).2 := Plain.after inferInstance hs
  have hsecond := hfirst.trans (Plain.after (m := readInt32) inferInstance (hfirst.sound hs))
  exact hsecond.trans (Plain.after inferInstance (hsecond.sound hs))

/-- The header fits, or its length is read as zero with an error. -/
theorem header_cases {s : Stream} (hs : s.Sound) :
    (s.buffer.position + 16 ≤ s.buffer.limit ∧
        (afterHeader s).buffer.position = s.buffer.position + 16 ∧
          (afterHeader s).error = s.error) ∨
      (s.buffer.limit < s.buffer.position + 16 ∧ statedBytes s = 0 ∧
        (afterHeader s).error = true) := by
  have hfirst : s.After (readInt64 s).2 := Plain.after inferInstance hs
  have hsecond : (readInt64 s).2.After (readInt32 (readInt64 s).2).2 :=
    Plain.after inferInstance (hfirst.sound hs)
  have hthird : (readInt32 (readInt64 s).2).2.After (afterHeader s) :=
    Plain.after inferInstance (hsecond.sound (hfirst.sound hs))
  have hlimit := hfirst.limit
  have hlimit' := hsecond.limit
  rcases readInt64_cases hs with ⟨h8, hp8, he8⟩ | ⟨h8, hp8, he8⟩
  · rcases readInt32_cases (hfirst.sound hs) with ⟨h4, hp4, he4⟩ | ⟨h4, hp4, he4⟩
    · rcases readUint32_cases (hsecond.sound (hfirst.sound hs)) with ⟨h, hp, he⟩ | ⟨h, hp, he⟩
      · unfold afterHeader
        exact .inl ⟨by omega, by omega, by rw [he, he4, he8]⟩
      · refine .inr ⟨by omega, ?_, he⟩
        unfold statedBytes
        rw [readUint32_zero (hsecond.sound (hfirst.sound hs)) h]
        rfl
    · refine .inr ⟨by omega, ?_, hthird.error he4⟩
      unfold statedBytes
      rw [readUint32_zero (hsecond.sound (hfirst.sound hs)) (by omega)]
      rfl
  · refine .inr ⟨by omega, ?_, hthird.error (hsecond.error he8)⟩
    have hle := (readInt32_cases (hfirst.sound hs))
    unfold statedBytes
    rw [readUint32_zero (hsecond.sound (hfirst.sound hs)) ?_]
    · rfl
    · rcases hle with ⟨h4, hp4, -⟩ | ⟨h4, hp4, -⟩ <;> omega

theorem statedBytes_lt (s : Stream) : statedBytes s < 2 ^ 32 := by
  unfold statedBytes
  generalize (readInt32 (readInt64 s).2).2 = t
  simp only [readUint32, scan, Option.getD_some, Input.word]
  split
  · exact Nat.two_pow_pos 32
  · exact leNat_ahead_lt _ 4

/-! ## Taking the length from the message -/

/-- The position after `bytes` from `p` on are skipped, unless that leads beyond the limit. -/
def Relies (p bytes limit q : ℕ) : Prop :=
  q = u32 (p + bytes) ∨ (limit < u32 (p + bytes) ∧ p ≤ q)

section Relies

variable {p bytes limit q : ℕ}

theorem Relies.le (h : Relies p bytes limit q) (hlt : p + bytes < 2 ^ 32) : p ≤ q := by
  rcases h with rfl | ⟨-, hle⟩
  · rw [u32_of_lt hlt]
    exact Nat.le_add_right _ _
  · exact hle

theorem Relies.lt (h : Relies p bytes limit q) (hwraps : 2 ^ 32 ≤ p + bytes)
    (hbytes : bytes < 2 ^ 32)
    (hp : p ≤ limit) (hlimit : limit < 2 ^ 32) : q < p := by
  have hsum : u32 (p + bytes) = p + bytes - 2 ^ 32 := by
    unfold u32
    omega
  unfold Relies at h
  omega

/-- A length that is counted from `k` bytes later. -/
theorem Relies.shift {k : ℕ} (h : Relies (p + k) (sub32 bytes k) limit q) (hk : k ≤ 2 ^ 32) :
    Relies p bytes limit q := by
  have hsum : u32 (p + k + sub32 bytes k) = u32 (p + bytes) := by
    unfold sub32 u32
    omega
  rw [Relies, hsum] at h
  unfold Relies
  omega

theorem skip_relies {s : Stream} (hs : s.Sound) (length : ℕ) :
    Ran s (skip length s).2 [] ∧ (skip length s).2.error = s.error ∧
      Relies s.buffer.position length s.buffer.limit (skip length s).2.buffer.position := by
  unfold skip
  dsimp only
  split
  · rename_i hgt
    exact ⟨(Stream.After.refl hs).ran, rfl, .inr ⟨hgt, le_rfl⟩⟩
  · rename_i hle
    refine ⟨⟨⟨rfl, Nat.not_lt.1 hle⟩, ?_⟩, rfl, .inl rfl⟩
    exact (List.append_nil _).symm

end Relies

/-! ## One call -/

/-- A run with the rounds it has written down, which are as they should be when all ends they state
are bounded. -/
structure Traced (limit : ℕ) (s t : Stream) (new : List Iteration) : Prop extends Ran s t new where
  lawful : ∀ it ∈ new, it.Lawful limit
  progress : AllBounded limit new → ∀ it ∈ new, it.Progress limit

theorem Ran.traced {limit : ℕ} {s t : Stream} (h : Ran s t []) : Traced limit s t [] :=
  ⟨h, by simp, by simp⟩

theorem Traced.trans {limit : ℕ} {s t u : Stream} {xs ys : List Iteration}
    (hst : Traced limit s t xs)
    (htu : Traced limit t u ys) : Traced limit s u (xs ++ ys) := by
  refine ⟨hst.toRan.trans htu.toRan, ?_, ?_⟩
  · intro it hit
    rcases List.mem_append.1 hit with hit | hit
    · exact hst.lawful it hit
    · exact htu.lawful it hit
  · intro hall it hit
    rcases List.mem_append.1 hit with hit | hit
    · exact hst.progress hall.left it hit
    · exact htu.progress hall.right it hit

/-- Where an object that starts at `p` leaves the position: at the end that it states when the
parser relies on it, and else ahead. -/
def Moved (relied : Bool) (p bytes limit q : ℕ) (new : List Iteration) : Prop :=
  (relied = true → Relies p bytes limit q) ∧ (relied = false → AllBounded limit new → p ≤ q)

theorem Moved.of_le {p bytes limit q : ℕ} {new : List Iteration} (h : p ≤ q) :
    Moved false p bytes limit q new :=
  ⟨fun hrelied => Bool.noConfusion hrelied, fun _ _ => h⟩

theorem Moved.of_relies {p bytes limit q : ℕ} {new : List Iteration} (h : Relies p bytes limit q) :
    Moved true p bytes limit q new :=
  ⟨fun _ => h, fun hrelied => Bool.noConfusion hrelied⟩

/-- An object inside an object, whose length is counted from `k` bytes later. -/
theorem Moved.shift {relied : Bool} {p bytes limit q k : ℕ} {new : List Iteration}
    (h : Moved relied (p + k) (sub32 bytes k) limit q new) (hk : k ≤ 2 ^ 32) :
    Moved relied p bytes limit q new :=
  ⟨fun hrelied => (h.1 hrelied).shift hk, fun hrelied hall =>
    (Nat.le_add_right p k).trans (h.2 hrelied hall)⟩

/-- The position does not move back when the stated end does not wrap around. -/
theorem Moved.le {relied : Bool} {p bytes limit q : ℕ} {new : List Iteration}
    (h : Moved relied p bytes limit q new) (hall : AllBounded limit new)
    (hbytes : relied = true → p + bytes < 2 ^ 32) : p ≤ q := by
  cases relied with
  | true => exact (h.1 rfl).le (hbytes rfl)
  | false => exact h.2 rfl hall

/-- Where a call leaves the position: back where it was when there is no object. -/
def Lands (p bytes limit q : ℕ) (new : List Iteration) : Option TLObject → Prop
  | none => q = p
  | some object => Moved object.isApi p bytes limit q new

/-- What a call with room for `n` calls does. -/
structure Outcome (limit n bytes : ℕ) (s : Stream) (r : Option (Option TLObject)) (t : Stream)
    (new : List Iteration) : Prop extends Traced limit s t new where
  ends : ∀ object, r = some object →
    t.error = s.error ∧ Lands s.buffer.position bytes limit t.buffer.position new object
  deep : r = none → AllBounded limit new → s.buffer.position + n ≤ limit

def Meets (n : ℕ) (deserialize : Deserializer) : Prop :=
  ∀ request bytes s limit, Stream.Sound s → s.buffer.limit = limit →
    ∃ new, Outcome limit n bytes s (deserialize request bytes s).1 (deserialize request bytes s).2
      new

/-! ## One message -/

/-- What reading a message does. -/
structure MessageOutcome (limit n : ℕ) (s : Stream) (r : Option TL_message) (t : Stream)
    (new : List Iteration) : Prop extends Traced limit s t new where
  deep : r = none → AllBounded limit new → s.buffer.position + n ≤ limit
  header : ∀ message, r = some message →
    message.header.start = s.buffer.position ∧ message.header.bytes = statedBytes s ∧
      message.header.stop = t.buffer.position ∧ t.error = (afterHeader s).error
  whole : ∀ message, r = some message → s.buffer.position + 16 ≤ limit →
    Moved message.relied (s.buffer.position + 16) (statedBytes s) limit t.buffer.position new
  cut : ∀ message, r = some message → limit < s.buffer.position + 16 →
    AllBounded limit new → s.buffer.position ≤ t.buffer.position

theorem readParams_eq (deserialize : Deserializer) (s : Stream) :
    TL_message.readParams deserialize s =
      (deserialize none (statedBytes s) >>=
        TL_message.body s.buffer.position ((readInt64 s).1.getD 0)
          ((readInt32 (readInt64 s).2).1.getD 0)
          (statedBytes s)) (afterHeader s) := rfl

/-- The body of a message, once the call for it has returned. -/
theorem body_outcome {limit n bytes start : ℕ} {msg_id : BitVec 64} {seqno : BitVec 32}
    {s t : Stream} {object : Option TLObject} {new : List Iteration} (hs : s.Sound)
    (hlimit : s.buffer.limit = limit) (h : Outcome limit n bytes s (some object) t new) :
    ∃ message u, TL_message.body start msg_id seqno bytes object t = (some message, u) ∧
      Traced limit s u new ∧ u.error = s.error ∧
      message.header.start = start ∧ message.header.bytes = bytes ∧
      message.header.stop = u.buffer.position ∧
      Moved message.relied s.buffer.position bytes limit u.buffer.position new := by
  obtain ⟨herror, hlands⟩ := h.ends object rfl
  cases object with
  | some object =>
      exact ⟨_, t, rfl, h.toTraced, herror, rfl, rfl, rfl, hlands⟩
  | none =>
      have hposition : t.buffer.position = s.buffer.position := hlands
      have hsliced : Ran t (slice t.buffer.position bytes t).2 [] :=
        ⟨⟨rfl, by rw [h.limit]; exact h.le_limit⟩, (List.append_nil _).symm⟩
      have hsound := hsliced.sound (h.sound hs)
      obtain ⟨hskip, hsame, hrelies⟩ := skip_relies hsound bytes
      refine ⟨_, _, rfl, ?_⟩
      refine ⟨?_, ?_, rfl, rfl, rfl, ?_⟩
      · have htraced := h.toTraced.trans (hsliced.trans hskip).traced
        rwa [List.append_nil] at htraced
      · exact hsame.trans herror
      · have hlimit' : (slice t.buffer.position bytes t).2.buffer.limit = limit := by
          rw [hsliced.limit, h.limit, hlimit]
        rw [hlimit'] at hrelies
        have hstart : (slice t.buffer.position bytes t).2.buffer.position = s.buffer.position :=
          hposition
        rw [hstart] at hrelies
        exact .of_relies hrelies

theorem message_outcome {n : ℕ} {deserialize : Deserializer} (h : Meets n deserialize) {s : Stream}
    {limit : ℕ} (hs : s.Sound) (hlimit : s.buffer.limit = limit) :
    ∃ new, MessageOutcome limit n s (TL_message.readParams deserialize s).1
      (TL_message.readParams deserialize s).2 new := by
  have hafter := after_afterHeader hs
  have hsound := hafter.sound hs
  have hlimit' : (afterHeader s).buffer.limit = limit := hafter.limit.trans hlimit
  have hcases := header_cases hs
  rw [hlimit] at hcases
  have hroom := hs.room
  rw [hlimit] at hroom
  obtain ⟨new, hout⟩ := h none (statedBytes s) (afterHeader s) limit hsound hlimit'
  refine ⟨new, ?_⟩
  rw [readParams_eq]
  rcases hrun : deserialize none (statedBytes s) (afterHeader s) with ⟨_ | object, t⟩
  · -- the stack overflows inside the body
    rw [hrun] at hout
    rw [bind_of_none hrun]
    refine ⟨hafter.ran.traced.trans hout.toTraced, ?_, by simp, by simp, by simp⟩
    intro _ hall
    have := hout.deep rfl hall
    have := hafter.position_le
    omega
  · rw [hrun] at hout
    rw [bind_of_some hrun]
    obtain ⟨message, u, hbody, htraced, herror, hstart, hbytes, hstop, hlands⟩ :=
      body_outcome hsound hlimit' hout
    rw [hbody]
    refine ⟨hafter.ran.traced.trans htraced, by simp, ?_, ?_, ?_⟩
    · rintro _ ⟨⟩
      exact ⟨hstart, hbytes, hstop, herror⟩
    · rintro _ ⟨⟩ hfits
      rcases hcases with ⟨-, hposition, -⟩ | ⟨hcut, -, -⟩
      · rwa [hposition] at hlands
      · omega
    · rintro _ ⟨⟩ hcut hall
      refine hafter.position_le.trans ?_
      rcases hcases with ⟨hfits, -, -⟩ | ⟨-, hzero, -⟩
      · omega
      · have := hsound.wf.position_le
        rw [hlimit'] at this
        rw [hzero] at hlands
        exact hlands.le hall fun _ => by omega

/-! ## The loop -/

/-- What a round, or several of them from round `index` on, does when the loop began at `first`. -/
structure LoopOutcome (limit n first index : ℕ) (s t : Stream) (overflow : Prop) (goal : Prop)
    (new : List Iteration) : Prop extends Ran s t new where
  lawful : ∀ it ∈ new, it.Lawful limit
  progress : first + 16 * index ≤ s.buffer.position → AllBounded limit new →
    (∀ it ∈ new, it.Progress limit) ∧ (¬ overflow → goal)
  deep : overflow → first + 16 * index ≤ s.buffer.position → AllBounded limit new →
    s.buffer.position + n ≤ limit

/-- The round that is written down. -/
def roundOf (first index : ℕ) (message : TL_message) (e : Bool) : Iteration :=
  { first, index, start := message.header.start, bytes := message.header.bytes
    relied := message.relied, stop := message.header.stop, error := e }

theorem round_of_some {deserialize : Deserializer} {first index : ℕ} {s t : Stream}
    {message : TL_message} (h : TL_message.readParams deserialize s = (some message, t)) :
    TL_msg_container.round deserialize first index s =
      (some message,
        { t with iterations := t.iterations ++ [roundOf first index message t.error] }) := by
  unfold TL_msg_container.round
  rw [bind_of_some h]
  rfl

theorem round_of_none {deserialize : Deserializer} {first index : ℕ} {s t : Stream}
    (h : TL_message.readParams deserialize s = (none, t)) :
    TL_msg_container.round deserialize first index s = (none, t) := by
  unfold TL_msg_container.round
  exact bind_of_none h

/-- One round: it is lawful, and it moves ahead when it is bounded. -/
theorem round_outcome {n : ℕ} {deserialize : Deserializer} (h : Meets n deserialize)
    (first index : ℕ) {s : Stream} {limit : ℕ} (hs : s.Sound) (hlimit : s.buffer.limit = limit)
    (herror : s.error = false) :
    ∃ new, LoopOutcome limit n first index s (TL_msg_container.round deserialize first index s).2
      ((TL_msg_container.round deserialize first index s).1 = none)
      (s.buffer.position ≤ (TL_msg_container.round deserialize first index s).2.buffer.position ∧
        ((TL_msg_container.round deserialize first index s).2.error = false →
          s.buffer.position + 16 ≤
            (TL_msg_container.round deserialize first index s).2.buffer.position)) new := by
  obtain ⟨inner, hout⟩ := message_outcome h hs hlimit
  rcases hrun : TL_message.readParams deserialize s with ⟨_ | message, t⟩
  · rw [hrun] at hout
    rw [round_of_none hrun]
    refine ⟨inner, hout.toRan, hout.lawful, ?_, fun _ _ => hout.deep rfl⟩
    exact fun _ hall => ⟨hout.progress hall, fun hnone => absurd rfl hnone⟩
  · rw [hrun] at hout
    rw [round_of_some hrun]
    obtain ⟨hstart, hbytes, hstop, herror'⟩ := hout.header message rfl
    have hwhole := hout.whole message rfl
    have hcut := hout.cut message rfl
    have hcases := header_cases hs
    rw [hlimit, herror, ← herror'] at hcases
    have hle : t.buffer.position ≤ limit := hlimit ▸ hout.le_limit
    have hroom := hs.room
    have hstated := statedBytes_lt s
    refine ⟨inner ++ [roundOf first index message t.error],
      ⟨⟨hout.buffer, hout.le_limit⟩, ?_⟩, ?_, ?_, ?_⟩
    · show t.iterations ++ _ = _
      rw [hout.iterations, List.append_assoc]
    · intro it hit
      rcases List.mem_append.1 hit with hit | hit
      · exact hout.lawful it hit
      · rw [List.mem_singleton.1 hit]
        intro hfits hrelied hwraps
        simp only [roundOf, hstart, hbytes, hstop] at hfits hrelied hwraps ⊢
        rcases hcases with ⟨-, -, hfine⟩ | ⟨hshort, -⟩
        · refine ⟨hfine, ?_⟩
          exact ((hwhole hfits).1 hrelied).lt hwraps hstated hfits (by omega)
        · omega
    · intro hcount hall
      have hinner := hall.left
      have hbounded := hall.right _ (List.mem_singleton_self _)
      simp only [Iteration.Bounded, roundOf, hstart, hbytes] at hbounded
      have hgoal : s.buffer.position ≤ t.buffer.position ∧
          (t.error = false → s.buffer.position + 16 ≤ t.buffer.position) := by
        rcases hcases with ⟨hfits, -, hfine⟩ | ⟨hshort, -, hfailed⟩
        · have hahead : s.buffer.position + 16 ≤ t.buffer.position :=
            (hwhole hfits).le hinner (hbounded.1 hfits)
          exact ⟨by omega, fun _ => hahead⟩
        · refine ⟨hcut hshort hinner, ?_⟩
          intro hfine
          rw [hfailed] at hfine
          cases hfine
      refine ⟨?_, fun _ => hgoal⟩
      intro it hit
      rcases List.mem_append.1 hit with hit | hit
      · exact hout.progress hinner it hit
      · rw [List.mem_singleton.1 hit]
        simp only [Iteration.Progress, roundOf, hstart, hstop]
        refine ⟨?_, hgoal.1, ?_⟩
        · rcases herror'' : t.error with _ | _
          · exact .inr (hgoal.2 herror'')
          · exact .inl rfl
        · rcases hcases with ⟨hfits, -, hfine⟩ | ⟨hshort, -, -⟩
          · rw [Nat.le_div_iff_mul_le (by decide)]
            have := hgoal.2 hfine
            omega
          · exact hbounded.2 hshort
    · intro hnone
      cases hnone

section Loop

variable {deserialize : Deserializer} {first index count : ℕ} {s t : Stream} {message : TL_message}

theorem loop_of_overflow (h : TL_msg_container.round deserialize first index s = (none, t)) :
    TL_msg_container.loop deserialize first index (count + 1) s = (none, t) := by
  rw [TL_msg_container.loop]
  exact bind_of_none h

theorem loop_of_error (h : TL_msg_container.round deserialize first index s = (some message, t))
    (herror : t.error = true) :
    TL_msg_container.loop deserialize first index (count + 1) s = (some none, t) := by
  rw [TL_msg_container.loop, bind_of_some h]
  show (if t.error = true then pure none else _ : Scan (Option (List TL_message))) t = _
  rw [if_pos herror]
  rfl

theorem loop_of_fine (h : TL_msg_container.round deserialize first index s = (some message, t))
    (herror : t.error = false) :
    TL_msg_container.loop deserialize first index (count + 1) s =
      ((TL_msg_container.loop deserialize first (index + 1) count t).1.map
        (Option.map (message :: ·)),
        (TL_msg_container.loop deserialize first (index + 1) count t).2) := by
  rw [TL_msg_container.loop, bind_of_some h]
  show (if t.error = true then pure none else _ : Scan (Option (List TL_message))) t = _
  rw [if_neg (by rw [herror]; decide)]
  rcases hrest : TL_msg_container.loop deserialize first (index + 1) count t with ⟨_ | rest, u⟩
  · exact bind_of_none hrest
  · exact bind_of_some hrest

end Loop

/-- The loop: by induction on the rounds that are left. -/
theorem loop_outcome {n : ℕ} {deserialize : Deserializer} (h : Meets n deserialize) {limit : ℕ}
    (first count index : ℕ) {s : Stream} (hs : s.Sound) (hlimit : s.buffer.limit = limit)
    (herror : s.error = false) :
    ∃ new, LoopOutcome limit n first index s
      (TL_msg_container.loop deserialize first index count s).2
        ((TL_msg_container.loop deserialize first index count s).1 = none)
        (s.buffer.position ≤
          (TL_msg_container.loop deserialize first index count s).2.buffer.position) new ∧
      ∀ messages, (TL_msg_container.loop deserialize first index count s).1 = some messages →
        (TL_msg_container.loop deserialize first index count s).2.error = messages.isNone := by
  induction count generalizing s index with
  | zero =>
      refine ⟨[], ⟨(Stream.After.refl hs).ran, by simp, ?_, ?_⟩, ?_⟩
      · exact fun _ _ => ⟨by simp, fun _ => le_rfl⟩
      · intro hnone
        cases hnone
      · rintro _ ⟨⟩
        exact herror
  | succ count ih =>
      obtain ⟨new, hround⟩ := round_outcome h first index hs hlimit herror
      rcases hrun : TL_msg_container.round deserialize first index s with ⟨_ | message, t⟩
      · rw [hrun] at hround
        rw [loop_of_overflow hrun]
        refine ⟨new, ⟨hround.toRan, hround.lawful, ?_, fun _ => hround.deep rfl⟩, by simp⟩
        exact fun hcount hall => ⟨(hround.progress hcount hall).1, fun hnone => absurd rfl hnone⟩
      rw [hrun] at hround
      rcases hfine : t.error with _ | _
      · -- the next round starts where this one has stopped
        have hahead : first + 16 * index ≤ s.buffer.position → AllBounded limit new →
            s.buffer.position + 16 ≤ t.buffer.position :=
          fun hcount hall => ((hround.progress hcount hall).2 (by simp)).2 hfine
        obtain ⟨more, hrest, hend⟩ :=
          ih (s := t) (index + 1) (hround.sound hs) (hround.limit.trans hlimit) hfine
        rw [loop_of_fine hrun hfine]
        refine ⟨new ++ more, ⟨hround.toRan.trans hrest.toRan, ?_, ?_, ?_⟩, ?_⟩
        · intro it hit
          rcases List.mem_append.1 hit with hit | hit
          · exact hround.lawful it hit
          · exact hrest.lawful it hit
        · intro hcount hall
          have hnext := hahead hcount hall.left
          obtain ⟨hprogress, hgoal⟩ := hrest.progress (by omega) hall.right
          refine ⟨?_, ?_⟩
          · intro it hit
            rcases List.mem_append.1 hit with hit | hit
            · exact (hround.progress hcount hall.left).1 it hit
            · exact hprogress it hit
          · intro hsome
            have := hgoal (by simpa using hsome)
            simp only
            omega
        · intro hnone hcount hall
          have hnext := hahead hcount hall.left
          have := hrest.deep (by simpa using hnone) (by omega) hall.right
          omega
        · intro messages hsome
          simp only [Option.map_eq_some_iff] at hsome
          obtain ⟨rest, hsome, rfl⟩ := hsome
          rw [hend rest hsome]
          cases rest <;> rfl
      · rw [loop_of_error hrun hfine]
        refine ⟨new, ⟨hround.toRan, hround.lawful, ?_, ?_⟩, ?_⟩
        · intro hcount hall
          obtain ⟨hprogress, hgoal⟩ := hround.progress hcount hall
          exact ⟨hprogress, fun _ => (hgoal (by simp)).1⟩
        · intro hnone
          cases hnone
        · rintro _ ⟨⟩
          exact hfine

/-! ## The class store -/

/-- What parsing the object does whose constructor stands at `p`. -/
structure ParseOutcome (limit n p bytes : ℕ) (s : Stream) (r : Option (Option TLObject))
    (t : Stream)
    (new : List Iteration) : Prop extends Traced limit s t new where
  lands : ∀ object, r = some (some object) → t.error = false →
    Lands p bytes limit t.buffer.position new (some object)
  deep : r = none → AllBounded limit new → p + n < limit

section Store

variable {n p limit : ℕ} {deserialize : Deserializer} {s t : Stream}

/-- A parser that only reads on. -/
theorem parseOutcome_of_after {bytes : ℕ} (h : s.After t) (hp : p ≤ s.buffer.position)
    {object : Option TLObject}
    (hobject : ∀ o, object = some o → o.isApi = false) :
    ParseOutcome limit n p bytes s (some object) t [] := by
  refine ⟨h.ran.traced, ?_, by simp⟩
  intro o ho _
  simp only [Lands, hobject o (Option.some.inj ho)]
  exact .of_le (hp.trans h.position_le)

/-- What the container does before its loop. -/
theorem container_eq (deserialize : Deserializer) (s : Stream) :
    TL_msg_container.readParams deserialize s =
      (TL_msg_container.loop deserialize (readUint32 s).2.buffer.position 0
        ((readUint32 s).1.getD 0) >>=
        fun messages => pure (messages.map .msg_container)) (readUint32 s).2 := rfl

theorem container_outcome (bytes : ℕ) (h : Meets n deserialize) (hs : s.Sound)
    (hlimit : s.buffer.limit = limit) (hp : p ≤ s.buffer.position) (herror : s.error = false) :
    ∃ new, ParseOutcome limit n p bytes s (TL_msg_container.readParams deserialize s).1
        (TL_msg_container.readParams deserialize s).2 new ∧
      ((TL_msg_container.readParams deserialize s).1 = some none →
        (TL_msg_container.readParams deserialize s).2.error = true) := by
  have hafter : s.After (readUint32 s).2 := Plain.after inferInstance hs
  have hle := hafter.position_le
  rw [container_eq]
  rcases readUint32_cases hs with ⟨hfits, hposition, hfine⟩ | ⟨hcut, -, -⟩
  · obtain ⟨new, hloop, hend⟩ :=
      loop_outcome h (readUint32 s).2.buffer.position ((readUint32 s).1.getD 0) 0
        (hafter.sound hs) (hafter.limit.trans hlimit) (hfine.trans herror)
    have htraced : ∀ {t : Stream}, Ran (readUint32 s).2 t new → Traced limit s t new := fun hran =>
      ⟨hafter.ran.trans hran, hloop.lawful, fun hall => (hloop.progress (by omega) hall).1⟩
    rcases hrun : TL_msg_container.loop deserialize (readUint32 s).2.buffer.position 0
      ((readUint32 s).1.getD 0) (readUint32 s).2 with ⟨_ | messages, t⟩
    · rw [hrun] at hloop
      rw [bind_of_none hrun]
      refine ⟨new, ⟨htraced hloop.toRan, by simp, ?_⟩, by simp⟩
      intro _ hall
      have := hloop.deep rfl (by omega) hall
      omega
    · rw [hrun] at hloop hend
      rw [bind_of_some hrun]
      refine ⟨new, ⟨htraced hloop.toRan, ?_, ?_⟩, ?_⟩
      · intro object hobject _
        cases messages with
        | none => cases hobject
        | some messages =>
            cases hobject
            refine ⟨fun hrelied => Bool.noConfusion hrelied, fun _ hall => ?_⟩
            have hahead := (hloop.progress (by omega) hall).2 (by simp)
            exact (hp.trans hle).trans hahead
      · intro hnone
        cases hnone
      · intro hnone
        cases messages with
        | none => exact hend none rfl
        | some messages => cases hnone
  · rw [readUint32_zero hs hcut]
    refine ⟨[], parseOutcome_of_after hafter hp ?_, ?_⟩
    · rintro _ ⟨⟩
      rfl
    · intro hnone
      cases hnone

theorem result_outcome (requests : Requests) (bytes : ℕ) (h : Meets n deserialize) (hs : s.Sound)
    (hlimit : s.buffer.limit = limit) (hp : s.buffer.position = p + 4) :
    ∃ new, ParseOutcome limit n p bytes s
      (TL_rpc_result.readParamsEx deserialize requests bytes s).1
        (TL_rpc_result.readParamsEx deserialize requests bytes s).2 new ∧
      ((TL_rpc_result.readParamsEx deserialize requests bytes s).1 = some none →
        (TL_rpc_result.readParamsEx deserialize requests bytes s).2.error = true) := by
  have hafter : s.After (readInt64 s).2 := Plain.after inferInstance hs
  have hle := hafter.position_le
  have hrun : TL_rpc_result.readParamsEx deserialize requests bytes s =
      (deserialize (requests ((readInt64 s).1.getD 0)) (sub32 bytes 12) >>=
        TL_rpc_result.result ((readInt64 s).1.getD 0)) (readInt64 s).2 := rfl
  rw [hrun]
  obtain ⟨new, hout⟩ := h (requests ((readInt64 s).1.getD 0)) (sub32 bytes 12) (readInt64 s).2
    limit (hafter.sound hs) (hafter.limit.trans hlimit)
  have htraced := hafter.ran.traced.trans hout.toTraced
  rcases hinner : deserialize (requests ((readInt64 s).1.getD 0)) (sub32 bytes 12)
    (readInt64 s).2 with ⟨_ | object, t⟩
  · rw [hinner] at hout htraced
    rw [bind_of_none hinner]
    refine ⟨new, ⟨htraced, by simp, ?_⟩, by simp⟩
    intro _ hall
    have := hout.deep rfl hall
    omega
  · rw [hinner] at hout htraced
    rw [bind_of_some hinner]
    obtain ⟨herror, hlands⟩ := hout.ends object rfl
    cases object with
    | none =>
        refine ⟨new, ⟨⟨⟨⟨htraced.buffer, htraced.le_limit⟩, htraced.iterations⟩, htraced.lawful,
          htraced.progress⟩, ?_, ?_⟩, fun _ => rfl⟩
        · intro object hobject
          cases hobject
        · intro hnone
          cases hnone
    | some object =>
        refine ⟨new, ⟨htraced, ?_, ?_⟩, ?_⟩
        · rintro _ ⟨⟩ hfine
          rcases readInt64_cases hs with ⟨-, hposition, -⟩ | ⟨-, -, hfailed⟩
          · have hinside : (readInt64 s).2.buffer.position = p + 12 := by omega
            rw [hinside] at hlands
            exact Moved.shift hlands (by decide)
          · rw [← herror] at hfailed
            exact absurd (hfine.symm.trans hfailed) (by decide)
        · intro hnone
          cases hnone
        · intro hnone
          cases hnone

/-- What the store does not know is left as it is, and every other object that is missing is an
error. -/
theorem store_outcome (requests : Requests) (bytes constructor : ℕ) (h : Meets n deserialize)
    (hs : s.Sound) (hlimit : s.buffer.limit = limit) (hp : s.buffer.position = p + 4)
    (herror : s.error = false) :
    ∃ new, ParseOutcome limit n p bytes s
        (TLClassStore.TLdeserialize deserialize requests bytes constructor s).1
        (TLClassStore.TLdeserialize deserialize requests bytes constructor s).2 new ∧
      ((TLClassStore.TLdeserialize deserialize requests bytes constructor s).1 = some none →
        (TLClassStore.TLdeserialize deserialize requests bytes constructor s).2.error = false →
        (TLClassStore.TLdeserialize deserialize requests bytes constructor s).2 = s ∧
          constructor ≠ 0x73f1f8dc ∧ constructor ≠ 0xf35c6d01 ∧ constructor ≠ 0x3072cfa1 ∧
          TLClassStore.classes.lookup constructor = none) := by
  unfold TLClassStore.TLdeserialize
  split
  · obtain ⟨new, hout, hnone⟩ := container_outcome bytes h hs hlimit (show p ≤ _ by omega) herror
    refine ⟨new, hout, ?_⟩
    intro hmissing hfine
    exact absurd (hfine.symm.trans (hnone hmissing)) (by decide)
  split
  · obtain ⟨new, hout, hnone⟩ := result_outcome requests bytes h hs hlimit hp
    refine ⟨new, hout, ?_⟩
    intro hmissing hfine
    exact absurd (hfine.symm.trans (hnone hmissing)) (by decide)
  split
  · refine ⟨[], parseOutcome_of_after (plain_gzip_packed.after hs) (by omega) ?_, ?_⟩
    · rintro _ ⟨⟩
      rfl
    · intro hmissing
      cases hmissing
  rename_i hcontainer hresult hpacked
  rcases hclass : TLClassStore.classes.lookup constructor with _ | readParams
  · exact ⟨[], parseOutcome_of_after (Stream.After.refl hs) (by omega) (by simp),
      fun _ _ => ⟨rfl, hcontainer, hresult, hpacked, rfl⟩⟩
  · have hplain := plain_classes hclass
    refine ⟨[], parseOutcome_of_after (hplain.after hs) (by omega) ?_, ?_⟩
    · intro object hobject
      obtain ⟨record, -, rfl⟩ := Option.map_eq_some_iff.1 hobject
      rfl
    · intro hmissing hfine
      have hearly : (readParams s).1 = none := by
        have hmap : (readParams s).1.map TLObject.record = none := Option.some.inj hmissing
        exact Option.map_eq_none_iff.1 hmap
      exact absurd (hfine.symm.trans (hplain.reports s hearly)) (by decide)

theorem api_response_eq (bytes : ℕ) (s : Stream) :
    TL_api_response.readParamsEx bytes s =
      (some (.api_response ⟨s.buffer.position - 4, bytes, s.range (s.buffer.position - 4, bytes)⟩),
        (skip (sub32 bytes 4) (slice (s.buffer.position - 4) bytes s).2).2) := by
  unfold TL_api_response.readParamsEx
  generalize sub32 bytes 4 = length
  rfl

/-- The response to a request. -/
theorem response_outcome (request : RawRequest) (bytes constructor : ℕ) (hs : s.Sound)
    (hlimit : s.buffer.limit = limit) (hp : s.buffer.position = p + 4) :
    ParseOutcome limit n p bytes s (request.deserializeResponse bytes constructor s).1
      (request.deserializeResponse bytes constructor s).2 [] := by
  unfold RawRequest.deserializeResponse
  split
  · have hsliced : Ran s (slice (s.buffer.position - 4) bytes s).2 [] :=
      ⟨⟨rfl, hs.wf.position_le⟩, (List.append_nil _).symm⟩
    obtain ⟨hskip, -, hrelies⟩ := skip_relies (hsliced.sound hs) (sub32 bytes 4)
    rw [bind_of_some (api_response_eq bytes s)]
    generalize (skip (sub32 bytes 4) (slice (s.buffer.position - 4) bytes s).2).2 =
      t at hskip hrelies ⊢
    refine ⟨(hsliced.trans hskip).traced, ?_, ?_⟩
    · rintro _ ⟨⟩ -
      have hposition : (slice (s.buffer.position - 4) bytes s).2.buffer.position = p + 4 := hp
      have hlimit' : (slice (s.buffer.position - 4) bytes s).2.buffer.limit = limit := hlimit
      rw [hposition, hlimit'] at hrelies
      exact Moved.of_relies (hrelies.shift (by decide))
    · intro hnone
      cases hnone
  · have hplain := plain_response request constructor
    refine parseOutcome_of_after (hplain.after hs) (by omega) ?_
    intro object hobject
    obtain ⟨record, -, rfl⟩ := Option.map_eq_some_iff.1 hobject
    rfl

/-- An object that is dropped. -/
theorem ParseOutcome.dropped {bytes : ℕ} {new : List Iteration} {r : Option (Option TLObject)}
    (h : ParseOutcome limit n p bytes s r t new) :
    ParseOutcome limit n p bytes s (some none) t new :=
  ⟨h.toTraced, by simp, by simp⟩

theorem unlessError_of_error {object : Option TLObject} (h : s.error = true) :
    unlessError object s = (some none, s) := by
  show (if s.error = true then pure none else pure object : Scan (Option TLObject)) s = _
  rw [if_pos h]
  rfl

theorem unlessError_of_fine {object : Option TLObject} (h : s.error = false) :
    unlessError object s = (some object, s) := by
  show (if s.error = true then pure none else pure object : Scan (Option TLObject)) s = _
  rw [if_neg (by rw [h]; decide)]
  rfl

section Parse

variable {requests : Requests} {request : Option RawRequest} {bytes constructor : ℕ}
variable {object : Option TLObject}

theorem parse_of_overflow
    (h : TLClassStore.TLdeserialize deserialize requests bytes constructor s = (none, t)) :
    TLdeserialize.parse deserialize requests request bytes constructor s = (none, t) :=
  bind_of_none h

theorem parse_of_error
    (h : TLClassStore.TLdeserialize deserialize requests bytes constructor s = (some object, t))
    (herror : t.error = true) :
    TLdeserialize.parse deserialize requests request bytes constructor s = (some none, t) := by
  unfold TLdeserialize.parse
  rw [bind_of_some h]
  show (if t.error = true then pure none else _ : Scan (Option TLObject)) t = _
  rw [if_pos herror]
  rfl

theorem parse_of_fine
    (h : TLClassStore.TLdeserialize deserialize requests bytes constructor s = (some object, t))
    (herror : t.error = false) :
    TLdeserialize.parse deserialize requests request bytes constructor s =
      TLdeserialize.response request bytes constructor object t := by
  unfold TLdeserialize.parse
  rw [bind_of_some h]
  show (if t.error = true then pure none else _ : Scan (Option TLObject)) t = _
  rw [if_neg (by rw [herror]; decide)]

end Parse

/-- The part of `TLdeserialize` behind the constructor: an object that comes out has no error. -/
theorem parse_outcome (requests : Requests) (request : Option RawRequest) (bytes constructor : ℕ)
    (h : Meets n deserialize) (hs : s.Sound) (hlimit : s.buffer.limit = limit)
    (hp : s.buffer.position = p + 4) (herror : s.error = false) :
    ∃ new, ParseOutcome limit n p bytes s
        (TLdeserialize.parse deserialize requests request bytes constructor s).1
        (TLdeserialize.parse deserialize requests request bytes constructor s).2 new ∧
      ∀ object, (TLdeserialize.parse deserialize requests request bytes constructor s).1 =
          some (some object) →
        (TLdeserialize.parse deserialize requests request bytes constructor s).2.error = false := by
  obtain ⟨new, hout, hunknown⟩ := store_outcome requests bytes constructor h hs hlimit hp herror
  rcases hrun : TLClassStore.TLdeserialize deserialize requests bytes constructor s with
    ⟨_ | object, t⟩
  · rw [hrun] at hout
    rw [parse_of_overflow hrun]
    exact ⟨new, hout, by simp⟩
  rw [hrun] at hout hunknown
  rcases hfine : t.error with _ | _
  · rw [parse_of_fine hrun hfine]
    cases object with
    | some object => exact ⟨new, hout, fun _ _ => hfine⟩
    | none =>
        have hsame : t = s := (hunknown rfl hfine).1
        rw [hsame] at hout ⊢
        cases request with
        | none => exact ⟨new, hout.dropped, by simp [TLdeserialize.response, pure]⟩
        | some request =>
            have hresponse := response_outcome (n := n) request bytes constructor hs hlimit hp
            unfold TLdeserialize.response
            rcases hrun' : request.deserializeResponse bytes constructor s with ⟨_ | object, u⟩
            · rw [hrun'] at hresponse
              dsimp only
              rw [bind_of_none hrun']
              exact ⟨[], hresponse, by simp⟩
            · rw [hrun'] at hresponse
              dsimp only
              rw [bind_of_some hrun']
              rcases hfine' : u.error with _ | _
              · rw [unlessError_of_fine hfine']
                exact ⟨[], hresponse, fun _ _ => hfine'⟩
              · rw [unlessError_of_error hfine']
                exact ⟨[], hresponse.dropped, by simp⟩
  · rw [parse_of_error hrun hfine]
    exact ⟨new, hout.dropped, by simp⟩

/-! ## The whole call -/

theorem object_eq (deserialize : Deserializer) (requests : Requests) (request : Option RawRequest)
    (bytes : ℕ) (s : Stream) :
    TLdeserialize.object deserialize requests request bytes s =
      (if (readUint32 s).2.error = true then pure none
        else TLdeserialize.parse deserialize requests request bytes ((readUint32 s).1.getD 0) :
          Scan (Option TLObject)) (readUint32 s).2 := rfl

theorem object_outcome (requests : Requests) (request : Option RawRequest) (bytes : ℕ)
    (h : Meets n deserialize) (hs : s.Sound) (hlimit : s.buffer.limit = limit)
    (herror : s.error = false) :
    ∃ new, ParseOutcome limit n s.buffer.position bytes s
        (TLdeserialize.object deserialize requests request bytes s).1
        (TLdeserialize.object deserialize requests request bytes s).2 new ∧
      ∀ object, (TLdeserialize.object deserialize requests request bytes s).1 = some (some object) →
        (TLdeserialize.object deserialize requests request bytes s).2.error = false := by
  have hafter : s.After (readUint32 s).2 := Plain.after inferInstance hs
  rcases readUint32_cases hs with ⟨hfits, hposition, hfine⟩ | ⟨-, -, hfailed⟩
  · rw [object_eq, if_neg (by rw [hfine, herror]; decide)]
    obtain ⟨new, hout, hend⟩ := parse_outcome requests request bytes ((readUint32 s).1.getD 0) h
      (hafter.sound hs) (hafter.limit.trans hlimit) hposition (hfine.trans herror)
    exact ⟨new, ⟨hafter.ran.traced.trans hout.toTraced, hout.lands, hout.deep⟩, hend⟩
  · rw [object_eq, if_pos hfailed]
    refine ⟨[], parseOutcome_of_after hafter le_rfl (by simp), ?_⟩
    intro object hobject
    cases hobject

/-- The stream with the error flag of its own that a call starts with. -/
def fresh (s : Stream) : Stream := { s with error := false }

theorem step_of_overflow {requests : Requests} {request : Option RawRequest} {bytes : ℕ}
    (h : TLdeserialize.object deserialize requests request bytes (fresh s) = (none, t)) :
    TLdeserialize.step deserialize requests request bytes s = (none, t) := by
  show (TLdeserialize.object deserialize requests request bytes >>= _) (fresh s) = _
  exact bind_of_none h

theorem step_of_some {requests : Requests} {request : Option RawRequest} {bytes : ℕ}
    {object : TLObject}
    (h : TLdeserialize.object deserialize requests request bytes (fresh s) =
      (some (some object), t)) :
    TLdeserialize.step deserialize requests request bytes s =
      (some (some object), { t with error := s.error }) := by
  show (TLdeserialize.object deserialize requests request bytes >>= _) (fresh s) = _
  rw [bind_of_some h]
  rfl

theorem step_of_none {requests : Requests} {request : Option RawRequest} {bytes : ℕ}
    (h : TLdeserialize.object deserialize requests request bytes (fresh s) = (some none, t)) :
    TLdeserialize.step deserialize requests request bytes s =
      (some none,
        { t with buffer := t.buffer.setPosition s.buffer.position, error := s.error }) := by
  show (TLdeserialize.object deserialize requests request bytes >>= _) (fresh s) = _
  rw [bind_of_some h]
  rfl

/-- One call, over calls that do what they should. -/
theorem meets_step (requests : Requests) (h : Meets n deserialize) :
    Meets (n + 1) (TLdeserialize.step deserialize requests) := by
  intro request bytes s limit hs hlimit
  obtain ⟨new, hout, hend⟩ :=
    object_outcome (s := fresh s) requests request bytes h ⟨hs.wf, hs.room⟩
    hlimit rfl
  refine ⟨new, ?_⟩
  rcases hrun : TLdeserialize.object deserialize requests request bytes (fresh s) with ⟨_ | object,
    t⟩
  · rw [hrun] at hout
    rw [step_of_overflow hrun]
    refine ⟨⟨⟨⟨hout.buffer, hout.le_limit⟩, hout.iterations⟩, hout.lawful,
      hout.progress⟩, by simp, ?_⟩
    intro _ hall
    exact hout.deep rfl hall
  rw [hrun] at hout hend
  cases object with
  | some object =>
      rw [step_of_some hrun]
      refine ⟨⟨⟨⟨hout.buffer, hout.le_limit⟩, hout.iterations⟩, hout.lawful, hout.progress⟩,
        ?_, by simp⟩
      rintro _ ⟨⟩
      exact ⟨rfl, hout.lands object rfl (hend object rfl)⟩
  | none =>
      have hlimit' : t.buffer.limit = s.buffer.limit := hout.limit
      have hposition : t.buffer.setPosition s.buffer.position =
          { t.buffer with position := s.buffer.position } := by
        unfold NativeByteBuffer.setPosition
        rw [if_neg (by have := hs.wf.position_le; omega)]
      have hbuffer : t.buffer = { s.buffer with position := t.buffer.position } := hout.buffer
      rw [step_of_none hrun, hposition]
      refine ⟨⟨⟨⟨?_, hs.wf.position_le⟩, hout.iterations⟩, hout.lawful, hout.progress⟩, ?_, by simp⟩
      · rw [hbuffer]
      · rintro _ ⟨⟩
        exact ⟨rfl, rfl⟩

end Store

/-- The function of the source does what it should, by induction on the room that is left. -/
theorem meets_deserialize (requests : Requests) (n : ℕ) : Meets n (TLdeserialize requests n) := by
  induction n with
  | zero =>
      intro request bytes s limit hs hlimit
      refine ⟨[], (Stream.After.refl hs).ran.traced, ?_, ?_⟩
      · intro object hobject
        cases hobject
      · intro _ _
        rw [← hlimit]
        exact hs.wf.position_le
  | succ n ih => exact meets_step requests ih

/-! ## Progress -/

/-- Parsing a container from the position of its count on: every round of the loop, and of the loops
over the containers inside, makes progress if and only if the rounds are bounded.  Then the parser
needs no more room on the stack than there are bytes. -/
theorem progress_iff_allBounded (requests : Requests) (n : ℕ) (s : Stream) (hs : s.Sound)
    (herror : s.error = false) (hiterations : s.iterations = []) :
    ((∀ it ∈ (TL_msg_container.readParams (TLdeserialize requests n) s).2.iterations,
        it.Progress s.buffer.limit) ↔
      AllBounded s.buffer.limit
        (TL_msg_container.readParams (TLdeserialize requests n) s).2.iterations) ∧
      (AllBounded s.buffer.limit
          (TL_msg_container.readParams (TLdeserialize requests n) s).2.iterations →
        s.buffer.limit ≤ s.buffer.position + n →
        (TL_msg_container.readParams (TLdeserialize requests n) s).1.isSome) := by
  obtain ⟨new, hout, -⟩ :=
    container_outcome (p := s.buffer.position) 0 (meets_deserialize requests n) hs rfl le_rfl herror
  rw [hout.iterations, hiterations, List.nil_append]
  refine ⟨⟨?_, hout.progress⟩, ?_⟩
  · intro hprogress it hit
    exact (hprogress it hit).bounded (hout.lawful it hit)
  · intro hall hroom
    rw [Option.isSome_iff_ne_none]
    intro hnone
    have := hout.deep hnone hall
    omega

end Mtproto.Scheme
