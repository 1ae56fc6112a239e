import Mtproto.Scheme.Containment

/-!
# Where the messages of a container lie

Which messages the loop of `TL_msg_container::readParams` meets is a matter of the bytes and of the
counts in them.  `layout` goes over the bytes from message to message: a body that is no object ends
where the message says, every other where the object ends.  It stops as soon as a stated end does
not fit into 32 bits, or a container declares more messages than it has and is too short for one
more header.  The loop makes progress in every round if and only if neither is met.
-/

namespace Mtproto.Scheme

open Lib Lib.Interruptible Tgnet Scan

/-! ## Layouts -/

/-- What stands at a place: an object with the place where it ends, and whether that is where its
length says, or no object.  It may nest too deep for the stack, and it may go astray. -/
inductive Layout
  | object (isApi : Bool) (stop : ℕ)
  | nothing
  | deep
  | astray
deriving DecidableEq, Repr

/-- The input at another position. -/
def standing (i : Input) (p : ℕ) : Input := { buffer := { i.buffer with position := p } }

/-- A body of `bytes` bytes from `p` on: what is no object is as long as the message says, if that
fits. -/
def Layout.body (p bytes limit : ℕ) : Layout → Layout
  | .nothing => .object true (if p + bytes ≤ limit then p + bytes else p)
  | layout => layout

/-- The layout of what a parser reads that calls no other. -/
def Layout.ofRun : Option (Option TLObject) × Stream → Layout
  | (some (some o), t) => .object o.isApi t.buffer.position
  | (some none, _) => .nothing
  | (none, _) => .deep

/-- The messages from `p` on; those in front of them have `bodies` bytes in their bodies. -/
def messagesAt (inner : ℕ → Input → Layout) (i : Input) : ℕ → ℕ → ℕ → Layout
  | 0, _, p => .object false p
  | count + 1, bodies, p =>
      let bytes := statedBytes (bare (standing i p))
      let body := inner bytes (afterHeader (bare (standing i p))).toInput
      match body.body (p + 16) bytes i.buffer.limit with
      | .object relied stop =>
          if i.buffer.limit < p + 16 then
            if bodies + (i.buffer.limit - p) < 16 then .astray else .nothing
          else if relied = true ∧ 2 ^ 32 ≤ p + 16 + bytes then .astray
          else messagesAt inner i count (bodies + (stop - (p + 16))) stop
      | other => other

/-- A container from its count on. -/
def containerAt (inner : ℕ → Input → Layout) (i : Input) : Layout :=
  messagesAt inner i (Input.word 4 i).1 0 (Input.word 4 i).2.buffer.position

/-- The answer to a request, behind its message id. -/
def resultAt (limit p : ℕ) : Layout → Layout
  | .object isApi stop => if limit < p + 12 then .nothing else .object isApi stop
  | layout => layout

/-- The object at the position, over the layout of the objects inside. -/
def objectAt (requests : Requests) (inner : Option RawRequest → ℕ → Input → Layout)
    (request : Option RawRequest) (bytes : ℕ) (i : Input) : Layout :=
  if i.buffer.limit < i.buffer.position + 4 then .nothing
  else if constructorAt i = 0x73f1f8dc then
    if i.buffer.limit < i.buffer.position + 8 then .nothing
    else containerAt (inner none) (behindConstructor i)
  else if constructorAt i = 0xf35c6d01 then
    resultAt i.buffer.limit i.buffer.position
      (inner (requests (requestAt i)) (sub32 bytes 12) (behindRequest i))
  else
    .ofRun (TLdeserialize.parse (fun _ _ => crash) requests request bytes (constructorAt i)
      (bare (behindConstructor i)))

/-- The object at the position, with room for `n` calls on the stack. -/
def layout (requests : Requests) : ℕ → Option RawRequest → ℕ → Input → Layout
  | 0, _, _, _ => .deep
  | n + 1, request, bytes, i =>
      objectAt requests (layout requests n) request bytes { i with error := false }

/-- The container whose count is at the position goes astray. -/
def Astray (requests : Requests) (n : ℕ) (i : Input) : Prop :=
  containerAt (layout requests n none) i = .astray

instance (requests : Requests) (n : ℕ) (i : Input) : Decidable (Astray requests n i) :=
  inferInstanceAs (Decidable (_ = _))

/-! ## Runs and layouts -/

/-- A run with these rounds and this end does what the layout says. -/
def Layout.Tells (limit : ℕ) (new : List Iteration) (found : Option (Option Bool)) (stop : ℕ) :
    Layout → Prop
  | .object isApi q => found = some (some isApi) ∧ stop = q ∧ AllBounded limit new
  | .nothing => found = some none ∧ AllBounded limit new
  | .deep => found = none ∧ AllBounded limit new
  | .astray => ¬ AllBounded limit new

/-- Whether an object was found, and whether it ends where its length says. -/
def found (r : Option (Option TLObject)) : Option (Option Bool) := r.map (Option.map TLObject.isApi)

/-- The rounds of a run are the ones of its layout. -/
def Follows (lay : Layout) (s : Stream) (r : Option (Option Bool)) (t : Stream) : Prop :=
  ∃ new, t.iterations = s.iterations ++ new ∧
    lay.Tells s.buffer.limit new r t.buffer.position

theorem allBounded_nil (limit : ℕ) : AllBounded limit [] := fun _ mem => absurd mem List.not_mem_nil

theorem AllBounded.append {limit : ℕ} {xs ys : List Iteration} (left : AllBounded limit xs)
    (right : AllBounded limit ys) : AllBounded limit (xs ++ ys) := by
  intro it mem
  rcases List.mem_append.1 mem with mem | mem
  · exact left it mem
  · exact right it mem

section Follow

variable {requests : Requests} {n : ℕ} {s t u : Stream} {lay : Layout}

/-- Rounds in front that are bounded do not change what a layout says. -/
theorem Layout.Tells.behind {limit : ℕ} {new more : List Iteration} {r : Option (Option Bool)}
    {stop : ℕ}
    (before : AllBounded limit new) (tells : lay.Tells limit more r stop) :
    lay.Tells limit (new ++ more) r stop := by
  cases lay with
  | object isApi q => exact ⟨tells.1, tells.2.1, before.append tells.2.2⟩
  | nothing => exact ⟨tells.1, before.append tells.2⟩
  | deep => exact ⟨tells.1, before.append tells.2⟩
  | astray => exact fun all => tells all.right

/-- The position behind the bytes that are skipped, when the sum does not wrap around. -/
theorem skip_position {bytes : ℕ} (small : s.buffer.position + bytes < 2 ^ 32) :
    (skip bytes s).2.buffer.position =
      if s.buffer.position + bytes ≤ s.buffer.limit then s.buffer.position + bytes
      else s.buffer.position := by
  unfold skip
  dsimp only
  rw [u32_of_lt small]
  by_cases fits : s.buffer.position + bytes ≤ s.buffer.limit
  · rw [if_neg (Nat.not_lt.2 fits), if_pos fits]
    exact u32_of_lt small
  · rw [if_pos (Nat.not_le.1 fits), if_neg fits]

/-! ### Messages -/

section Body

variable {start bytes : ℕ} {msg_id : BitVec 64} {seqno : BitVec 32}

theorem body_parsed (object : TLObject) (t : Stream) :
    TL_message.body start msg_id seqno bytes (some object) t =
      (some (.parsed ⟨start, msg_id, seqno, bytes, t.buffer.position⟩ object), t) := rfl

/-- The stream behind a body that is kept as it is. -/
def afterBody (bytes : ℕ) (t : Stream) : Stream :=
  (skip bytes (slice t.buffer.position bytes t).2).2

theorem body_unparsed (t : Stream) :
    TL_message.body start msg_id seqno bytes none t =
      (some (.unparsed ⟨start, msg_id, seqno, bytes, (afterBody bytes t).buffer.position⟩
        ⟨t.buffer.position, bytes, t.range (t.buffer.position, bytes)⟩), afterBody bytes t) :=
  body_none start msg_id seqno bytes t

theorem afterBody_iterations (bytes : ℕ) (t : Stream) :
    (afterBody bytes t).iterations = t.iterations := by
  unfold afterBody skip
  dsimp only
  split <;> rfl

theorem afterBody_position (bytes : ℕ) {t : Stream} (small : t.buffer.position + bytes < 2 ^ 32) :
    (afterBody bytes t).buffer.position =
      if t.buffer.position + bytes ≤ t.buffer.limit then t.buffer.position + bytes
      else t.buffer.position :=
  skip_position (s := (slice t.buffer.position bytes t).2) small

end Body

/-- What a message does, by the layout of its body. -/
def MessageTells (limit p bytes : ℕ) (new : List Iteration) (r : Option TL_message) (t : Stream) :
    Layout → Prop
  | .object relied stop =>
      ∃ message, r = some message ∧ message.relied = relied ∧ AllBounded limit new ∧
        (p + 16 + bytes < 2 ^ 32 ∨ relied = false → p + 16 ≤ limit → t.buffer.position = stop)
  | .nothing => False
  | .deep => r = none ∧ AllBounded limit new
  | .astray => ¬ AllBounded limit new

/-- The object inside a message does what its layout says. -/
def InnerFollows (requests : Requests) (n : ℕ) : Prop :=
  ∀ request bytes s, Stream.Sound s → Follows (layout requests n request bytes s.toInput) s
    (found (TLdeserialize requests n request bytes s).1)
      (TLdeserialize requests n request bytes s).2

theorem message_follows (inner : InnerFollows requests n) (hs : s.Sound) :
    ∃ new, (TL_message.readParams (TLdeserialize requests n) s).2.iterations = s.iterations ++ new ∧
      MessageTells s.buffer.limit s.buffer.position (statedBytes s) new
        (TL_message.readParams (TLdeserialize requests n) s).1
        (TL_message.readParams (TLdeserialize requests n) s).2
        ((layout requests n none (statedBytes s) (afterHeader s).toInput).body
          (s.buffer.position + 16)
          (statedBytes s) s.buffer.limit) := by
  have after := after_afterHeader hs
  obtain ⟨new, iterations, tells⟩ := inner none (statedBytes s) (afterHeader s) (after.sound hs)
  rw [after.limit] at tells
  rw [after.iterations] at iterations
  refine ⟨new, ?_⟩
  rw [readParams_eq]
  generalize layout requests n none (statedBytes s) (afterHeader s).toInput = lay at tells
  have inside := (meets_deserialize requests n none (statedBytes s) (afterHeader s) s.buffer.limit
    (after.sound hs) after.limit)
  rcases run : TLdeserialize requests n none (statedBytes s) (afterHeader s) with ⟨_ | object, t⟩
  · rw [run] at tells iterations
    rw [bind_of_none run]
    refine ⟨iterations, ?_⟩
    cases lay with
    | object isApi stop => exact absurd tells.1 (by simp [found])
    | nothing => exact absurd tells.1 (by simp [found])
    | deep => exact ⟨rfl, tells.2⟩
    | astray => exact tells
  · rw [run] at tells iterations inside
    rw [bind_of_some run]
    obtain ⟨_, outcome⟩ := inside
    cases object with
    | some object =>
      rw [body_parsed]
      refine ⟨iterations, ?_⟩
      cases lay with
      | object isApi stop =>
        obtain ⟨isApi', stop', all⟩ := tells
        refine ⟨_, rfl, ?_, all, fun _ _ => stop'⟩
        exact Option.some.inj (Option.some.inj isApi')
      | nothing => exact absurd tells.1 (by simp [found])
      | deep => exact absurd tells.1 (by simp [found])
      | astray => exact tells
    | none =>
      have landed : t.buffer.position = (afterHeader s).buffer.position := (outcome.ends none rfl).2
      have limit : t.buffer.limit = s.buffer.limit := outcome.limit.trans after.limit
      rw [body_unparsed]
      have kept := afterBody_iterations (statedBytes s) t
      have position := afterBody_position (statedBytes s) (t := t)
      generalize afterBody (statedBytes s) t = u at kept position
      refine ⟨kept.trans iterations, ?_⟩
      cases lay with
      | object isApi stop => exact absurd tells.1 (by simp [found])
      | deep => exact absurd tells.1 (by simp [found])
      | astray => exact tells
      | nothing =>
        refine ⟨_, rfl, rfl, tells.2, ?_⟩
        rintro (small | ⟨⟨⟩⟩) fits
        have place : t.buffer.position = s.buffer.position + 16 := by
          rcases header_cases hs with ⟨-, position, -⟩ | ⟨cut, -⟩
          · exact landed.trans position
          · omega
        have stop := position (by rw [place]; exact small)
        rw [place, limit] at stop
        exact stop

/-! ### The loop -/

/-- The round with its message, when there is one. -/
theorem round_follows (inner : InnerFollows requests n) (hs : s.Sound) (fine : s.error = false)
    {first index bodies : ℕ} (place : s.buffer.position = first + 16 * index + bodies) :
    ∃ new, (TL_msg_container.round (TLdeserialize requests n) first index s).2.iterations =
        s.iterations ++ new ∧
      match (layout requests n none (statedBytes s) (afterHeader s).toInput).body
        (s.buffer.position + 16) (statedBytes s) s.buffer.limit with
      | .object relied stop =>
          ∃ message t, TL_msg_container.round (TLdeserialize requests n) first index s =
            (some message, t) ∧
            t.Sound ∧ t.buffer = { s.buffer with position := t.buffer.position } ∧
            (s.buffer.limit < s.buffer.position + 16 → t.error = true ∧
              (AllBounded s.buffer.limit new ↔
                16 ≤ bodies + (s.buffer.limit - s.buffer.position))) ∧
            (s.buffer.position + 16 ≤ s.buffer.limit → t.error = false ∧
              if relied = true ∧ 2 ^ 32 ≤ s.buffer.position + 16 + statedBytes s then
                ¬ AllBounded s.buffer.limit new
              else AllBounded s.buffer.limit new ∧ t.buffer.position = stop ∧
                s.buffer.position + 16 ≤ stop)
      | .nothing => False
      | .deep =>
          (TL_msg_container.round (TLdeserialize requests n) first index s).1 = none ∧
            AllBounded s.buffer.limit new
      | .astray => ¬ AllBounded s.buffer.limit new := by
  obtain ⟨new, iterations, tells⟩ := message_follows inner hs
  obtain ⟨new', outcome⟩ := message_outcome (meets_deserialize requests n) hs rfl
  obtain rfl : new' = new := List.append_cancel_left (outcome.iterations.symm.trans iterations)
  generalize (layout requests n none (statedBytes s) (afterHeader s).toInput).body
    (s.buffer.position + 16) (statedBytes s) s.buffer.limit = lay at tells
  rcases run : TL_message.readParams (TLdeserialize requests n) s with ⟨_ | message, t⟩
  · rw [run] at tells iterations
    rw [round_of_none run]
    refine ⟨new', iterations, ?_⟩
    cases lay with
    | object relied stop =>
      obtain ⟨message, none, -⟩ := tells
      cases none
    | nothing => exact tells
    | deep => exact tells
    | astray => exact tells
  · rw [run] at tells iterations outcome
    have round := @round_of_some _ first index _ _ _ run
    rw [round]
    refine ⟨new' ++ [roundOf first index message t.error], ?_, ?_⟩
    · show t.iterations ++ _ = _
      rw [iterations, List.append_assoc]
    cases lay with
    | nothing => exact tells
    | deep => exact absurd tells.1 (by simp)
    | astray => exact fun all => tells all.left
    | object relied stop =>
      obtain ⟨_, ⟨⟩, relied', all, stop'⟩ := tells
      obtain ⟨start, bytes, -, error⟩ := outcome.header message rfl
      have room := hs.room
      have inside := hs.wf.position_le
      have cases := header_cases hs
      rw [fine, ← error] at cases
      have sound := outcome.sound hs
      refine ⟨message, _, rfl, ⟨sound.wf, sound.room⟩, outcome.buffer, fun cut => ?_, fun fits =>
        ?_⟩
      · obtain ⟨fits, -⟩ | ⟨-, -, failed⟩ := cases
        · omega
        refine ⟨failed, fun bounded => ?_, fun enough => all.append fun it mem => ?_⟩
        · have here := (bounded.right _ (List.mem_singleton_self _)).2
          simp only [roundOf, start] at here
          have few := here cut
          rw [Nat.le_div_iff_mul_le (by decide)] at few
          omega
        · rw [List.mem_singleton.1 mem]
          refine ⟨fun fits => ?_, fun _ => ?_⟩
          · simp only [roundOf, start] at fits
            omega
          · simp only [roundOf]
            rw [Nat.le_div_iff_mul_le (by decide)]
            omega
      · obtain ⟨-, -, good⟩ | ⟨cut, -⟩ := cases
        swap
        · omega
        refine ⟨good, ?_⟩
        split_ifs with wraps
        · intro bounded
          have here := (bounded.right _ (List.mem_singleton_self _)).1
          simp only [roundOf, start, bytes] at here
          have small := here fits (relied'.trans wraps.1)
          omega
        · have small : relied = true → s.buffer.position + 16 + statedBytes s < 2 ^ 32 := by
            intro isRelied
            by_contra large
            exact wraps ⟨isRelied, Nat.not_lt.1 large⟩
          have position : t.buffer.position = stop := by
            apply stop' _ fits
            cases relied with
            | true => exact .inl (small rfl)
            | false => exact .inr rfl
          have ahead := (outcome.whole message rfl fits).le all (by rw [relied']; exact small)
          refine ⟨all.append fun it mem => ?_, position, position ▸ ahead⟩
          rw [List.mem_singleton.1 mem]
          refine ⟨fun _ isRelied => ?_, fun cut => ?_⟩
          · simp only [roundOf, start, bytes] at isRelied ⊢
            exact small (relied'.symm.trans isRelied)
          · simp only [roundOf, start] at cut
            omega

/-- A stream without an error over the bytes of an input. -/
structure On (i : Input) (s : Stream) : Prop where
  buffer : s.buffer = { i.buffer with position := s.buffer.position }
  fine : s.error = false

theorem On.limit {i : Input} (on : On i s) : i.buffer.limit = s.buffer.limit := by
  rw [on.buffer]

theorem On.toInput {i : Input} (on : On i s) : s.toInput = standing i s.buffer.position := by
  obtain ⟨⟨buffer, error⟩, reach, iterations⟩ := s
  obtain ⟨same, rfl⟩ := on
  exact congrArg (fun b => ({ buffer := b } : Input)) same

theorem On.next {i : Input} (on : On i s)
    (buffer : t.buffer = { s.buffer with position := t.buffer.position })
    (fine : t.error = false) : On i t := by
  refine ⟨?_, fine⟩
  rw [on.buffer] at buffer
  exact buffer

theorem messagesAt_succ {i : Input} (on : On i s) (inside : ℕ → Input → Layout) (count bodies : ℕ) :
    messagesAt inside i (count + 1) bodies s.buffer.position =
      match (inside (statedBytes s) (afterHeader s).toInput).body (s.buffer.position + 16)
          (statedBytes s)
        s.buffer.limit with
      | .object relied stop =>
          if s.buffer.limit < s.buffer.position + 16 then
            if bodies + (s.buffer.limit - s.buffer.position) < 16 then .astray else .nothing
          else if relied = true ∧ 2 ^ 32 ≤ s.buffer.position + 16 + statedBytes s then .astray
          else messagesAt inside i count (bodies + (stop - (s.buffer.position + 16))) stop
      | other => other := by
  rw [messagesAt, ← on.toInput, on.limit]
  rfl

/-- The loop, by induction on the messages that are declared. -/
theorem loop_follows (inner : InnerFollows requests n) {i : Input} {first : ℕ} (count : ℕ)
    {index bodies : ℕ}
    (hs : s.Sound) (on : On i s) (place : s.buffer.position = first + 16 * index + bodies) :
    Follows (messagesAt (layout requests n none) i count bodies s.buffer.position) s
      ((TL_msg_container.loop (TLdeserialize requests n) first index count s).1.map
        (Option.map fun _ => false))
      (TL_msg_container.loop (TLdeserialize requests n) first index count s).2 := by
  induction count generalizing s index bodies with
  | zero => exact ⟨[], (List.append_nil _).symm, rfl, rfl, allBounded_nil _⟩
  | succ count ih =>
    obtain ⟨new, iterations, tells⟩ := round_follows inner hs on.fine place
    rw [messagesAt_succ on]
    generalize (layout requests n none (statedBytes s) (afterHeader s).toInput).body
      (s.buffer.position + 16) (statedBytes s) s.buffer.limit = lay at tells
    rcases run : TL_msg_container.round (TLdeserialize requests n) first index s with ⟨_ | message,
      t⟩
    · rw [run] at tells iterations
      rw [loop_of_overflow run]
      refine ⟨new, iterations, ?_⟩
      cases lay with
      | object relied stop =>
        obtain ⟨message, t', none, -⟩ := tells
        cases none
      | nothing => exact tells.elim
      | deep => exact ⟨rfl, tells.2⟩
      | astray => exact tells
    · rw [run] at tells iterations
      have sound : t.Sound := by
        obtain ⟨_, outcome⟩ :=
          round_outcome (meets_deserialize requests n) first index hs rfl on.fine
        rw [run] at outcome
        exact outcome.sound hs
      -- whatever the loop does afterwards, it has met these rounds
      obtain ⟨rest, more⟩ : ∃ rest,
          (TL_msg_container.loop (TLdeserialize requests n) first index
            (count + 1) s).2.iterations =
            s.iterations ++ (new ++ rest) := by
        rcases failed : t.error with _ | _
        · obtain ⟨rest, outcome, -⟩ :=
            loop_outcome (meets_deserialize requests n) first count (index + 1) sound rfl failed
          refine ⟨rest, ?_⟩
          rw [loop_of_fine run failed, outcome.iterations, iterations, List.append_assoc]
        · refine ⟨[], ?_⟩
          rw [loop_of_error run failed, List.append_nil, iterations]
      cases lay with
      | nothing => exact tells.elim
      | deep => exact absurd tells.1 (by simp)
      | astray => exact ⟨new ++ rest, more, fun all => tells all.left⟩
      | object relied stop =>
        obtain ⟨_, _, ⟨⟩, -, buffer, whenCut, whenWhole⟩ := tells
        dsimp only
        by_cases cut : s.buffer.limit < s.buffer.position + 16
        · obtain ⟨failed, enough⟩ := whenCut cut
          rw [if_pos cut, loop_of_error run failed]
          refine ⟨new, iterations, ?_⟩
          split_ifs with few
          · exact fun all => absurd (enough.1 all) (Nat.not_le.2 few)
          · exact ⟨rfl, enough.2 (Nat.not_lt.1 few)⟩
        · obtain ⟨fine, whole⟩ := whenWhole (Nat.not_lt.1 cut)
          rw [if_neg cut]
          split_ifs at whole ⊢ with wraps
          · exact ⟨new ++ rest, more, fun all => whole all.left⟩
          · obtain ⟨all, rfl, ahead⟩ := whole
            have place' : t.buffer.position =
                first + 16 * (index + 1) +
                  (bodies + (t.buffer.position - (s.buffer.position + 16))) := by
              omega
            obtain ⟨later, iterations', tells'⟩ := ih sound (on.next buffer fine) place'
            rw [loop_of_fine run fine]
            refine ⟨new ++ later, ?_, ?_⟩
            · dsimp only
              rw [iterations', iterations, List.append_assoc]
            · have limit : t.buffer.limit = s.buffer.limit := by rw [buffer]
              rw [limit] at tells'
              have result :
                ((TL_msg_container.loop (TLdeserialize requests n) first (index + 1) count t).1.map
                  (Option.map (message :: ·))).map (Option.map fun _ => false) =
                  (TL_msg_container.loop (TLdeserialize requests n) first (index + 1) count t).1.map
                    (Option.map fun _ => false) := by
                rw [Option.map_map]
                congr 1
                funext messages
                cases messages <;> rfl
              dsimp only
              rw [result]
              exact tells'.behind all

/-! ### Containers and results -/

/-- A container, with the error that a count or a header that is cut off leaves. -/
theorem container_follows (inner : InnerFollows requests n) (hs : s.Sound)
    (fine : s.error = false) :
    Follows (containerAt (layout requests n none) s.toInput) s
      (found (TL_msg_container.readParams (TLdeserialize requests n) s).1)
      (TL_msg_container.readParams (TLdeserialize requests n) s).2 := by
  have after : s.After (readUint32 s).2 := Plain.after inferInstance hs
  rw [container_eq]
  rcases readUint32_cases hs with ⟨-, -, same⟩ | ⟨cut, -⟩
  · have on : On s.toInput (readUint32 s).2 := ⟨after.buffer, same.trans fine⟩
    obtain ⟨new, iterations, tells⟩ :=
      loop_follows inner ((readUint32 s).1.getD 0) (after.sound hs) on
        (show (readUint32 s).2.buffer.position = (readUint32 s).2.buffer.position + 16 * 0 +
          0 from rfl)
    rw [after.limit] at tells
    rw [after.iterations] at iterations
    have lay : containerAt (layout requests n none) s.toInput =
        messagesAt (layout requests n none) s.toInput ((readUint32 s).1.getD 0) 0
          (readUint32 s).2.buffer.position := rfl
    rw [lay]
    rcases run : TL_msg_container.loop (TLdeserialize requests n) (readUint32 s).2.buffer.position 0
      ((readUint32 s).1.getD 0) (readUint32 s).2 with ⟨_ | messages, t⟩
    · rw [run] at tells iterations
      rw [bind_of_none run]
      exact ⟨new, iterations, tells⟩
    · rw [run] at tells iterations
      rw [bind_of_some run]
      refine ⟨new, iterations, ?_⟩
      cases messages with
      | none => exact tells
      | some messages => exact tells
  · have zero := readUint32_zero hs cut
    have lay : containerAt (layout requests n none) s.toInput =
        messagesAt (layout requests n none) s.toInput ((readUint32 s).1.getD 0) 0
          (readUint32 s).2.buffer.position := rfl
    rw [lay, zero]
    exact ⟨[], by rw [List.append_nil]; exact after.iterations, rfl, rfl, allBounded_nil _⟩

/-- A result: a missing object is an error, and so is a message id that is cut off. -/
theorem result_follows (inner : InnerFollows requests n) (hs : s.Sound) (bytes : ℕ) (id : BitVec 64)
    (read : (readInt64 s).1 = some id) :
    Follows (layout requests n (requests id) (sub32 bytes 12) (readInt64 s).2.toInput) s
        (found (TL_rpc_result.readParamsEx (TLdeserialize requests n) requests bytes s).1)
        (TL_rpc_result.readParamsEx (TLdeserialize requests n) requests bytes s).2 ∧
      ∀ object, (TL_rpc_result.readParamsEx (TLdeserialize requests n) requests bytes s).1 =
        some object →
        (TL_rpc_result.readParamsEx (TLdeserialize requests n) requests bytes s).2.error =
          (object.isNone || (readInt64 s).2.error) := by
  have after : s.After (readInt64 s).2 := Plain.after inferInstance hs
  obtain ⟨new, iterations, tells⟩ :=
    inner (requests id) (sub32 bytes 12) (readInt64 s).2 (after.sound hs)
  obtain ⟨_, outcome⟩ :=
    meets_deserialize requests n (requests id) (sub32 bytes 12) (readInt64 s).2 _
    (after.sound hs) rfl
  rw [after.limit] at tells
  rw [after.iterations] at iterations
  have split : TL_rpc_result.readParamsEx (TLdeserialize requests n) requests bytes s =
      (TLdeserialize requests n (requests id) (sub32 bytes 12) >>= TL_rpc_result.result id)
        (readInt64 s).2 := bind_of_some (Prod.ext read rfl)
  rw [split]
  rcases run : TLdeserialize requests n (requests id) (sub32 bytes 12) (readInt64 s).2 with
    ⟨_ | object, t⟩
  · rw [run] at tells iterations
    rw [bind_of_none run]
    exact ⟨⟨new, iterations, tells⟩, by simp⟩
  · rw [run] at tells iterations outcome
    rw [bind_of_some run]
    cases object with
    | none => exact ⟨⟨new, iterations, tells⟩, fun _ missing => Option.some.inj missing ▸ rfl⟩
    | some object =>
      refine ⟨⟨new, iterations, tells⟩, ?_⟩
      rintro _ ⟨⟩
      exact (outcome.ends _ rfl).1

/-! ### Objects with nothing inside -/

section Leaf

variable {deserialize : Deserializer} {request : Option RawRequest} {bytes constructor : ℕ}

theorem store_after (container : constructor ≠ 0x73f1f8dc) (result : constructor ≠ 0xf35c6d01)
    (hs : s.Sound) :
    s.After (TLClassStore.TLdeserialize deserialize requests bytes constructor s).2 := by
  rw [TLClassStore.TLdeserialize, if_neg container, if_neg result]
  split_ifs
  · exact plain_gzip_packed.after hs
  · rcases known : TLClassStore.classes.lookup constructor with _ | readParams
    · exact Stream.After.refl hs
    · exact (plain_classes known).after hs

theorem response_iterations {p : ℕ} (hs : s.Sound) (hp : s.buffer.position = p + 4)
    (object : Option TLObject) :
    (TLdeserialize.response request bytes constructor object s).2.iterations = s.iterations := by
  cases object with
  | some object => rfl
  | none =>
    cases request with
    | none => rfl
    | some request =>
      have outcome := response_outcome (n := 0) request bytes constructor hs rfl hp
      have kept := outcome.iterations
      rw [List.append_nil] at kept
      unfold TLdeserialize.response
      dsimp only
      rcases run : request.deserializeResponse bytes constructor s with ⟨_ | object, t⟩
      · rw [run] at kept
        rw [bind_of_none run]
        exact kept
      · rw [run] at kept
        rw [bind_of_some run]
        rcases failed : t.error with _ | _
        · rw [unlessError_of_fine failed]
          exact kept
        · rw [unlessError_of_error failed]
          exact kept

/-- Such an object writes no round down. -/
theorem leaf_iterations {p : ℕ} (container : constructor ≠ 0x73f1f8dc)
    (result : constructor ≠ 0xf35c6d01)
    (hs : s.Sound) (hp : s.buffer.position = p + 4) :
    (TLdeserialize.parse deserialize requests request bytes constructor s).2.iterations =
      s.iterations := by
  have after := @store_after requests s deserialize bytes constructor container result hs
  rcases run : TLClassStore.TLdeserialize deserialize requests bytes constructor s with ⟨_ | object,
    t⟩
  · rw [run] at after
    rw [parse_of_overflow run]
    exact after.iterations
  · rw [run] at after
    rcases failed : t.error with _ | _
    · rw [parse_of_fine run failed]
      have behind : t.buffer.position = (t.buffer.position - 4) + 4 := by
        have ahead : s.buffer.position ≤ t.buffer.position := after.position_le
        omega
      rw [response_iterations (after.sound hs) behind]
      exact after.iterations
    · rw [parse_of_error run failed]
      exact after.iterations

/-- Such an object is parsed without the parsers of what is inside. -/
theorem leaf_parse (container : constructor ≠ 0x73f1f8dc) (result : constructor ≠ 0xf35c6d01)
    (deserialize' : Deserializer) :
    TLdeserialize.parse deserialize requests request bytes constructor =
      TLdeserialize.parse deserialize' requests request bytes constructor := by
  simp only [TLdeserialize.parse, TLClassStore.TLdeserialize, if_neg container, if_neg result]

theorem leaf_follows {p : ℕ} (container : constructor ≠ 0x73f1f8dc)
    (result : constructor ≠ 0xf35c6d01)
    (hs : s.Sound) (hp : s.buffer.position = p + 4) :
    Follows (.ofRun (TLdeserialize.parse (fun _ _ => crash) requests request bytes constructor
      (bare s.toInput))) s
      (found (TLdeserialize.parse deserialize requests request bytes constructor s).1)
      (TLdeserialize.parse deserialize requests request bytes constructor s).2 := by
  have kept :=
    @leaf_iterations requests s deserialize request bytes constructor p container result hs hp
  have blind : ∀ e, Blind (Stream.Agree e) (Stream.Within e)
      (TLdeserialize.parse (fun _ _ => crash) requests request bytes constructor) := by
    intro e
    have inner : ∀ (request : Option RawRequest) (bytes : ℕ),
      Blind (Stream.Agree e) (Stream.Within e)
        ((fun _ _ => crash : Deserializer) request bytes) := fun _ _ => blind_crash
    infer_instance
  obtain ⟨value, last⟩ := run_bare blind s
  have same : TLdeserialize.parse deserialize requests request bytes constructor s =
      TLdeserialize.parse (fun _ _ => crash) requests request bytes constructor s :=
    congrFun (leaf_parse container result fun _ _ => crash) s
  rw [same] at kept ⊢
  refine ⟨[], by rw [List.append_nil, kept], ?_⟩
  generalize TLdeserialize.parse (fun _ _ => crash) requests request bytes constructor
    (bare s.toInput) = r
    at value last
  obtain ⟨r, t⟩ := r
  rw [← value]
  have position :
      (TLdeserialize.parse (fun _ _ =>
        crash) requests request bytes constructor s).2.buffer.position =
      t.buffer.position := congrArg (fun i : Input => i.buffer.position) last.symm
  rcases r with _ | _ | object
  · exact ⟨rfl, allBounded_nil _⟩
  · exact ⟨rfl, allBounded_nil _⟩
  · exact ⟨rfl, position, allBounded_nil _⟩

end Leaf

/-! ### Calls -/

/-- A container that is missing is an error, and one whose count fits is not. -/
theorem container_error (hs : s.Sound) (fine : s.error = false)
    (fits : s.buffer.position + 4 ≤ s.buffer.limit) {object : Option TLObject}
    (run : TL_msg_container.readParams (TLdeserialize requests n) s = (some object, t)) :
    t.error = object.isNone := by
  have after : s.After (readUint32 s).2 := Plain.after inferInstance hs
  obtain ⟨-, -, same⟩ | ⟨cut, -⟩ := readUint32_cases hs
  swap
  · omega
  obtain ⟨_, -, error⟩ :=
    loop_outcome (meets_deserialize requests n) (readUint32 s).2.buffer.position
    ((readUint32 s).1.getD 0) 0 (after.sound hs) rfl (same.trans fine)
  rw [container_eq] at run
  rcases inside :
    TL_msg_container.loop (TLdeserialize requests n) (readUint32 s).2.buffer.position 0
    ((readUint32 s).1.getD 0) (readUint32 s).2 with ⟨_ | messages, u⟩
  · rw [bind_of_none inside] at run
    cases run
  · rw [inside] at error
    rw [bind_of_some inside] at run
    cases run
    rw [error messages rfl]
    cases messages <;> rfl

/-- The call for what the store knows keeps an object that was parsed without an error. -/
theorem parse_of_store {request : Option RawRequest} {bytes constructor : ℕ}
    {r : Option (Option TLObject)}
    {deserialize : Deserializer}
    (store : TLClassStore.TLdeserialize deserialize requests bytes constructor s = (r, t))
    (missing : ∀ object, r = some object → t.error = object.isNone) :
    TLdeserialize.parse deserialize requests request bytes constructor s = (r, t) := by
  cases r with
  | none => exact parse_of_overflow store
  | some object =>
    have error := missing object rfl
    cases object with
    | none => exact parse_of_error store error
    | some object => exact parse_of_fine store error

/-- The object behind a constructor that fits. -/
theorem parse_follows (inner : InnerFollows requests n) (hs : s.Sound) (fine : s.error = false)
    (fits : s.buffer.position + 4 ≤ s.buffer.limit) (request : Option RawRequest) (bytes : ℕ) :
    Follows (objectAt requests (layout requests n) request bytes s.toInput) s
      (found (TLdeserialize.parse (TLdeserialize requests n) requests request bytes
        (constructorAt s.toInput)
        (readUint32 s).2).1)
      (TLdeserialize.parse (TLdeserialize requests n) requests request bytes
        (constructorAt s.toInput)
        (readUint32 s).2).2 := by
  have after : s.After (readUint32 s).2 := Plain.after inferInstance hs
  obtain ⟨-, position, same⟩ | ⟨cut, -⟩ := readUint32_cases hs
  swap
  · omega
  have fine' : (readUint32 s).2.error = false := same.trans fine
  have whole : ¬ s.buffer.limit < s.buffer.position + 4 := Nat.not_lt.2 fits
  have widen : ∀ {lay : Layout} {r : Option (Option Bool)} {t : Stream},
      Follows lay (readUint32 s).2 r t →
      Follows lay s r t := by
    rintro lay r t ⟨new, iterations, tells⟩
    rw [after.limit] at tells
    exact ⟨new, iterations.trans (by rw [after.iterations]), tells⟩
  apply widen
  unfold objectAt
  rw [if_neg whole]
  by_cases container : constructorAt s.toInput = 0x73f1f8dc
  · have store :
      TLClassStore.TLdeserialize (TLdeserialize requests n) requests bytes (constructorAt s.toInput)
        (readUint32 s).2 =
          TL_msg_container.readParams (TLdeserialize requests n) (readUint32 s).2 := by
      rw [TLClassStore.TLdeserialize, if_pos container]
    rw [if_pos container]
    by_cases cut : s.buffer.limit < s.buffer.position + 8
    · -- a count that is cut off is an error behind an empty container
      rw [if_pos cut]
      have after' := Plain.after (m := readUint32) inferInstance (after.sound hs)
      have limit := after.limit
      obtain ⟨fits', -⟩ | ⟨cut', -, failed⟩ := readUint32_cases (after.sound hs)
      · omega
      have zero := readUint32_zero (after.sound hs) cut'
      have run : TL_msg_container.readParams (TLdeserialize requests n) (readUint32 s).2 =
          (some (some (.msg_container [])), (readUint32 (readUint32 s).2).2) := by
        rw [container_eq, zero]
        rfl
      rw [parse_of_error (store.trans run) failed]
      exact ⟨[], after'.iterations.trans (List.append_nil _).symm, rfl, allBounded_nil _⟩
    · rw [if_neg cut]
      have limit := after.limit
      have fits' : (readUint32 s).2.buffer.position + 4 ≤ (readUint32 s).2.buffer.limit := by omega
      have follows := container_follows inner (after.sound hs) fine'
      rcases run : TL_msg_container.readParams (TLdeserialize requests n) (readUint32 s).2 with
        ⟨r, t⟩
      rw [run] at follows
      rw [parse_of_store (store.trans run) fun object some => ?_]
      · exact follows
      · subst some
        exact container_error (after.sound hs) fine' fits' run
  rw [if_neg container]
  by_cases result : constructorAt s.toInput = 0xf35c6d01
  · have store :
      TLClassStore.TLdeserialize (TLdeserialize requests n) requests bytes (constructorAt s.toInput)
        (readUint32 s).2 =
          TL_rpc_result.readParamsEx (TLdeserialize requests n) requests bytes
            (readUint32 s).2 := by
      rw [TLClassStore.TLdeserialize, if_neg container, if_pos result]
    rw [if_pos result]
    obtain ⟨⟨new, iterations, tells⟩, error⟩ :=
      result_follows inner (after.sound hs) bytes (requestAt s.toInput) rfl
    have limit := after.limit
    change Layout.Tells _ new _ _
      (layout requests n (requests (requestAt s.toInput)) (sub32 bytes 12)
        (behindRequest s.toInput)) at tells
    generalize layout requests n (requests (requestAt s.toInput)) (sub32 bytes 12)
      (behindRequest s.toInput) = lay
      at tells
    rcases run :
      TL_rpc_result.readParamsEx (TLdeserialize requests n) requests bytes (readUint32 s).2 with
        ⟨r, t⟩
    rw [run] at iterations tells error
    obtain ⟨fits', -, good⟩ | ⟨cut, -, failed⟩ := readInt64_cases (after.sound hs)
    · -- the message id is there
      rw [parse_of_store (store.trans run) fun object some => ?_]
      · refine ⟨new, iterations, ?_⟩
        cases lay with
        | object isApi stop =>
          rw [resultAt, if_neg (by omega)]
          exact tells
        | nothing => exact tells
        | deep => exact tells
        | astray => exact tells
      · rw [error object some, good, fine', Bool.or_false]
    · -- without the message id no object is kept
      cases r with
      | none =>
        rw [parse_of_overflow (store.trans run)]
        refine ⟨new, iterations, ?_⟩
        cases lay with
        | object isApi stop => exact absurd tells.1 (by simp [found])
        | nothing => exact tells
        | deep => exact tells
        | astray => exact tells
      | some object =>
        rw [parse_of_error (store.trans run) (by rw [error object rfl, failed, Bool.or_true])]
        refine ⟨new, iterations, ?_⟩
        cases lay with
        | object isApi stop =>
          rw [resultAt, if_pos (by omega)]
          exact ⟨rfl, tells.2.2⟩
        | nothing => exact ⟨rfl, tells.2⟩
        | deep => exact absurd tells.1 (by simp [found])
        | astray => exact tells
  rw [if_neg result]
  exact leaf_follows container result (after.sound hs) position

theorem object_follows (inner : InnerFollows requests n) (hs : s.Sound) (fine : s.error = false)
    (request : Option RawRequest) (bytes : ℕ) :
    Follows (objectAt requests (layout requests n) request bytes s.toInput) s
      (found (TLdeserialize.object (TLdeserialize requests n) requests request bytes s).1)
      (TLdeserialize.object (TLdeserialize requests n) requests request bytes s).2 := by
  have after : s.After (readUint32 s).2 := Plain.after inferInstance hs
  rw [object_eq]
  obtain ⟨fits, -, same⟩ | ⟨cut, -, failed⟩ := readUint32_cases hs
  · rw [if_neg (by rw [same, fine]; decide)]
    exact parse_follows inner hs fine fits request bytes
  · rw [if_pos failed]
    refine ⟨[], after.iterations.trans (List.append_nil _).symm, ?_⟩
    rw [objectAt, if_pos cut]
    exact ⟨rfl, allBounded_nil _⟩

/-- The calls follow their layouts, by induction on the room on the stack. -/
theorem innerFollows (requests : Requests) (n : ℕ) : InnerFollows requests n := by
  induction n with
  | zero => exact fun request bytes s _ => ⟨[], (List.append_nil _).symm, rfl, allBounded_nil _⟩
  | succ n ih =>
    intro request bytes s hs
    obtain ⟨new, iterations, tells⟩ :=
      object_follows ih (s := fresh s) ⟨hs.wf, hs.room⟩ rfl request bytes
    show Follows
      (objectAt requests (layout requests n) request bytes { s.toInput with error := false }) s
      (found (TLdeserialize.step (TLdeserialize requests n) requests request bytes s).1)
      (TLdeserialize.step (TLdeserialize requests n) requests request bytes s).2
    change Layout.Tells s.buffer.limit new _ _
      (objectAt requests (layout requests n) request bytes { s.toInput with error := false })
        at tells
    generalize objectAt requests (layout requests n) request bytes
      { s.toInput with error := false } = lay at tells ⊢
    rcases run : TLdeserialize.object (TLdeserialize requests n) requests request bytes (fresh s)
      with
      ⟨_ | _ | object, t⟩
    · rw [run] at iterations tells
      rw [step_of_overflow run]
      exact ⟨new, iterations, tells⟩
    · rw [run] at iterations tells
      rw [step_of_none run]
      refine ⟨new, iterations, ?_⟩
      cases lay with
      | object isApi stop => exact absurd tells.1 (by simp [found])
      | nothing => exact tells
      | deep => exact tells
      | astray => exact tells
    · rw [run] at iterations tells
      rw [step_of_some run]
      exact ⟨new, iterations, tells⟩

/-- The rounds of a container are bounded exactly when its layout does not go astray. -/
theorem allBounded_iff (hs : s.Sound) (fine : s.error = false) (blank : s.iterations = []) :
    AllBounded s.buffer.limit
        (TL_msg_container.readParams (TLdeserialize requests n) s).2.iterations ↔
      ¬ Astray requests n s.toInput := by
  obtain ⟨new, iterations, tells⟩ := container_follows (innerFollows requests n) hs fine
  rw [iterations, blank, List.nil_append, Astray]
  cases lay : containerAt (layout requests n none) s.toInput with
  | object isApi stop =>
    rw [lay] at tells
    exact iff_of_true tells.2.2 (by simp)
  | nothing =>
    rw [lay] at tells
    exact iff_of_true tells.2 (by simp)
  | deep =>
    rw [lay] at tells
    exact iff_of_true tells.2 (by simp)
  | astray =>
    rw [lay] at tells
    exact iff_of_false tells (by simp)

end Follow

/-! ## Progress -/

/-- Parsing a container from the position of its count on: every round of the loop, and of the loops
over the containers inside, sets the error or moves ahead by a header, never back, and makes at most
one message for every sixteen bytes, if and only if the layout of the bytes does not go astray.
Then the parser needs no more room on the stack than there are bytes. -/
theorem readParams_progress (requests : Requests) (n : ℕ) (s : Stream) (hs : s.Sound)
    (fine : s.error = false) (blank : s.iterations = []) :
    ((∀ it ∈ (TL_msg_container.readParams (TLdeserialize requests n) s).2.iterations,
        it.Progress s.buffer.limit) ↔ ¬ Astray requests n s.toInput) ∧
      (¬ Astray requests n s.toInput → s.buffer.limit ≤ s.buffer.position + n →
        (TL_msg_container.readParams (TLdeserialize requests n) s).1.isSome) := by
  obtain ⟨progress, room⟩ := progress_iff_allBounded requests n s hs fine blank
  have bounded := @allBounded_iff requests n s hs fine blank
  exact ⟨progress.trans bounded, fun sound => room (bounded.2 sound)⟩

/-- A container with a container with a pong, and with a message that is not known to the parser. -/
def goingOn : Stream :=
  { buffer := NativeByteBuffer.sliced
      ([2, 0, 0, 0] ++ [1, 0, 0, 0, 0, 0, 0, 0] ++ [1, 0, 0, 0] ++ [44, 0, 0, 0] ++
        [0xdc, 0xf8, 0xf1, 0x73] ++ [1, 0, 0, 0] ++ [2, 0, 0, 0, 0, 0, 0, 0] ++ [2, 0, 0, 0] ++
          [20, 0, 0, 0] ++
        [0xc5, 0x73, 0x77, 0x34] ++ List.replicate 16 7 ++
        [3, 0, 0, 0, 0, 0, 0, 0] ++ [3, 0, 0, 0] ++ [4, 0, 0, 0] ++ [0, 0, 0, 0]) }

theorem readParams_goingOn :
    (∀ it ∈ (TL_msg_container.readParams (TLdeserialize (fun _ => none) 100) goingOn).2.iterations,
        it.Progress goingOn.buffer.limit) ∧
      (TL_msg_container.readParams (TLdeserialize (fun _ => none) 100) goingOn).1.isSome := by
  have hs : goingOn.Sound := ⟨NativeByteBuffer.wf_sliced (by decide), by decide⟩
  obtain ⟨progress, room⟩ := readParams_progress (fun _ => none) 100 goingOn hs rfl rfl
  have here : ¬ Astray (fun _ => none) 100 goingOn.toInput := by decide +kernel
  exact ⟨progress.2 here, room here (by decide)⟩

/-- A container with two messages.  The first says that its body is sixteen bytes shorter than
nothing. -/
def turningBack : Stream :=
  { buffer := NativeByteBuffer.sliced
      ([2, 0, 0, 0] ++ [1, 0, 0, 0, 0, 0, 0, 0] ++ [1, 0, 0, 0] ++ [0xf0, 0xff, 0xff, 0xff] ++
        [0, 0, 0, 0]) }

theorem sound_turningBack : turningBack.Sound :=
  ⟨NativeByteBuffer.wf_sliced (by decide), by decide⟩

/-- Its loop reads the first message again and again. -/
theorem readParams_turningBack :
    ¬ ∀ (requests : Requests) (n : ℕ) (s : Stream), s.Sound → s.error = false → s.iterations = [] →
      ∀ it ∈ (TL_msg_container.readParams (TLdeserialize requests n) s).2.iterations,
        it.Progress s.buffer.limit := by
  intro h
  have hrun : (TL_msg_container.readParams (TLdeserialize (fun _ => none) 1)
      turningBack).2.iterations =
      [{ first := 4, index := 0, start := 4, bytes := 4294967280, relied := true, stop := 4,
          error := false },
        { first := 4, index := 1, start := 4, bytes := 4294967280, relied := true, stop := 4,
          error := false }] := by
    decide +kernel
  have hprogress := h (fun _ => none) 1 turningBack sound_turningBack rfl rfl
  rw [hrun] at hprogress
  have hfirst := (hprogress _ List.mem_cons_self).1
  simp at hfirst

end Mtproto.Scheme
