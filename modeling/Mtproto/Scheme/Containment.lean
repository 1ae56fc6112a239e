import Mtproto.Scheme.Progress

/-!
# Containment of parsed messages

What is parsed out of a message should lie inside the message, and the messages of a container
should follow each other without gaps.  The parsers never compare the length that a message states
with what they read: the property holds of a frame if and only if the lengths on the wire are
honest.
-/

namespace Mtproto.Scheme

open Lib Lib.Interruptible Tgnet Scan

/-! ## Contained objects -/

/-- The bytes lie between `p` and `e`. -/
def Slice.Between (p e : ℕ) (slice : Slice) : Prop :=
  p ≤ slice.offset ∧ slice.offset + slice.length ≤ e

mutual

/-- What was parsed from `p` on lies before `e`, where the enclosing message ends. -/
def TLObject.Contained (p e : ℕ) : TLObject → Prop
  | .record _ => True
  | .gzip_packed packed_data => ∀ slice ∈ packed_data, slice.Between p e
  | .msg_container messages => TL_message.AllContained e (p + 8) messages
  | .rpc_result _ result =>
      p + 12 + sub32 (e - p) 12 ≤ e ∧ result.Contained (p + 12) (p + 12 + sub32 (e - p) 12)
  | .api_response response => response.Between p e

/-- The messages follow each other from `s` on, each of them ends where it says, inside the
enclosing message, and what was parsed out of it lies inside. -/
def TL_message.AllContained (e s : ℕ) : List TL_message → Prop
  | [] => True
  | message :: rest =>
      message.header.start = s ∧
        message.header.stop = message.header.start + 16 + message.header.bytes ∧
        message.header.stop ≤ e ∧ message.Contained ∧
        TL_message.AllContained e message.header.stop rest

/-- What was parsed out of a message lies inside. -/
def TL_message.Contained : TL_message → Prop
  | .parsed header body => body.Contained (header.start + 16) (header.start + 16 + header.bytes)
  | .unparsed header unparsedBody =>
      unparsedBody.Between (header.start + 16) (header.start + 16 + header.bytes)

end

/-! ## Honest lengths -/

/-- A stream with nothing written down. -/
def bare (i : Input) : Stream := { toInput := i }

/-- The input behind a message, by the length that it states. -/
def behindMessage (i : Input) : Input :=
  { i with buffer := { i.buffer with position := i.buffer.position + 16 + statedBytes (bare i) } }

/-- The input behind so many messages. -/
def behindMessages : ℕ → Input → Input
  | 0, i => i
  | count + 1, i => behindMessages count (behindMessage i)

/-- The constructor at the position. -/
def constructorAt (i : Input) : ℕ := (Input.word 4 i).1

/-- The input behind the constructor. -/
def behindConstructor (i : Input) : Input := (Input.word 4 i).2

/-- The message id behind the constructor of a result. -/
def requestAt (i : Input) : BitVec 64 := (Input.readInt64 (behindConstructor i)).1

/-- The input behind it. -/
def behindRequest (i : Input) : Input := (Input.readInt64 (behindConstructor i)).2

/-- Where a response ends: by its length when the application parses it. -/
def responseEnd (bytes : ℕ) (i : Input) : Option RawRequest → ℕ
  | none => i.buffer.position
  | some request =>
      if request = .api_request then i.buffer.position + bytes
      else
        (request.deserializeRecord (constructorAt i) (bare (behindConstructor i))).2.buffer.position

/-- Where an object with nothing inside ends. -/
def recordEnd (request : Option RawRequest) (bytes : ℕ) (i : Input) : ℕ :=
  match TLClassStore.classes.lookup (constructorAt i) with
  | some readParams => (readParams (bare (behindConstructor i))).2.buffer.position
  | none => responseEnd bytes i request

/-- Where the object at the position ends, by what stands on the wire. -/
def wireEnd (requests : Requests) : ℕ → Option RawRequest → ℕ → Input → ℕ
  | 0, _, _, i => i.buffer.position
  | n + 1, request, bytes, i =>
      if constructorAt i = 0x73f1f8dc then
        (behindMessages (constructorAt (behindConstructor i))
          (behindConstructor (behindConstructor i))).buffer.position
      else if constructorAt i = 0xf35c6d01 then
        wireEnd requests n (requests (requestAt i)) (bytes - 12) (behindRequest i)
      else if constructorAt i = 0x3072cfa1 then
        (Input.frame (behindConstructor i)).2.buffer.position
      else recordEnd request bytes i

/-- The messages fit, and those whose bodies the parser accepts have bodies of the length they
state. -/
def HonestMessages (deserialize : Deserializer) (wireEnd : ℕ → Input → ℕ)
    (honest : ℕ → Input → Prop) (e : ℕ) : ℕ → Input → Prop
  | 0, _ => True
  | count + 1, i =>
      i.buffer.position + 16 + statedBytes (bare i) ≤ e ∧
        ((∃ object,
            (deserialize none (statedBytes (bare i)) (afterHeader (bare i))).1 =
              some (some object)) →
          wireEnd (statedBytes (bare i)) (afterHeader (bare i)).toInput =
              i.buffer.position + 16 + statedBytes (bare i) ∧
            honest (statedBytes (bare i)) (afterHeader (bare i)).toInput) ∧
        HonestMessages deserialize wireEnd honest e count (behindMessage i)

/-- The lengths inside the object at the position are honest: a result has room for its header,
packed data ends inside the object, and the messages of a container are honest. -/
def Honest (requests : Requests) : ℕ → ℕ → Input → Prop
  | 0, _, _ => True
  | n + 1, bytes, i =>
      if constructorAt i = 0x73f1f8dc then
        HonestMessages (TLdeserialize requests n) (wireEnd requests n none) (Honest requests n)
          (i.buffer.position + bytes) (constructorAt (behindConstructor i))
          (behindConstructor (behindConstructor i))
      else if constructorAt i = 0xf35c6d01 then
        12 ≤ bytes ∧ Honest requests n (bytes - 12) (behindRequest i)
      else if constructorAt i = 0x3072cfa1 then
        ∀ range ∈ (Input.frame (behindConstructor i)).1,
          range.1 + range.2 ≤ i.buffer.position + bytes
      else True

/-! ## Accepted objects -/

/-- A parser does the same when something else is written down. -/
theorem run_bare {α : Type} {m : Scan α} (h : ∀ e, Blind (Stream.Agree e) (Stream.Within e) m)
    (s : Stream) :
    (m (bare s.toInput)).1 = (m s).1 ∧ (m (bare s.toInput)).2.toInput = (m s).2.toInput := by
  have hagree : Stream.Agree (max (m s).2.reach (m s).2.buffer.buffer.length) s (bare s.toInput) :=
    ⟨s.buffer.buffer, 0, [], rfl, rfl, rfl⟩
  obtain ⟨hvalue, bytes, reach, iterations, htake, hlength, hlast⟩ :=
    (h _).blind s _ hagree (le_max_left _ _)
  refine ⟨hvalue, ?_⟩
  have hbytes : bytes = (m s).2.buffer.buffer := by
    rwa [List.take_of_length_le (by rw [hlength]; exact le_max_right _ _),
      List.take_of_length_le (le_max_right _ _)] at htake
  rw [hlast, hbytes]
  rfl

/-- The ways in which `TLdeserialize` accepts an object, with the buffer it leaves. -/
inductive Accepted (requests : Requests) (n : ℕ) (request : Option RawRequest) (bytes : ℕ)
    (s : Stream) : TLObject → NativeByteBuffer → Prop where
  | container {messages : List TL_message} {w t : Stream}
      (hconstructor : constructorAt s.toInput = 0x73f1f8dc)
      (hw : w = (readUint32 (readUint32 s).2).2)
        (hposition : w.buffer.position = s.buffer.position + 8)
      (herror : w.error = false)
      (hloop : TL_msg_container.loop (TLdeserialize requests n) w.buffer.position 0
        (constructorAt (behindConstructor s.toInput)) w = (some (some messages), t)) :
      Accepted requests n request bytes s (.msg_container messages) t.buffer
  | result {object : TLObject} {w t : Stream}
      (hconstructor : constructorAt s.toInput = 0xf35c6d01)
      (hw : w = (readInt64 (readUint32 s).2).2)
        (hposition : w.buffer.position = s.buffer.position + 12)
      (herror : w.error = false)
      (hinner : TLdeserialize requests n (requests (requestAt s.toInput)) (sub32 bytes 12) w =
        (some (some object), t)) :
      Accepted requests n request bytes s (.rpc_result (requestAt s.toInput) object) t.buffer
  | packed {packed_data : Option Slice} {t : Stream}
      (hconstructor : constructorAt s.toInput = 0x3072cfa1)
      (hrun : readByteBuffer (readUint32 s).2 = (some packed_data, t)) :
      Accepted requests n request bytes s (.gzip_packed packed_data) t.buffer
  | class {record : Record} {readParams : Scan Record} {t : Stream}
      (hcontainer : constructorAt s.toInput ≠ 0x73f1f8dc)
      (hresult : constructorAt s.toInput ≠ 0xf35c6d01)
      (hpacked : constructorAt s.toInput ≠ 0x3072cfa1)
      (hclass : TLClassStore.classes.lookup (constructorAt s.toInput) = some readParams)
      (hrun : readParams (readUint32 s).2 = (some record, t)) :
      Accepted requests n request bytes s (.record record) t.buffer
  | api {content : List UInt8} {t : Stream}
      (hcontainer : constructorAt s.toInput ≠ 0x73f1f8dc)
      (hresult : constructorAt s.toInput ≠ 0xf35c6d01)
      (hpacked : constructorAt s.toInput ≠ 0x3072cfa1)
      (hclass : TLClassStore.classes.lookup (constructorAt s.toInput) = none)
      (hrequest : request = some .api_request)
      (hrelies : Relies s.buffer.position bytes s.buffer.limit t.buffer.position) :
      Accepted requests n request bytes s (.api_response ⟨s.buffer.position, bytes, content⟩)
        t.buffer
  | response {record : Record} {raw : RawRequest} {t : Stream}
      (hcontainer : constructorAt s.toInput ≠ 0x73f1f8dc)
      (hresult : constructorAt s.toInput ≠ 0xf35c6d01)
      (hpacked : constructorAt s.toInput ≠ 0x3072cfa1)
      (hclass : TLClassStore.classes.lookup (constructorAt s.toInput) = none)
      (hrequest : request = some raw) (hraw : raw ≠ .api_request)
      (hrun : raw.deserializeRecord (constructorAt s.toInput) (readUint32 s).2 = (some record, t)) :
      Accepted requests n request bytes s (.record record) t.buffer

section Accepted

variable {requests : Requests} {n bytes : ℕ} {request : Option RawRequest} {s t : Stream}
variable {object : TLObject}

theorem fresh_of_fine (h : s.error = false) : fresh s = s := by
  unfold fresh
  rw [← h]

/-- A container whose loop ends without an error. -/
theorem accepted_container (hu : (readUint32 s).2.Sound)
    (hposition : (readUint32 s).2.buffer.position = s.buffer.position + 4)
    (herror : (readUint32 s).2.error = false)
    (hconstructor : constructorAt s.toInput = 0x73f1f8dc)
    (h : TL_msg_container.readParams (TLdeserialize requests n) (readUint32 s).2 =
      (some (some object), t)) (ht : t.error = false) :
    Accepted requests n request bytes s object t.buffer := by
  have hw : (readUint32 s).2.After (readUint32 (readUint32 s).2).2 := Plain.after inferInstance hu
  rw [container_eq] at h
  rcases hloop : TL_msg_container.loop (TLdeserialize requests n)
    (readUint32 (readUint32 s).2).2.buffer.position 0 ((readUint32 (readUint32 s).2).1.getD 0)
    (readUint32 (readUint32 s).2).2 with ⟨_ | messages, v⟩
  · rw [bind_of_none hloop] at h
    cases h
  rw [bind_of_some hloop] at h
  cases messages with
  | none => cases h
  | some messages =>
      cases h
      rcases readUint32_cases hu with ⟨-, hnext, hfine⟩ | ⟨hcut, -, hfailed⟩
      · exact .container hconstructor rfl (by omega) (hfine.trans herror) hloop
      · -- a count that is cut off is read as zero, and the loop leaves the error
        rw [readUint32_zero hu hcut] at hloop
        cases hloop
        exact absurd (ht.symm.trans hfailed) (by decide)

theorem accepted_result (hu : (readUint32 s).2.Sound)
    (hposition : (readUint32 s).2.buffer.position = s.buffer.position + 4)
    (hconstructor : constructorAt s.toInput = 0xf35c6d01)
    (h : TL_rpc_result.readParamsEx (TLdeserialize requests n) requests bytes (readUint32 s).2 =
      (some (some object), t)) (ht : t.error = false) :
    Accepted requests n request bytes s object t.buffer := by
  have hw : (readUint32 s).2.After (readInt64 (readUint32 s).2).2 := Plain.after inferInstance hu
  have hrun :
    TL_rpc_result.readParamsEx (TLdeserialize requests n) requests bytes (readUint32 s).2 =
      (TLdeserialize requests n (requests (requestAt s.toInput)) (sub32 bytes 12) >>=
        TL_rpc_result.result (requestAt s.toInput)) (readInt64 (readUint32 s).2).2 := rfl
  rw [hrun] at h
  obtain ⟨new, hout⟩ :=
    meets_deserialize requests n (requests (requestAt s.toInput)) (sub32 bytes 12)
    (readInt64 (readUint32 s).2).2 _ (hw.sound hu) rfl
  rcases hinner : TLdeserialize requests n (requests (requestAt s.toInput)) (sub32 bytes 12)
    (readInt64 (readUint32 s).2).2 with ⟨_ | inner, v⟩
  · rw [bind_of_none hinner] at h
    cases h
  rw [hinner] at hout
  rw [bind_of_some hinner] at h
  cases inner with
  | none => cases h
  | some inner =>
      cases h
      have hsame : t.error = (readInt64 (readUint32 s).2).2.error := (hout.ends _ rfl).1
      rcases readInt64_cases hu with ⟨-, hnext, -⟩ | ⟨-, -, hfailed⟩
      · exact .result hconstructor rfl (by omega) (hsame.symm.trans ht) hinner
      · exact absurd (ht.symm.trans (hsame.trans hfailed)) (by decide)

/-- An object of the class store. -/
theorem accepted_of_store (hu : (readUint32 s).2.Sound)
    (hposition : (readUint32 s).2.buffer.position = s.buffer.position + 4)
    (herror : (readUint32 s).2.error = false)
    (h : TLClassStore.TLdeserialize (TLdeserialize requests n) requests bytes
      (constructorAt s.toInput)
      (readUint32 s).2 = (some (some object), t)) (ht : t.error = false) :
    Accepted requests n request bytes s object t.buffer := by
  unfold TLClassStore.TLdeserialize at h
  split at h
  · rename_i hcontainer
    exact accepted_container hu hposition herror hcontainer h ht
  rename_i hcontainer
  split at h
  · rename_i hresult
    exact accepted_result hu hposition hresult h ht
  rename_i hresult
  split at h
  · rename_i hpacked
    cases h
    exact .packed hpacked rfl
  rename_i hpacked
  rcases hclass : TLClassStore.classes.lookup (constructorAt s.toInput) with _ | readParams
  · rw [hclass] at h
    cases h
  · rw [hclass] at h
    rcases hrun : readParams (readUint32 s).2 with ⟨_ | record, v⟩
    · dsimp only at h
      rw [bind_of_some (caught_of_eq hrun)] at h
      cases h
    · dsimp only at h
      rw [bind_of_some (caught_of_eq hrun)] at h
      cases h
      exact .class hcontainer hresult hpacked hclass hrun

/-- An object that the store does not know. -/
theorem accepted_of_response (hu : (readUint32 s).2.Sound)
    (hlimit : (readUint32 s).2.buffer.limit = s.buffer.limit)
    (hposition : (readUint32 s).2.buffer.position = s.buffer.position + 4)
    (hcontainer : constructorAt s.toInput ≠ 0x73f1f8dc)
    (hresult : constructorAt s.toInput ≠ 0xf35c6d01)
    (hpacked : constructorAt s.toInput ≠ 0x3072cfa1)
    (hclass : TLClassStore.classes.lookup (constructorAt s.toInput) = none)
    (h : TLdeserialize.response request bytes (constructorAt s.toInput) none (readUint32 s).2 =
      (some (some object), t)) :
    Accepted requests n request bytes s object t.buffer := by
  cases request with
  | none => cases h
  | some request =>
      rcases hrun : request.deserializeResponse bytes (constructorAt s.toInput) (readUint32 s).2
        with
        ⟨_ | found, v⟩
      · unfold TLdeserialize.response at h
        dsimp only at h
        rw [bind_of_none hrun] at h
        cases h
      unfold TLdeserialize.response at h
      dsimp only at h
      rw [bind_of_some hrun] at h
      rcases hv : v.error with _ | _
      swap
      · rw [unlessError_of_error hv] at h
        cases h
      rw [unlessError_of_fine hv] at h
      cases h
      by_cases hraw : request = .api_request
      · have hout := response_outcome (n := n) (p := s.buffer.position) request bytes
          (constructorAt s.toInput) hu hlimit hposition
        rw [hrun] at hout
        have hmoved := hout.lands object rfl hv
        unfold RawRequest.deserializeResponse at hrun
        rw [if_pos hraw, bind_of_some (api_response_eq bytes _)] at hrun
        generalize (skip (sub32 bytes 4) _).2 = w at hrun
        cases hrun
        rw [hposition, Nat.add_sub_cancel]
        exact .api hcontainer hresult hpacked hclass (congrArg some hraw) (hmoved.1 rfl)
      · unfold RawRequest.deserializeResponse at hrun
        rw [if_neg hraw] at hrun
        rcases hrecord : request.deserializeRecord (constructorAt s.toInput) (readUint32 s).2 with
          ⟨_ | record, w⟩
        · rw [bind_of_some (caught_of_eq hrecord)] at hrun
          cases hrun
        · rw [bind_of_some (caught_of_eq hrecord)] at hrun
          cases hrun
          exact .response hcontainer hresult hpacked hclass rfl hraw hrecord

/-- Every object that is accepted is accepted in one of these ways. -/
theorem accepted_of_run (hs : s.Sound) (herror : s.error = false)
    (h : TLdeserialize requests (n + 1) request bytes s = (some (some object), t)) :
    Accepted requests n request bytes s object t.buffer := by
  have hafter : s.After (readUint32 s).2 := Plain.after inferInstance hs
  have hu := hafter.sound hs
  rw [TLdeserialize] at h
  rcases hobject : TLdeserialize.object (TLdeserialize requests n) requests request bytes (fresh s)
    with
    ⟨_ | _ | o, v⟩
  · rw [step_of_overflow hobject] at h
    cases h
  · rw [step_of_none hobject] at h
    cases h
  rw [step_of_some hobject] at h
  cases h
  rw [fresh_of_fine herror] at hobject
  rw [object_eq] at hobject
  rcases readUint32_cases hs with ⟨-, hposition, hfine⟩ | ⟨-, -, hfailed⟩
  swap
  · rw [if_pos hfailed] at hobject
    cases hobject
  replace hfine : (readUint32 s).2.error = false := hfine.trans herror
  rw [if_neg (by rw [hfine]; decide)] at hobject
  have hconstructor : (readUint32 s).1.getD 0 = constructorAt s.toInput := rfl
  rw [hconstructor] at hobject
  obtain ⟨new, -, hend⟩ := parse_outcome requests request bytes (constructorAt s.toInput)
    (meets_deserialize requests n) hu rfl hposition hfine
  rw [hobject] at hend
  have hv : v.error = false := hend object rfl
  obtain ⟨-, -, hunknown⟩ := store_outcome requests bytes (constructorAt s.toInput)
    (meets_deserialize requests n) hu rfl hposition hfine
  rcases hstore : TLClassStore.TLdeserialize (TLdeserialize requests n) requests bytes
    (constructorAt s.toInput) (readUint32 s).2 with ⟨_ | known, w⟩
  · rw [parse_of_overflow hstore] at hobject
    cases hobject
  rcases hw : w.error with _ | _
  swap
  · rw [parse_of_error hstore hw] at hobject
    cases hobject
  rw [parse_of_fine hstore hw] at hobject
  rw [hstore] at hunknown
  show Accepted requests n request bytes s object v.buffer
  cases known with
  | some known =>
      cases hobject
      exact accepted_of_store hu hposition hfine hstore hv
  | none =>
      obtain ⟨hsame, hcontainer, hresult, hpacked, hclass⟩ := hunknown rfl hw
      rw [show w = (readUint32 s).2 from hsame] at hobject
      exact accepted_of_response hu hafter.limit hposition hcontainer hresult hpacked hclass hobject

end Accepted

/-! ## Honest messages -/

/-- A message that is read without an error. -/
structure MessageRead (deserialize : Deserializer) (s : Stream) (message : TL_message)
    (t : Stream) :
    Prop where
  inside : s.Inside t
  fits : s.buffer.position + 16 ≤ s.buffer.limit
  behind : (afterHeader s).buffer.position = s.buffer.position + 16
  fine : (afterHeader s).error = false
  start : message.header.start = s.buffer.position
  bytes : message.header.bytes = statedBytes s
  stop : message.header.stop = t.buffer.position
  body : (∃ object v, deserialize none (statedBytes s) (afterHeader s) = (some (some object), v) ∧
        message = .parsed message.header object ∧ t.buffer = v.buffer) ∨
      (∃ content, (deserialize none (statedBytes s) (afterHeader s)).1 = some none ∧
        message = .unparsed message.header ⟨s.buffer.position + 16, statedBytes s, content⟩ ∧
        Relies (s.buffer.position + 16) (statedBytes s) s.buffer.limit t.buffer.position)

section Messages

variable {requests : Requests} {n : ℕ} {s t : Stream} {message : TL_message}

theorem body_none (start : ℕ) (msg_id : BitVec 64) (seqno : BitVec 32) (bytes : ℕ) (v : Stream) :
    TL_message.body start msg_id seqno bytes none v =
      (some (.unparsed
          ⟨start, msg_id, seqno, bytes,
            (skip bytes (slice v.buffer.position bytes v).2).2.buffer.position⟩
          ⟨v.buffer.position, bytes, v.range (v.buffer.position, bytes)⟩),
        (skip bytes (slice v.buffer.position bytes v).2).2) := rfl

theorem messageRead (hs : s.Sound)
    (h : TL_message.readParams (TLdeserialize requests n) s = (some message, t))
    (ht : t.error = false) :
    MessageRead (TLdeserialize requests n) s message t := by
  obtain ⟨new, hout⟩ := message_outcome (meets_deserialize requests n) hs rfl
  have hafter := after_afterHeader hs
  rw [h] at hout
  obtain ⟨hstart, hbytes, hstop, hsame⟩ := hout.header message rfl
  have hfine : (afterHeader s).error = false := hsame.symm.trans ht
  rcases header_cases hs with ⟨hfits, hbehind, -⟩ | ⟨-, -, hfailed⟩
  swap
  · exact absurd (hfine.symm.trans hfailed) (by decide)
  refine ⟨hout.toInside, hfits, hbehind, hfine, hstart, hbytes, hstop, ?_⟩
  obtain ⟨inner, hcall⟩ := meets_deserialize requests n none (statedBytes s) (afterHeader s) _
    (hafter.sound hs) rfl
  have hwhole := hout.whole message rfl hfits
  rw [readParams_eq] at h
  rcases hrun : TLdeserialize requests n none (statedBytes s) (afterHeader s) with ⟨_ | _ | object,
    v⟩
  · rw [bind_of_none hrun] at h
    cases h
  · rw [hrun] at hcall
    have hposition : v.buffer.position = s.buffer.position + 16 :=
      ((hcall.ends none rfl).2).trans hbehind
    rw [bind_of_some hrun, body_none] at h
    generalize (skip (statedBytes s) (slice v.buffer.position (statedBytes s) v).2).2 = w at h
    cases h
    exact .inr ⟨_, rfl, by rw [hposition]; rfl, hwhole.1 rfl⟩
  · rw [bind_of_some hrun] at h
    cases h
    exact .inl ⟨object, t, rfl, rfl, rfl⟩

/-- The contained objects are the honest ones, and an honest object ends where it should. -/
def Agrees (requests : Requests) (n : ℕ) : Prop :=
  ∀ request bytes s object t, Stream.Sound s → s.error = false →
    s.buffer.position + bytes ≤ s.buffer.limit →
    TLdeserialize requests n request bytes s = (some (some object), t) →
    (object.Contained s.buffer.position (s.buffer.position + bytes) ↔
        Honest requests n bytes s.toInput) ∧
      (Honest requests n bytes s.toInput →
        t.buffer.position = wireEnd requests n request bytes s.toInput)

/-- A message that ends where it says leaves the stream there. -/
theorem MessageRead.behindMessage (h : MessageRead (TLdeserialize requests n) s message t)
    (herror : s.error = false) (ht : t.error = false)
    (hend : t.buffer.position = s.buffer.position + 16 + statedBytes s) :
    t.toInput = behindMessage s.toInput := by
  have hbuffer := h.inside.buffer
  rw [hend] at hbuffer
  show t.toInput =
    Input.mk { s.buffer with position := s.buffer.position + 16 + statedBytes s } s.error
  rw [herror, ← ht, ← hbuffer]

/-- One message: it is contained exactly when it fits and its body is honest, and it then ends where
it says. -/
theorem message_agrees (h : Agrees requests n) {e : ℕ} (hs : s.Sound) (he : e ≤ s.buffer.limit)
    (hread : MessageRead (TLdeserialize requests n) s message t) :
    (message.header.stop = message.header.start + 16 + message.header.bytes ∧
        message.header.stop ≤ e ∧ message.Contained) ↔
      (s.buffer.position + 16 + statedBytes s ≤ e ∧
        ((∃ object, (TLdeserialize requests n none (statedBytes s) (afterHeader s)).1 =
            some (some object)) →
          wireEnd requests n none (statedBytes s) (afterHeader s).toInput =
              s.buffer.position + 16 + statedBytes s ∧
            Honest requests n (statedBytes s) (afterHeader s).toInput)) := by
  have hafter := after_afterHeader hs
  have hroom := hs.room
  rw [hread.start, hread.bytes, hread.stop]
  by_cases hfit : s.buffer.position + 16 + statedBytes s ≤ e
  swap
  · constructor
    · rintro ⟨hend, hle, -⟩
      omega
    · rintro ⟨hle, -⟩
      exact absurd hle hfit
  rcases hread.body with ⟨object, v, hrun, hmessage, hbuffer⟩ | ⟨content, hrun, hmessage, hrelies⟩
  · obtain ⟨hiff, hends⟩ :=
      h none (statedBytes s) (afterHeader s) object v (hafter.sound hs) hread.fine
      (by rw [hread.behind, hafter.limit]; omega) hrun
    rw [hread.behind] at hiff
    have hcontained : message.Contained ↔ object.Contained (s.buffer.position + 16)
        (s.buffer.position + 16 + statedBytes s) := by
      rw [hmessage, TL_message.Contained, hread.start, hread.bytes]
    rw [hcontained, hiff, hbuffer, hrun]
    constructor
    · rintro ⟨hend, -, hhonest⟩
      exact ⟨hfit, fun _ => ⟨(hends hhonest).symm.trans hend, hhonest⟩⟩
    · rintro ⟨-, hhonest⟩
      obtain ⟨hend, hhonest⟩ := hhonest ⟨object, rfl⟩
      have hv := (hends hhonest).trans hend
      exact ⟨hv, by omega, hhonest⟩
  · have hend : t.buffer.position = s.buffer.position + 16 + statedBytes s := by
      rcases hrelies with hrelies | ⟨hbeyond, -⟩
      · rw [hrelies, u32_of_lt (by omega)]
      · rw [u32_of_lt (by omega)] at hbeyond
        omega
    have hcontained : message.Contained := by
      rw [hmessage, TL_message.Contained, hread.start, hread.bytes]
      simp only [Slice.Between, le_refl, and_self]
    constructor
    · rintro -
      refine ⟨hfit, ?_⟩
      rintro ⟨object, hobject⟩
      rw [hrun] at hobject
      cases hobject
    · rintro -
      exact ⟨hend, by omega, hcontained⟩

/-- The loop over the messages, by induction on their number. -/
theorem loop_agrees (h : Agrees requests n) {e first : ℕ} (count index : ℕ)
    {messages : List TL_message}
    (hs : s.Sound) (herror : s.error = false) (he : e ≤ s.buffer.limit)
    (hloop : TL_msg_container.loop (TLdeserialize requests n) first index count s =
      (some (some messages), t)) :
    (TL_message.AllContained e s.buffer.position messages ↔
        HonestMessages (TLdeserialize requests n) (wireEnd requests n none)
          (Honest requests n) e count
          s.toInput) ∧
      (HonestMessages (TLdeserialize requests n) (wireEnd requests n none)
          (Honest requests n) e count
          s.toInput →
        t.buffer.position = (behindMessages count s.toInput).buffer.position) := by
  induction count generalizing s index messages with
  | zero =>
      cases hloop
      exact ⟨by simp [TL_message.AllContained, HonestMessages], fun _ => rfl⟩
  | succ count ih =>
      rcases hround : TL_msg_container.round (TLdeserialize requests n) first index s with
        ⟨_ | message, u⟩
      · rw [loop_of_overflow hround] at hloop
        cases hloop
      rcases hu : u.error with _ | _
      swap
      · rw [loop_of_error hround hu] at hloop
        cases hloop
      rw [loop_of_fine hround hu] at hloop
      rcases hrest : TL_msg_container.loop (TLdeserialize requests n) first (index + 1) count u with
        ⟨_ | _ | rest, v⟩
      · rw [hrest] at hloop
        cases hloop
      · rw [hrest] at hloop
        cases hloop
      rw [hrest] at hloop
      cases hloop
      rcases hmessage : TL_message.readParams (TLdeserialize requests n) s with ⟨_ | message', u'⟩
      · rw [round_of_none hmessage] at hround
        cases hround
      rw [round_of_some hmessage] at hround
      cases hround
      have hread := messageRead hs hmessage hu
      have hlimit : u'.buffer.limit = s.buffer.limit := hread.inside.limit
      have hone := message_agrees h hs he hread
      have hcall :
        (TLdeserialize requests n none (statedBytes s) (afterHeader (bare s.toInput))).1 =
          (TLdeserialize requests n none (statedBytes s) (afterHeader s)).1 := by
        have hbare := run_bare (m := TLdeserialize requests n none (statedBytes s))
          (fun _ => inferInstance)
        exact (hbare (afterHeader (bare s.toInput))).1.symm.trans (hbare (afterHeader s)).1
      have hsound := hread.inside.sound hs
      obtain ⟨hiff, hends⟩ :=
        ih (s := { u' with iterations := u'.iterations ++ [roundOf first index message u'.error] })
          (index + 1) ⟨hsound.wf, hsound.room⟩ hu (hlimit ▸ he) hrest
      have hunfold : HonestMessages (TLdeserialize requests n) (wireEnd requests n none)
          (Honest requests n) e (count + 1) s.toInput ↔
          (message.header.stop = message.header.start + 16 + message.header.bytes ∧
            message.header.stop ≤ e ∧ message.Contained) ∧
          HonestMessages (TLdeserialize requests n) (wireEnd requests n none)
            (Honest requests n) e count
            (behindMessage s.toInput) := by
        rw [hone, HonestMessages, and_assoc, ← hcall]
        rfl
      have hnext : message.header.stop = message.header.start + 16 + message.header.bytes →
          u'.toInput = behindMessage s.toInput := by
        intro hstop
        rw [hread.start, hread.bytes, hread.stop] at hstop
        exact hread.behindMessage herror hu hstop
      refine ⟨?_, ?_⟩
      · rw [hunfold, TL_message.AllContained]
        constructor
        · rintro ⟨-, hstop, hle, hcontained, hall⟩
          rw [hread.stop] at hall
          refine ⟨⟨hstop, hle, hcontained⟩, ?_⟩
          rw [← hnext hstop]
          exact hiff.1 hall
        · rintro ⟨⟨hstop, hle, hcontained⟩, hall⟩
          rw [← hnext hstop] at hall
          refine ⟨hread.start, hstop, hle, hcontained, ?_⟩
          rw [hread.stop]
          exact hiff.2 hall
      · intro hall
        obtain ⟨⟨hstop, -, -⟩, hall⟩ := hunfold.1 hall
        rw [behindMessages, ← hnext hstop]
        rw [← hnext hstop] at hall
        exact hends hall

end Messages

/-! ## Honest objects -/

section Objects

variable {requests : Requests} {n bytes : ℕ} {s : Stream}

/-- The bytes of a framed read lie behind its length. -/
theorem le_of_frame {i : Input} (hwf : i.buffer.Wf) (hroom : i.buffer.limit + 2 ^ 24 + 8 ≤ 2 ^ 32)
    {range : ℕ × ℕ} (h : range ∈ (Input.frame i).1) : i.buffer.position ≤ range.1 := by
  have := hwf.position_le
  have hbody : ∀ {l sl : ℕ} {j : Input}, range ∈ (Input.frameBody l sl j).1 →
      range.1 = j.buffer.position := by
    intro l sl j hj
    unfold Input.frameBody at hj
    dsimp only at hj
    generalize (if u32 (l + sl) % 4 ≠ 0 then 4 - u32 (l + sl) % 4 else u32 (l + sl) % 4) = a at hj
    split at hj
    · cases hj
    · cases hj
      rfl
  unfold Input.frame at h
  rw [u32_of_lt (by omega)] at h
  split at h
  · cases h
  rename_i hone
  rw [step_eq_advance hwf (by omega)] at h
  dsimp only at h
  split at h
  · split at h
    · cases h
    · rename_i hthree
      rw [hbody h]
      have hsum : u32 ((i.advance 1).buffer.position + 3) = i.buffer.position + 1 + 3 :=
        u32_of_lt (by show i.buffer.position + 1 + 3 < _; omega)
      show _ ≤ u32 ((i.advance 1).buffer.position + 3)
      omega
  · rw [hbody h]
    exact Nat.le_add_right _ _

theorem after_behindConstructor (hs : s.Sound) : s.After (readUint32 s).2 :=
  Plain.after inferInstance hs

theorem sound_behindConstructor (hs : s.Sound) : (readUint32 s).2.Sound :=
  (after_behindConstructor hs).sound hs

theorem honest_other (hcontainer : constructorAt s.toInput ≠ 0x73f1f8dc)
    (hresult : constructorAt s.toInput ≠ 0xf35c6d01)
    (hpacked : constructorAt s.toInput ≠ 0x3072cfa1) :
    Honest requests (n + 1) bytes s.toInput := by
  rw [Honest, if_neg hcontainer, if_neg hresult, if_neg hpacked]
  trivial

theorem container_agrees (h : Agrees requests n) (hs : s.Sound)
    (hfit : s.buffer.position + bytes ≤ s.buffer.limit) {request : Option RawRequest}
    {messages : List TL_message} {w v : Stream}
      (hconstructor : constructorAt s.toInput = 0x73f1f8dc)
    (hw : w = (readUint32 (readUint32 s).2).2)
    (hposition : w.buffer.position = s.buffer.position + 8)
    (hfine : w.error = false)
    (hloop : TL_msg_container.loop (TLdeserialize requests n) w.buffer.position 0
      (constructorAt (behindConstructor s.toInput)) w = (some (some messages), v)) :
    ((TLObject.msg_container messages).Contained s.buffer.position (s.buffer.position + bytes) ↔
        Honest requests (n + 1) bytes s.toInput) ∧
      (Honest requests (n + 1) bytes s.toInput →
        v.buffer.position = wireEnd requests (n + 1) request bytes s.toInput) := by
  have hafter : (readUint32 s).2.After w :=
    hw ▸ Plain.after inferInstance (sound_behindConstructor hs)
  have hlimit : w.buffer.limit = s.buffer.limit :=
    hafter.limit.trans (after_behindConstructor hs).limit
  have hinput : w.toInput = behindConstructor (behindConstructor s.toInput) := by rw [hw]; rfl
  obtain ⟨hiff, hends⟩ := loop_agrees h _ 0 (e := s.buffer.position + bytes)
    (hafter.sound (sound_behindConstructor hs)) hfine (hlimit ▸ hfit) hloop
  rw [hposition] at hiff
  rw [hinput] at hiff hends
  rw [TLObject.Contained, Honest, wireEnd, if_pos hconstructor, if_pos hconstructor]
  exact ⟨hiff, hends⟩

/-- A result with fewer than twelve bytes says that its object has almost `2 ^ 32`. -/
theorem result_agrees (h : Agrees requests n) (hs : s.Sound)
    (hfit : s.buffer.position + bytes ≤ s.buffer.limit) {request : Option RawRequest}
    {inner : TLObject}
    {w v : Stream} (hconstructor : constructorAt s.toInput = 0xf35c6d01)
    (hw : w = (readInt64 (readUint32 s).2).2)
    (hposition : w.buffer.position = s.buffer.position + 12)
    (hfine : w.error = false)
    (hinner : TLdeserialize requests n (requests (requestAt s.toInput)) (sub32 bytes 12) w =
      (some (some inner), v)) :
    ((TLObject.rpc_result (requestAt s.toInput) inner).Contained s.buffer.position
          (s.buffer.position + bytes) ↔ Honest requests (n + 1) bytes s.toInput) ∧
      (Honest requests (n + 1) bytes s.toInput →
        v.buffer.position = wireEnd requests (n + 1) request bytes s.toInput) := by
  have hroom := hs.room
  have hafter : (readUint32 s).2.After w :=
    hw ▸ Plain.after inferInstance (sound_behindConstructor hs)
  have hlimit : w.buffer.limit = s.buffer.limit :=
    hafter.limit.trans (after_behindConstructor hs).limit
  have hinput : w.toInput = behindRequest s.toInput := by rw [hw]; rfl
  have hcontainer : constructorAt s.toInput ≠ 0x73f1f8dc := by
    rw [hconstructor]
    decide
  rw [TLObject.Contained, Honest, wireEnd, if_neg hcontainer, if_pos hconstructor,
    if_neg hcontainer, if_pos hconstructor, Nat.add_sub_cancel_left]
  by_cases hbytes : 12 ≤ bytes
  · have hsub : sub32 bytes 12 = bytes - 12 := by
      unfold sub32 u32
      omega
    have hend : s.buffer.position + 12 + (bytes - 12) = s.buffer.position + bytes := by omega
    rw [hsub] at hinner ⊢
    obtain ⟨hiff, hends⟩ := h _ _ w inner v (hafter.sound (sound_behindConstructor hs)) hfine
      (by rw [hposition, hlimit]; omega) hinner
    rw [hposition, hinput] at hiff
    rw [hinput] at hends
    exact ⟨⟨fun hc => ⟨hbytes, hiff.1 hc.2⟩, fun hh => ⟨hend.le, hiff.2 hh.2⟩⟩, fun hh =>
      hends hh.2⟩
  · have hsub : sub32 bytes 12 = bytes + 2 ^ 32 - 12 := by
      unfold sub32 u32
      omega
    rw [hsub]
    refine ⟨⟨fun hc => ?_, fun hh => absurd hh.1 hbytes⟩, fun hh => absurd hh.1 hbytes⟩
    have := hc.1
    omega

theorem packed_agrees (hs : s.Sound) {request : Option RawRequest} {packed_data : Option Slice}
    {v : Stream} (hconstructor : constructorAt s.toInput = 0x3072cfa1)
    (hrun : readByteBuffer (readUint32 s).2 = (some packed_data, v)) :
    ((TLObject.gzip_packed packed_data).Contained s.buffer.position (s.buffer.position + bytes) ↔
        Honest requests (n + 1) bytes s.toInput) ∧
      (Honest requests (n + 1) bytes s.toInput →
        v.buffer.position = wireEnd requests (n + 1) request bytes s.toInput) := by
  have hu := sound_behindConstructor hs
  have hle := (after_behindConstructor hs).position_le
  have hcontainer : constructorAt s.toInput ≠ 0x73f1f8dc := by
    rw [hconstructor]
    decide
  have hresult : constructorAt s.toInput ≠ 0xf35c6d01 := by
    rw [hconstructor]
    decide
  rw [TLObject.Contained, Honest, wireEnd, if_neg hcontainer, if_neg hresult,
    if_pos hconstructor, if_neg hcontainer, if_neg hresult, if_pos hconstructor]
  cases hrun
  refine ⟨⟨?_, ?_⟩, fun _ => rfl⟩
  · intro hall range hrange
    exact (hall ⟨range.1, range.2, _⟩ (Option.mem_map_of_mem _ hrange)).2
  · intro hall slice hslice
    obtain ⟨range, hrange, rfl⟩ := Option.mem_map.1 hslice
    exact ⟨hle.trans (le_of_frame hu.wf hu.room hrange), hall range hrange⟩

/-- Every call agrees, by induction on the room that is left. -/
theorem agrees (requests : Requests) (n : ℕ) : Agrees requests n := by
  induction n with
  | zero =>
      intro request bytes s object t _ _ _ h
      cases h
  | succ n ih =>
      intro request bytes s object t hs herror hfit h
      have hroom := hs.room
      have haccepted := accepted_of_run hs herror h
      generalize t.buffer = b at haccepted ⊢
      cases haccepted with
      | container hconstructor hw hposition hfine hloop =>
          exact container_agrees ih hs hfit hconstructor hw hposition hfine hloop
      | result hconstructor hw hposition hfine hinner =>
          exact result_agrees ih hs hfit hconstructor hw hposition hfine hinner
      | packed hconstructor hrun => exact packed_agrees hs hconstructor hrun
      | @«class» record readParams v hcontainer hresult hpacked hclass hrun =>
          refine ⟨⟨fun _ => honest_other hcontainer hresult hpacked,
            fun _ => by simp [TLObject.Contained]⟩,
            fun _ => ?_⟩
          have hbare := (run_bare (plain_classes hclass).blind (readUint32 s).2).2
          rw [hrun] at hbare
          rw [wireEnd, if_neg hcontainer, if_neg hresult, if_neg hpacked, recordEnd, hclass]
          exact congrArg (fun i : Input => i.buffer.position) hbare.symm
      | @api content v hcontainer hresult hpacked hclass hrequest hrelies =>
          refine ⟨⟨fun _ => honest_other hcontainer hresult hpacked, fun _ => ?_⟩, fun _ => ?_⟩
          · simp [TLObject.Contained, Slice.Between]
          · rw [wireEnd, if_neg hcontainer, if_neg hresult, if_neg hpacked, recordEnd, hclass,
              hrequest]
            dsimp only
            rw [responseEnd, if_pos rfl]
            rcases hrelies with hend | ⟨hbeyond, -⟩
            · rw [hend, u32_of_lt (by omega)]
            · rw [u32_of_lt (by omega)] at hbeyond
              omega
      | @response record raw v hcontainer hresult hpacked hclass hrequest hraw hrun =>
          refine ⟨⟨fun _ => honest_other hcontainer hresult hpacked,
            fun _ => by simp [TLObject.Contained]⟩,
            fun _ => ?_⟩
          have hbare :=
            (run_bare (plain_response raw (constructorAt s.toInput)).blind (readUint32 s).2).2
          rw [hrun] at hbare
          rw [wireEnd, if_neg hcontainer, if_neg hresult, if_neg hpacked, recordEnd, hclass,
            hrequest]
          dsimp only
          rw [responseEnd, if_neg hraw]
          exact congrArg (fun i : Input => i.buffer.position) hbare.symm

/-- Of a message with `bytes` bytes from the position on: what `TLdeserialize` accepts is contained
if and only if the lengths inside are honest whenever it accepts. -/
theorem deserialize_contained_iff (requests : Requests) (n bytes : ℕ) (s : Stream) (hs : s.Sound)
    (herror : s.error = false) (hfit : s.buffer.position + bytes ≤ s.buffer.limit) :
    (∀ object, (TLdeserialize requests n none bytes s).1 = some (some object) →
        object.Contained s.buffer.position (s.buffer.position + bytes)) ↔
      ((∃ object, (TLdeserialize requests n none bytes s).1 = some (some object)) →
        Honest requests n bytes s.toInput) := by
  have hagrees : ∀ object, (TLdeserialize requests n none bytes s).1 = some (some object) →
      (object.Contained s.buffer.position (s.buffer.position + bytes) ↔
        Honest requests n bytes s.toInput) := by
    intro object hobject
    exact (agrees requests n none bytes s object _ hs herror hfit (Prod.ext hobject rfl)).1
  constructor
  · rintro hall ⟨object, hobject⟩
    exact (hagrees object hobject).1 (hall object hobject)
  · intro hhonest object hobject
    exact (hagrees object hobject).2 (hhonest ⟨object, hobject⟩)

end Objects

/-- The first message of a container: where it starts, how long it says it is, and where the parser
stands after it. -/
def TLObject.firstMessage : TLObject → Option (ℕ × ℕ × ℕ)
  | .msg_container (message :: _) =>
      some (message.header.start, message.header.bytes, message.header.stop)
  | _ => none

theorem firstMessage_of_contained {p e start bytes stop : ℕ} {object : TLObject}
    (h : object.Contained p e) (hfirst : object.firstMessage = some (start, bytes, stop)) :
    stop = start + 16 + bytes := by
  cases object with
  | msg_container messages =>
      cases messages with
      | nil => cases hfirst
      | cons message rest =>
          cases hfirst
          rw [TLObject.Contained, TL_message.AllContained] at h
          exact h.2.1
  | _ => cases hfirst

/-- A container with one message of four bytes that says it has a hundred. -/
def boasting : Stream :=
  { buffer := NativeByteBuffer.sliced
      ([0xdc, 0xf8, 0xf1, 0x73] ++ [1, 0, 0, 0] ++ [1, 0, 0, 0, 0, 0, 0, 0] ++ [1, 0, 0, 0] ++
        [100, 0, 0, 0] ++ [0, 0, 0, 0]) }

/-- It is accepted, with a body that reaches beyond the end of the frame. -/
theorem deserialize_boasting :
    ¬ ∀ (requests : Requests) (n bytes : ℕ) (s : Stream), s.Sound → s.error = false →
      s.buffer.position + bytes ≤ s.buffer.limit →
      ∀ object, (TLdeserialize requests n none bytes s).1 = some (some object) →
        object.Contained s.buffer.position (s.buffer.position + bytes) := by
  intro h
  have hrun : (TLdeserialize (fun _ => none) 2 none 28 boasting).1.map
      (Option.map TLObject.firstMessage) =
      some (some (some (8, 100, 24))) := by
    decide +kernel
  obtain ⟨found, hfound, hmap⟩ := Option.map_eq_some_iff.1 hrun
  obtain ⟨object, rfl, hfirst⟩ := Option.map_eq_some_iff.1 hmap
  have hsound : boasting.Sound := ⟨NativeByteBuffer.wf_sliced (by decide), by decide⟩
  have hcontained := h (fun _ => none) 2 28 boasting hsound rfl (by decide) object hfound
  exact absurd (firstMessage_of_contained hcontained hfirst) (by decide)

/-- A container with two honest messages: four zero bytes, which are no object, and a pong. -/
def modest : Stream :=
  { buffer := NativeByteBuffer.sliced
      ([0xdc, 0xf8, 0xf1, 0x73] ++ [2, 0, 0, 0] ++ [1, 0, 0, 0, 0, 0, 0, 0] ++ [1, 0, 0, 0] ++
        [4, 0, 0, 0] ++ [0, 0, 0, 0] ++ [5, 0, 0, 0, 0, 0, 0, 0] ++ [2, 0, 0, 0] ++ [20, 0, 0, 0] ++
        [0xc5, 0x73, 0x77, 0x34] ++ [8, 0, 0, 0, 0, 0, 0, 0] ++ [7, 0, 0, 0, 0, 0, 0, 0]) }

theorem modest_honest : Honest (fun _ => none) 2 64 modest.toInput := by
  have hconstructor : constructorAt modest.toInput = 0x73f1f8dc := by decide +kernel
  have hcount : constructorAt (behindConstructor modest.toInput) = 2 := by decide +kernel
  rw [Honest, if_pos hconstructor, hcount]
  refine ⟨by decide +kernel, ?_, by decide +kernel, fun _ => ⟨by decide +kernel, ?_⟩, trivial⟩
  · rintro ⟨object, hobject⟩
    have hnone : (TLdeserialize (fun _ => none) 1 none
        (statedBytes (bare (behindConstructor (behindConstructor modest.toInput))))
        (afterHeader (bare (behindConstructor (behindConstructor modest.toInput))))).1.map
          Option.isSome = some false := by
      decide +kernel
    rw [hobject] at hnone
    cases hnone
  · exact honest_other (by decide +kernel) (by decide +kernel) (by decide +kernel)

def TL_message.isParsed : TL_message → Bool
  | .parsed _ _ => true
  | .unparsed _ _ => false

/-- Which messages of a container have been parsed. -/
def TLObject.parsedMessages : TLObject → List Bool
  | .msg_container messages => messages.map TL_message.isParsed
  | _ => []

/-- It is accepted and contained. -/
theorem deserialize_modest :
    ∃ object, (TLdeserialize (fun _ => none) 2 none 64 modest).1 = some (some object) ∧
      object.parsedMessages = [false, true] ∧ object.Contained 0 64 := by
  have hsound : modest.Sound := ⟨NativeByteBuffer.wf_sliced (by decide), by decide⟩
  have hrun : (TLdeserialize (fun _ => none) 2 none 64 modest).1.map
      (Option.map TLObject.parsedMessages) =
      some (some [false, true]) := by
    decide +kernel
  obtain ⟨found, hfound, hmap⟩ := Option.map_eq_some_iff.1 hrun
  obtain ⟨object, rfl, hparsed⟩ := Option.map_eq_some_iff.1 hmap
  refine ⟨object, hfound, hparsed, ?_⟩
  apply (deserialize_contained_iff (fun _ => none) 2 64 modest hsound rfl (by decide)).2 _ object
    hfound
  intro _
  exact modest_honest

end Mtproto.Scheme
