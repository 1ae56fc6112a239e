import Mtproto.Scheme.Progress

/-!
# What a failed parse leaves

`ConnectionsManager::TLdeserialize` remembers the position and goes back to it when it has no object
to return.  Everything that it calls moves the position only, and not beyond the limit, so that
going back restores the buffer.  No more than a position inside the limit is needed for that: where
a sum wraps around, the position moves back, but it stays inside.
-/

namespace Mtproto.Scheme

open Lib Lib.Interruptible Tgnet Bytes Scan

/-! ## The position moves inside the limit -/

/-- From a position inside the limit only the position moves, and it stays inside. -/
def Stream.Held (s t : Stream) : Prop := s.buffer.position ≤ s.buffer.limit → s.Inside t

theorem Stream.Inside.position_le {s t : Stream} (h : s.Inside t) :
    t.buffer.position ≤ t.buffer.limit := by
  rw [h.limit]
  exact h.le_limit

instance : Std.Refl Stream.Held := ⟨fun _ inside => ⟨rfl, inside⟩⟩

instance : IsTrans Stream Stream.Held :=
  ⟨fun _ _ _ first second inside => (first inside).trans (second (first inside).position_le)⟩

instance held_bind {α β : Type} {m : Scan α} {f : α → Scan β} [Moves Stream.Held m]
    [∀ a, Moves Stream.Held (f a)] : Moves Stream.Held (m >>= f) := moves_bind

/-- A reader that moves the position only, and not beyond the limit. -/
def Holds {α : Type} (read : Reader α) : Prop :=
  ∀ s : Input, s.buffer.position ≤ s.buffer.limit →
    (read s).2.buffer = { s.buffer with position := (read s).2.buffer.position } ∧
      (read s).2.buffer.position ≤ s.buffer.limit

section Readers

variable {α : Type}

theorem held_scan {look : Input → ℕ} {read : Reader α} (holds : Holds read) :
    Moves Stream.Held (scan look read) := by
  constructor
  intro s inside
  obtain ⟨buffer, le_limit⟩ := holds s.toInput inside
  exact ⟨buffer, le_limit⟩

theorem holds_word (width : ℕ) : Holds (Input.word width) := by
  intro s inside
  unfold Input.word
  split
  · exact ⟨rfl, inside⟩
  · exact ⟨rfl, Nat.not_lt.1 ‹_›⟩

theorem holds_readInt32 : Holds Input.readInt32 := fun s => holds_word 4 s

theorem holds_readInt64 : Holds Input.readInt64 := fun s => holds_word 8 s

theorem holds_readBool : Holds Input.readBool := by
  intro s inside
  have first := holds_readInt32 s inside
  unfold Input.readBool
  rcases read : Input.readInt32 s with ⟨c, t⟩
  rw [read] at first
  dsimp only
  split
  · exact first
  · split
    · exact first
    · exact first

/-- The sum that is compared with the limit is the position that the reader moves to. -/
theorem holds_frameBody (l sl : ℕ) : Holds (Input.frameBody l sl) := by
  intro s inside
  unfold Input.frameBody
  dsimp only
  generalize (if u32 (l + sl) % 4 ≠ 0 then 4 - u32 (l + sl) % 4 else u32 (l + sl) % 4) = a
  split
  · exact ⟨rfl, inside⟩
  · refine ⟨rfl, ?_⟩
    show u32 (s.buffer.position + (l + a)) ≤ s.buffer.limit
    rw [← Nat.add_assoc]
    exact Nat.not_lt.1 ‹_›

theorem holds_frame : Holds Input.frame := by
  intro s inside
  unfold Input.frame
  split
  · exact ⟨rfl, inside⟩
  have one : (s.step 1).buffer.position ≤ s.buffer.limit := Nat.not_lt.1 ‹_›
  dsimp only
  split
  · split
    · exact ⟨rfl, one⟩
    · have three : ((s.step 1).step 3).buffer.position ≤ s.buffer.limit := Nat.not_lt.1 ‹_›
      exact holds_frameBody _ 4 ((s.step 1).step 3) three
  · exact holds_frameBody _ 1 (s.step 1) one

/-- The subtraction of `remaining` does not wrap around inside the limit. -/
theorem holds_readBytes (length : ℕ) : Holds (Input.readBytes length) := by
  intro s inside
  unfold Input.readBytes NativeByteBuffer.remaining
  by_cases long : length > u32 (s.buffer.limit + 2 ^ 32 - s.buffer.position)
  · rw [if_pos long]
    exact ⟨rfl, inside⟩
  · rw [if_neg long]
    refine ⟨rfl, ?_⟩
    show u32 (s.buffer.position + length) ≤ s.buffer.limit
    unfold u32 at long ⊢
    omega

theorem holds_readString : Holds Input.readString := fun s => holds_frame s

theorem holds_readByteArray : Holds Input.readByteArray := fun s => holds_frame s

theorem holds_frameSlice : Holds Scan.frameSlice := fun s => holds_frame s

instance : Moves Stream.Held readInt32 := held_scan holds_readInt32

instance : Moves Stream.Held readUint32 := held_scan (holds_word 4)

instance : Moves Stream.Held readInt64 := held_scan holds_readInt64

instance : Moves Stream.Held readBool := held_scan holds_readBool

instance : Moves Stream.Held readString := held_scan holds_readString

instance : Moves Stream.Held readByteArray := held_scan holds_readByteArray

instance (length : ℕ) : Moves Stream.Held (readBytes length) := held_scan (holds_readBytes length)

instance : Moves Stream.Held readByteBuffer := held_scan holds_frameSlice

instance : Moves Stream.Held Scan.position := ⟨fun s => Std.Refl.refl s⟩

instance : Moves Stream.Held Scan.limit := ⟨fun s => Std.Refl.refl s⟩

instance : Moves Stream.Held Scan.error := ⟨fun s => Std.Refl.refl s⟩

instance (value : Bool) : Moves Stream.Held (setError value) := ⟨fun _ inside => ⟨rfl, inside⟩⟩

instance : Moves Stream.Held (failed : Scan α) := ⟨fun _ inside => ⟨rfl, inside⟩⟩

instance (it : Iteration) : Moves Stream.Held (record it) := ⟨fun _ inside => ⟨rfl, inside⟩⟩

instance (offset length : ℕ) : Moves Stream.Held (slice offset length) :=
  ⟨fun _ inside => ⟨rfl, inside⟩⟩

/-- A position beyond the limit is ignored. -/
instance (p : ℕ) : Moves Stream.Held (setPosition p) := by
  constructor
  intro s inside
  unfold setPosition NativeByteBuffer.setPosition
  dsimp only
  split
  · exact ⟨rfl, inside⟩
  · exact ⟨rfl, Nat.not_lt.1 ‹_›⟩

/-- A sum beyond the limit is ignored, and a sum that has wrapped around is inside it. -/
instance (length : ℕ) : Moves Stream.Held (skip length) := by
  constructor
  intro s inside
  unfold skip
  dsimp only
  split
  · exact ⟨rfl, inside⟩
  · exact ⟨rfl, Nat.not_lt.1 ‹_›⟩

instance {present : Prop} [Decidable present] {m : Scan α} [Moves Stream.Held m] :
    Moves Stream.Held (flagged present m) := by
  unfold flagged
  infer_instance

instance {body : ℕ → Scan α} [∀ i, Moves Stream.Held (body i)] (i n : ℕ) :
    Moves Stream.Held (collect body i n) := by
  induction n generalizing i with
  | zero =>
      unfold collect
      infer_instance
  | succ n ih =>
      have rest := ih (i + 1)
      unfold collect
      infer_instance

end Readers

/-! ## The parsers -/

section Parsers

variable {α : Type}

instance (c : Prop) [Decidable c] : Moves Stream.Held (check c) := by
  unfold check
  infer_instance

instance : Moves Stream.Held vectorMagic := by
  unfold vectorMagic
  infer_instance

instance : Moves Stream.Held stopOnError := by
  unfold stopOnError
  infer_instance

instance {element : Scan α} [Moves Stream.Held element] :
    Moves Stream.Held (signedVector element) := by
  unfold signedVector
  infer_instance

instance : Moves Stream.Held (unknown : Scan (Option α)) := by
  unfold unknown
  infer_instance

instance {expected constructor : ℕ} {readParams : Scan Record} [Moves Stream.Held readParams] :
    Moves Stream.Held (expecting expected constructor readParams) := by
  unfold expecting
  infer_instance

instance : Moves Stream.Held TL_future_salts.round := by
  unfold TL_future_salts.round TL_future_salt.readParams
  infer_instance

/-- The classes of the store: each of them is made of reads. -/
theorem held_classes {constructor : ℕ} {readParams : Scan Record}
    (h : TLClassStore.classes.lookup constructor = some readParams) :
    Moves Stream.Held readParams := by
  have hmem := TLClassStore.mem_of_lookup h
  simp only [TLClassStore.classes, List.mem_cons, Prod.mk.injEq, List.not_mem_nil, or_false] at hmem
  rcases hmem with h | h | h | h | h | h | h | h | h | h | h | h | h | h | h <;>
    · rw [h.2]
      try simp only [TL_msgs_ack.readParams, TL_pong.readParams, TL_new_session_created.readParams,
        MsgsStateInfo.readParams, TL_bad_msg_notification.readParams, TL_bad_server_salt.readParams,
        TL_msg_detailed_info.readParams, TL_msg_new_detailed_info.readParams, TL_error.readParams,
        TL_rpc_error.readParams, TL_rpc_req_error.readParams, TL_future_salts.readParams,
        longVector, TL_destroy_session_ok.readParams, TL_destroy_session_none.readParams]
      infer_instance

instance : Moves Stream.Held TL_dcOption.TLdeserialize := by
  unfold TL_dcOption.TLdeserialize
  infer_instance

instance : Moves Stream.Held TL_disabledFeature.TLdeserialize := by
  unfold TL_disabledFeature.TLdeserialize
  infer_instance

instance : Moves Stream.Held TL_cdnPublicKey.TLdeserialize := by
  unfold TL_cdnPublicKey.TLdeserialize
  infer_instance

instance : Moves Stream.Held TL_config.readParams := by
  unfold TL_config.readParams
  infer_instance

instance : Moves Stream.Held UserStatus.TLdeserialize := by
  unfold UserStatus.TLdeserialize
  infer_instance

instance : Moves Stream.Held FileLocation.TLdeserialize := by
  unfold FileLocation.TLdeserialize
  infer_instance

instance : Moves Stream.Held UserProfilePhoto.TLdeserialize := by
  unfold UserProfilePhoto.TLdeserialize
  infer_instance

instance : Moves Stream.Held TL_user.readParams := by
  unfold TL_user.readParams
  infer_instance

instance : Moves Stream.Held User.TLdeserialize := by
  unfold User.TLdeserialize
  infer_instance

instance : Moves Stream.Held storage_FileType.TLdeserialize := by
  unfold storage_FileType.TLdeserialize
  infer_instance

instance : Moves Stream.Held longVector := by
  unfold longVector
  infer_instance

instance : Moves Stream.Held TL_resPQ.readParams := by
  unfold TL_resPQ.readParams
  infer_instance

instance (constructor : ℕ) : Moves Stream.Held (Server_DH_Params.TLdeserialize constructor) := by
  unfold Server_DH_Params.TLdeserialize TL_server_DH_params_fail.readParams
    TL_server_DH_params_ok.readParams
  infer_instance

instance (constructor : ℕ) :
    Moves Stream.Held (Set_client_DH_params_answer.TLdeserialize constructor) := by
  unfold Set_client_DH_params_answer.TLdeserialize TL_dh_gen_retry.readParams
    TL_dh_gen_fail.readParams
    TL_dh_gen_ok.readParams
  infer_instance

/-- The responses to the requests. -/
theorem held_response (request : RawRequest) (constructor : ℕ) :
    Moves Stream.Held (request.deserializeRecord constructor) := by
  cases request with
  | _ =>
      simp only [RawRequest.deserializeRecord, TL_cdnConfig.readParams,
        TL_auth_exportedAuthorization.readParams, TL_auth_authorization.readParams,
        Bool.TLdeserialize, TL_future_salts.readParams, RpcDropAnswer.TLdeserialize,
        TL_rpc_answer_dropped.readParams, TL_pong.readParams, TL_upload_file.readParams]
      infer_instance

end Parsers

/-! ## The functions that call each other -/

instance (bytes : ℕ) : Moves Stream.Held (TL_api_response.readParamsEx bytes) := by
  unfold TL_api_response.readParamsEx
  infer_instance

instance (bytes constructor : ℕ) (request : RawRequest) :
    Moves Stream.Held (request.deserializeResponse bytes constructor) := by
  have response := held_response request constructor
  unfold RawRequest.deserializeResponse
  infer_instance

instance {start : ℕ} {msg_id : BitVec 64} {seqno : BitVec 32} {bytes : ℕ}
    {object : Option TLObject} :
    Moves Stream.Held (TL_message.body start msg_id seqno bytes object) := by
  cases object with
  | none =>
      unfold TL_message.body
      infer_instance
  | some object =>
      unfold TL_message.body
      infer_instance

instance {req_msg_id : BitVec 64} {object : Option TLObject} :
    Moves Stream.Held (TL_rpc_result.result req_msg_id object) := by
  cases object with
  | none =>
      unfold TL_rpc_result.result
      infer_instance
  | some object =>
      unfold TL_rpc_result.result
      infer_instance

instance {request : Option RawRequest} {bytes constructor : ℕ} {object : Option TLObject} :
    Moves Stream.Held (TLdeserialize.response request bytes constructor object) := by
  cases object with
  | none =>
      cases request with
      | none =>
          unfold TLdeserialize.response
          infer_instance
      | some request =>
          unfold TLdeserialize.response unlessError
          infer_instance
  | some object =>
      unfold TLdeserialize.response
      infer_instance

instance {p : ℕ} {object : Option TLObject} :
    Moves Stream.Held (TLdeserialize.restore p object) := by
  unfold TLdeserialize.restore
  infer_instance

section Recursion

variable {deserialize : Deserializer} {requests : Requests}
variable [∀ request bytes, Moves Stream.Held (deserialize request bytes)]

instance : Moves Stream.Held (TL_message.readParams deserialize) := by
  unfold TL_message.readParams
  infer_instance

instance {first index n : ℕ} :
    Moves Stream.Held (TL_msg_container.loop deserialize first index n) := by
  induction n generalizing index with
  | zero =>
      unfold TL_msg_container.loop
      infer_instance
  | succ n ih =>
      have rest := @ih (index + 1)
      unfold TL_msg_container.loop TL_msg_container.round
      infer_instance

instance {bytes constructor : ℕ} :
    Moves Stream.Held (TLClassStore.TLdeserialize deserialize requests bytes constructor) := by
  unfold TLClassStore.TLdeserialize
  split
  · unfold TL_msg_container.readParams
    infer_instance
  · split
    · unfold TL_rpc_result.readParamsEx
      infer_instance
    · split
      · unfold TL_gzip_packed.readParams
        infer_instance
      · split
        · rename_i known
          have held := held_classes known
          infer_instance
        · infer_instance

instance {request : Option RawRequest} {bytes : ℕ} :
    Moves Stream.Held (TLdeserialize.object deserialize requests request bytes) := by
  unfold TLdeserialize.object TLdeserialize.parse
  infer_instance

/-- One call with any function for what is inside: without an object the buffer is as it was. -/
theorem step_restores {request : Option RawRequest} {bytes : ℕ} {s t : Stream}
    (inside : s.buffer.position ≤ s.buffer.limit)
    (run : TLdeserialize.step deserialize requests request bytes s = (some none, t)) :
    t.buffer = s.buffer := by
  have hstep : TLdeserialize.step deserialize requests request bytes s =
      (TLdeserialize.object deserialize requests request bytes >>= fun object => do
        TLdeserialize.restore s.buffer.position object
        setError s.error
        pure object) { s with error := false } := rfl
  have moves : Stream.Held { s with error := false }
      (TLdeserialize.object deserialize requests request bytes { s with error := false }).2 :=
    Moves.moves _
  rw [hstep] at run
  rcases parsed : TLdeserialize.object deserialize requests request bytes { s with error := false }
    with
    ⟨_ | object, u⟩
  · rw [bind_of_none parsed] at run
    cases run
  · rw [parsed] at moves
    rw [bind_of_some parsed] at run
    cases object with
    | some object => cases run
    | none =>
        cases run
        have held : Stream.Inside { s with error := false } u := moves inside
        show u.buffer.setPosition s.buffer.position = s.buffer
        rw [NativeByteBuffer.setPosition, if_neg (by rw [held.limit]; exact Nat.not_lt.2 inside),
          held.buffer]

end Recursion

/-- However the calls nest, they move the position only, and not beyond the limit. -/
instance held_deserialize {requests : Requests} {n : ℕ} {request : Option RawRequest} {bytes : ℕ} :
    Moves Stream.Held (TLdeserialize requests n request bytes) := by
  induction n generalizing request bytes with
  | zero =>
      unfold TLdeserialize
      infer_instance
  | succ n ih =>
      have inner := fun request bytes => @ih request bytes
      unfold TLdeserialize TLdeserialize.step
      infer_instance

/-! ## A parse that fails -/

/-- The raw message whose constructor is next. -/
def Stream.raw (s : Stream) (bytes : ℕ) : Slice :=
  ⟨s.buffer.position, bytes, s.range (s.buffer.position, bytes)⟩

section Failing

variable {requests : Requests} {n : ℕ} {s : Stream}

theorem restored {request : Option RawRequest} {bytes : ℕ}
    (inside : s.buffer.position ≤ s.buffer.limit)
    (null : (TLdeserialize requests n request bytes s).1 = some none) :
    (TLdeserialize requests n request bytes s).2.buffer = s.buffer := by
  cases n with
  | zero => cases null
  | succ n => exact step_restores inside (Prod.ext null rfl)

theorem held_afterHeader (s : Stream) : s.Held (afterHeader s) := by
  have first : s.Held (readInt64 s).2 := Moves.moves s
  have second : (readInt64 s).2.Held (readInt32 (readInt64 s).2).2 := Moves.moves _
  have third : (readInt32 (readInt64 s).2).2.Held (afterHeader s) := Moves.moves _
  exact IsTrans.trans _ _ _ (IsTrans.trans _ _ _ first second) third

theorem raw_of_body {start bytes : ℕ} {msg_id : BitVec 64} {seqno : BitVec 32} {header : Header}
    {body : Slice}
    {t : Stream}
    (run : (TL_message.body start msg_id seqno bytes none t).1 = some (.unparsed header body)) :
    body = t.raw header.bytes := by
  cases run
  rfl

/-- What is kept of a body that could not be parsed. -/
theorem unparsed_eq {header : Header} {body : Slice} (inside : s.buffer.position ≤ s.buffer.limit)
    (run : (TL_message.readParams (TLdeserialize requests n) s).1 = some (.unparsed header body)) :
    body = (afterHeader s).raw header.bytes := by
  have behind := (held_afterHeader s inside).position_le
  rw [readParams_eq] at run
  rcases parsed : TLdeserialize requests n none (statedBytes s) (afterHeader s) with ⟨_ | object, t⟩
  · rw [bind_of_none parsed] at run
    cases run
  · rw [bind_of_some parsed] at run
    cases object with
    | some object => cases run
    | none =>
        have buffer : t.buffer = (afterHeader s).buffer := by
          have := restored behind (congrArg Prod.fst parsed)
          rwa [parsed] at this
        rw [raw_of_body run]
        simp only [Stream.raw, Input.range, buffer]

end Failing

/-- A parse that fails leaves the buffer as it was, however deep in the object it fails.  So the
buffer that is handed on stands at the constructor, and so does what a container keeps of a message
that could not be parsed. -/
theorem deserialize_restores (requests : Requests) (n : ℕ) (s : Stream)
    (inside : s.buffer.position ≤ s.buffer.limit) :
    (∀ request bytes, (TLdeserialize requests n request bytes s).1 = some none →
        (TLdeserialize requests n request bytes s).2.buffer = s.buffer) ∧
      ∀ header body,
        (TL_message.readParams (TLdeserialize requests n) s).1 = some (.unparsed header body) →
          body = (afterHeader s).raw header.bytes :=
  ⟨fun _ _ null => restored inside null, fun _ _ run => unparsed_eq inside run⟩

/-- A container that says that it has two messages.  The parser does not know the first one, and of
the second one there is half a header. -/
def cutShort : Stream :=
  { buffer := NativeByteBuffer.sliced
      ([0xdc, 0xf8, 0xf1, 0x73] ++ [2, 0, 0, 0] ++ [1, 0, 0, 0, 0, 0, 0, 0] ++ [1, 0, 0, 0] ++
        [4, 0, 0, 0] ++ [0, 0, 0, 0] ++ [5, 0, 0, 0, 0, 0, 0, 0]) }

theorem deserialize_cutShort :
    (TLdeserialize (fun _ => none) 2 none 36 cutShort).1.map Option.isSome = some false ∧
      (TLdeserialize (fun _ => none) 2 none 36 cutShort).2.buffer = cutShort.buffer := by
  have fails : (TLdeserialize (fun _ => none) 2 none 36 cutShort).1.map Option.isSome =
      some false := by
    decide +kernel
  refine ⟨fails, ?_⟩
  obtain ⟨object, run, null⟩ := Option.map_eq_some_iff.1 fails
  obtain rfl : object = none := by simpa using null
  exact (deserialize_restores (fun _ => none) 2 cutShort (by decide)).1 none 36 run

end Mtproto.Scheme
