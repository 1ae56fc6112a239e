import Mtproto.Scheme.Objects

/-!
# Parsing a message

`ConnectionsManager::TLdeserialize` and the three functions it is recursive with: the class store,
the container and its messages, and the result of a request.  The calls nest on the stack of the
thread, and nothing bounds how deep: `TLdeserialize requests n` is the function with room for `n`
calls, cut short when there is no more.  `requests` gives the running request with a message id.
-/

namespace Mtproto.Scheme

open Lib Lib.Interruptible Tgnet Scan

/-- The requests that can be pending: those of the application, which keep the bytes of their
response, those that the client sends itself, and those of a handshake. -/
inductive RawRequest where
  | api_request
  | help_getConfig
  | help_getCdnConfig
  | auth_exportAuthorization
  | auth_importAuthorization
  | auth_bindTempAuthKey
  | get_future_salts
  | rpc_drop_answer
  | ping
  | upload_getFile
  | req_pq
  | req_pq_multi
  | req_DH_params
  | set_client_DH_params
deriving DecidableEq, Repr

/-- `getRequestWithMessageId`. -/
abbrev Requests := BitVec 64 → Option RawRequest

/-- A function that parses an object, given the request it answers and its length. -/
abbrev Deserializer := Option RawRequest → ℕ → Scan (Option TLObject)

/-- The difference of two `uint32_t`. -/
def sub32 (a b : ℕ) : ℕ := u32 (a + 2 ^ 32 - b)

/-! ## Functions of the source -/

def TL_gzip_packed.readParams : Scan (Option TLObject) := do
  let packed_data ← readByteBuffer
  pure (some (.gzip_packed packed_data))

/-- The response begins with the constructor that has just been read. -/
def TL_api_response.readParamsEx (bytes : ℕ) : Scan TLObject := do
  let p ← position
  let response ← slice (p - 4) bytes
  skip (sub32 bytes 4)
  pure (.api_response response)

/-- The responses that are parsed. -/
def RawRequest.deserializeRecord (constructor : ℕ) : RawRequest → Scan Record
  | .api_request => failed
  | .help_getConfig => expecting 0x5c5168f0 constructor TL_config.readParams
  | .help_getCdnConfig => expecting 0x5725e40a constructor TL_cdnConfig.readParams
  | .auth_exportAuthorization =>
      expecting 0xdf969c2d constructor TL_auth_exportedAuthorization.readParams
  | .auth_importAuthorization => expecting 0xcd050916 constructor TL_auth_authorization.readParams
  | .auth_bindTempAuthKey => Bool.TLdeserialize constructor
  | .get_future_salts => expecting 0xae500895 constructor TL_future_salts.readParams
  | .rpc_drop_answer => RpcDropAnswer.TLdeserialize constructor
  | .ping => expecting 0x347773c5 constructor TL_pong.readParams
  | .upload_getFile => expecting 0x096a18d5 constructor TL_upload_file.readParams
  | .req_pq | .req_pq_multi => expecting 0x05162463 constructor TL_resPQ.readParams
  | .req_DH_params => Server_DH_Params.TLdeserialize constructor
  | .set_client_DH_params => Set_client_DH_params_answer.TLdeserialize constructor

def RawRequest.deserializeResponse (request : RawRequest) (bytes constructor : ℕ) :
    Scan (Option TLObject) :=
  if request = .api_request then do
    let object ← TL_api_response.readParamsEx bytes
    pure (some object)
  else do
    let object ← caught (request.deserializeRecord constructor)
    pure (object.map .record)

namespace TL_message

/-- Where the message starts, what it says, and where the parser stands after it. -/
def header : TL_message → Header
  | .parsed header _ => header
  | .unparsed header _ => header

end TL_message

/-- The parser takes the length from the message: the object is the response to a request of the
application. -/
def TLObject.isApi : TLObject → Bool
  | .rpc_result _ result => result.isApi
  | .api_response _ => true
  | _ => false

/-- Does the end of the message depend on the length it states? -/
def TL_message.relied : TL_message → Bool
  | .parsed _ body => body.isApi
  | .unparsed _ _ => true

section Functions

variable (deserialize : Deserializer) (requests : Requests)

/-- The body of a message: what could not be parsed is kept as it is. -/
def TL_message.body (start : ℕ) (msg_id : BitVec 64) (seqno : BitVec 32) (bytes : ℕ) :
    Option TLObject → Scan TL_message
  | some object => do
      let stop ← position
      pure (.parsed { start, msg_id, seqno, bytes, stop } object)
  | none => do
      let p ← position
      let unparsedBody ← slice p bytes
      skip bytes
      let stop ← position
      pure (.unparsed { start, msg_id, seqno, bytes, stop } unparsedBody)

/-- `bytes` is signed, and every use of it is a `uint32_t`. -/
def TL_message.readParams : Scan TL_message := do
  let start ← position
  let msg_id ← readInt64
  let seqno ← readInt32
  let bytes ← readUint32
  let object ← deserialize none bytes
  TL_message.body start msg_id seqno bytes object

/-- One round of the loop over the messages of a container. -/
def TL_msg_container.round (first index : ℕ) : Scan TL_message := do
  let message ← TL_message.readParams deserialize
  let e ← error
  record {
    first, index, start := message.header.start, bytes := message.header.bytes
    relied := message.relied, stop := message.header.stop, error := e }
  pure message

/-- The loop; nothing when it returns with an error. -/
def TL_msg_container.loop (first : ℕ) : ℕ → ℕ → Scan (Option (List TL_message))
  | _, 0 => pure (some [])
  | index, n + 1 => do
      let message ← TL_msg_container.round deserialize first index
      let e ← error
      if e then pure none
      else do
        let rest ← TL_msg_container.loop first (index + 1) n
        pure (rest.map (message :: ·))

def TL_msg_container.readParams : Scan (Option TLObject) := do
  let count ← readUint32
  let first ← position
  let messages ← TL_msg_container.loop deserialize first 0 count
  pure (messages.map .msg_container)

/-- The result of a request; without a result it is an error. -/
def TL_rpc_result.result (req_msg_id : BitVec 64) : Option TLObject → Scan (Option TLObject)
  | some result => pure (some (.rpc_result req_msg_id result))
  | none => do
      setError true
      pure none

def TL_rpc_result.readParamsEx (bytes : ℕ) : Scan (Option TLObject) := do
  let req_msg_id ← readInt64
  let object ← deserialize (requests req_msg_id) (sub32 bytes 12)
  TL_rpc_result.result req_msg_id object

/-- The classes of `TLClassStore` that are parsed by themselves. -/
def TLClassStore.classes : List (ℕ × Scan Record) :=
  [(0x62d6b459, TL_msgs_ack.readParams),
    (0x347773c5, TL_pong.readParams),
    (0x9ec20908, TL_new_session_created.readParams),
    (0x04deb57d, MsgsStateInfo.readParams),
    (0xa7eff811, TL_bad_msg_notification.readParams),
    (0xedab447b, TL_bad_server_salt.readParams),
    (0x276d3ec6, TL_msg_detailed_info.readParams),
    (0x809db6df, TL_msg_new_detailed_info.readParams),
    (0xc4b9f9bb, TL_error.readParams),
    (0x2144ca19, TL_rpc_error.readParams),
    (0x7ae432f5, TL_rpc_req_error.readParams),
    (0xae500895, TL_future_salts.readParams),
    (0xe22045fc, TL_destroy_session_ok.readParams),
    (0x62d350c9, TL_destroy_session_none.readParams),
    (0xe317af7e, pure .updatesTooLong)]

/-- Nothing stands for a constructor that the store does not know, and for a parser that returned
early, which has then set the error. -/
def TLClassStore.TLdeserialize (bytes constructor : ℕ) : Scan (Option TLObject) :=
  if constructor = 0x73f1f8dc then TL_msg_container.readParams deserialize
  else if constructor = 0xf35c6d01 then TL_rpc_result.readParamsEx deserialize requests bytes
  else if constructor = 0x3072cfa1 then TL_gzip_packed.readParams
  else
    match TLClassStore.classes.lookup constructor with
    | some readParams => do
        let object ← caught readParams
        pure (object.map .record)
    | none => pure none

/-- An object that was parsed with an error is deleted. -/
def unlessError (object : Option TLObject) : Scan (Option TLObject) := do
  let e ← error
  if e then pure none else pure object

/-- What the store does not know is left to the request. -/
def TLdeserialize.response (request : Option RawRequest) (bytes constructor : ℕ) :
    Option TLObject → Scan (Option TLObject)
  | some object => pure (some object)
  | none =>
      match request with
      | some request => do
          let object ← request.deserializeResponse bytes constructor
          unlessError object
      | none => pure none

/-- The object behind a constructor. -/
def TLdeserialize.parse (request : Option RawRequest) (bytes constructor : ℕ) :
    Scan (Option TLObject) := do
  let object ← TLClassStore.TLdeserialize deserialize requests bytes constructor
  let e ← error
  if e then pure none else TLdeserialize.response request bytes constructor object

/-- The constructor and the object behind it. -/
def TLdeserialize.object (request : Option RawRequest) (bytes : ℕ) : Scan (Option TLObject) := do
  let constructor ← readUint32
  let e ← error
  if e then pure none else TLdeserialize.parse deserialize requests request bytes constructor

/-- The position is restored when there is no object. -/
def TLdeserialize.restore (p : ℕ) (object : Option TLObject) : Scan Unit :=
  if object.isNone then setPosition p else pure ()

/-- `ConnectionsManager::TLdeserialize` over the function it calls for what is inside.  It has an
error flag of its own. -/
def TLdeserialize.step (request : Option RawRequest) (bytes : ℕ) : Scan (Option TLObject) := do
  let outer ← error
  setError false
  let p ← position
  let object ← TLdeserialize.object deserialize requests request bytes
  TLdeserialize.restore p object
  setError outer
  pure object

end Functions

/-- `ConnectionsManager::TLdeserialize` with room for `n` calls on the stack. -/
def TLdeserialize (requests : Requests) : ℕ → Deserializer
  | 0 => fun _ _ => crash
  | n + 1 => TLdeserialize.step (TLdeserialize requests n) requests

/-! ## What the parsers depend on -/

section Blind

variable {e : ℕ}

theorem plain_gzip_packed : Plain TL_gzip_packed.readParams := by
  unfold TL_gzip_packed.readParams
  infer_instance

theorem TLClassStore.mem_of_lookup {constructor : ℕ} {readParams : Scan Record}
    (h : TLClassStore.classes.lookup constructor = some readParams) :
    (constructor, readParams) ∈ TLClassStore.classes := by
  obtain ⟨before, after, heq, -⟩ := List.lookup_eq_some_iff.1 h
  rw [heq]
  exact List.mem_append_right _ List.mem_cons_self

theorem plain_classes {constructor : ℕ} {readParams : Scan Record}
    (h : TLClassStore.classes.lookup constructor = some readParams) : Plain readParams := by
  have hmem := TLClassStore.mem_of_lookup h
  simp only [TLClassStore.classes, List.mem_cons, Prod.mk.injEq, List.not_mem_nil, or_false] at hmem
  rcases hmem with h | h | h | h | h | h | h | h | h | h | h | h | h | h | h <;>
    · rw [h.2]
      infer_instance

theorem plain_response (request : RawRequest) (constructor : ℕ) :
    Plain (request.deserializeRecord constructor) := by
  cases request with
  | _ =>
      unfold RawRequest.deserializeRecord
      infer_instance

instance (bytes : ℕ) :
    Blind (Stream.Agree e) (Stream.Within e) (TL_api_response.readParamsEx bytes) := by
  unfold TL_api_response.readParamsEx
  infer_instance

instance (bytes constructor : ℕ) (request : RawRequest) :
    Blind (Stream.Agree e) (Stream.Within e) (request.deserializeResponse bytes constructor) := by
  have hblind := (plain_response request constructor).blind e
  unfold RawRequest.deserializeResponse
  infer_instance

instance {start : ℕ} {msg_id : BitVec 64} {seqno : BitVec 32} {bytes : ℕ}
    {object : Option TLObject} :
    Blind (Stream.Agree e) (Stream.Within e) (TL_message.body start msg_id seqno bytes object) := by
  cases object with
  | none =>
      unfold TL_message.body
      infer_instance
  | some object =>
      unfold TL_message.body
      infer_instance

instance {req_msg_id : BitVec 64} {object : Option TLObject} :
    Blind (Stream.Agree e) (Stream.Within e) (TL_rpc_result.result req_msg_id object) := by
  cases object with
  | none =>
      unfold TL_rpc_result.result
      infer_instance
  | some object =>
      unfold TL_rpc_result.result
      infer_instance

instance {object : Option TLObject} :
    Blind (Stream.Agree e) (Stream.Within e) (unlessError object) := by
  unfold unlessError
  infer_instance

instance {request : Option RawRequest} {bytes constructor : ℕ} {object : Option TLObject} :
    Blind (Stream.Agree e) (Stream.Within e)
      (TLdeserialize.response request bytes constructor object) := by
  cases object with
  | none =>
      cases request with
      | none =>
          unfold TLdeserialize.response
          infer_instance
      | some request =>
          unfold TLdeserialize.response
          infer_instance
  | some object =>
      unfold TLdeserialize.response
      infer_instance

instance {p : ℕ} {object : Option TLObject} :
    Blind (Stream.Agree e) (Stream.Within e) (TLdeserialize.restore p object) := by
  unfold TLdeserialize.restore
  infer_instance

section Recursion

variable {deserialize : Deserializer} {requests : Requests}
variable [hdeserialize : ∀ request bytes,
  Blind (Stream.Agree e) (Stream.Within e) (deserialize request bytes)]

instance {first index : ℕ} :
    Blind (Stream.Agree e) (Stream.Within e) (TL_msg_container.round deserialize first index) := by
  unfold TL_msg_container.round TL_message.readParams
  infer_instance

instance {first index n : ℕ} :
    Blind (Stream.Agree e) (Stream.Within e) (TL_msg_container.loop deserialize first index n) := by
  induction n generalizing index with
  | zero =>
      unfold TL_msg_container.loop
      infer_instance
  | succ n ih =>
      have hrest := @ih (index + 1)
      unfold TL_msg_container.loop
      infer_instance

instance {bytes constructor : ℕ} :
    Blind (Stream.Agree e) (Stream.Within e)
      (TLClassStore.TLdeserialize deserialize requests bytes constructor) := by
  unfold TLClassStore.TLdeserialize
  split
  · unfold TL_msg_container.readParams
    infer_instance
  · split
    · unfold TL_rpc_result.readParamsEx
      infer_instance
    · split
      · exact plain_gzip_packed.blind e
      · split
        · rename_i hclass
          have hblind := (plain_classes hclass).blind e
          infer_instance
        · infer_instance

instance {request : Option RawRequest} {bytes constructor : ℕ} :
    Blind (Stream.Agree e) (Stream.Within e)
      (TLdeserialize.parse deserialize requests request bytes constructor) := by
  unfold TLdeserialize.parse
  infer_instance

instance {request : Option RawRequest} {bytes : ℕ} :
    Blind (Stream.Agree e) (Stream.Within e)
      (TLdeserialize.object deserialize requests request bytes) := by
  unfold TLdeserialize.object
  infer_instance

instance {request : Option RawRequest} {bytes : ℕ} :
    Blind (Stream.Agree e) (Stream.Within e)
      (TLdeserialize.step deserialize requests request bytes) := by
  unfold TLdeserialize.step
  infer_instance

end Recursion

/-- The parser depends on the bytes it has looked at, however the objects nest. -/
instance blind_deserialize {requests : Requests} {n : ℕ} {request : Option RawRequest} {bytes : ℕ} :
    Blind (Stream.Agree e) (Stream.Within e) (TLdeserialize requests n request bytes) := by
  induction n generalizing request bytes with
  | zero =>
      unfold TLdeserialize
      infer_instance
  | succ n ih =>
      have hinner := fun request bytes => @ih request bytes
      unfold TLdeserialize
      infer_instance

end Blind

end Mtproto.Scheme
