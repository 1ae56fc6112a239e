import Mtproto.Scheme.Stream

/-!
# The objects and their parsers

The classes that the client parses: those that `TLClassStore` knows and the responses to the
requests it sends itself.  Every class has its parser, `readParams`, which reads its fields in
order.  A response that is chosen by a constructor has `TLdeserialize`, which sets the error when it
does not know it.  `size_t` has 64 bits, so the test of a count against the limit does not wrap
around.
-/

namespace Mtproto.Scheme

open Lib Lib.Interruptible Tgnet

/-! ## Objects -/

structure TL_future_salt where
  valid_since : BitVec 32
  valid_until : BitVec 32
  salt : BitVec 64
deriving DecidableEq, Repr

structure TL_dcOption where
  flags : BitVec 32
  ipv6 : Bool
  media_only : Bool
  tcpo_only : Bool
  cdn : Bool
  isStatic : Bool
  id : BitVec 32
  ip_address : List UInt8
  port : BitVec 32
  secret : Option (Option (List UInt8))
deriving DecidableEq, Repr

structure TL_disabledFeature where
  feature : List UInt8
  description : List UInt8
deriving DecidableEq, Repr

structure TL_cdnPublicKey where
  dc_id : BitVec 32
  public_key : List UInt8
deriving DecidableEq, Repr

/-- `TL_config`; nothing stands for a field whose flag is not set.  The seven `bool` fields behind
`flags` are false in a new object, and the parser leaves them so. -/
structure TL_config where
  flags : BitVec 32
  phonecalls_enabled : Bool := false
  default_p2p_contacts : Bool := false
  preload_featured_stickers : Bool := false
  ignore_phone_entities : Bool := false
  revoke_pm_inbox : Bool := false
  blocked_mode : Bool := false
  pfs_enabled : Bool := false
  date : BitVec 32
  expires : BitVec 32
  test_mode : Bool
  this_dc : BitVec 32
  dc_options : List TL_dcOption
  dc_txt_domain_name : List UInt8
  chat_size_max : BitVec 32
  megagroup_size_max : BitVec 32
  forwarded_count_max : BitVec 32
  online_update_period_ms : BitVec 32
  offline_blur_timeout_ms : BitVec 32
  offline_idle_timeout_ms : BitVec 32
  online_cloud_timeout_ms : BitVec 32
  notify_cloud_delay_ms : BitVec 32
  notify_default_delay_ms : BitVec 32
  push_chat_period_ms : BitVec 32
  push_chat_limit : BitVec 32
  saved_gifs_limit : BitVec 32
  edit_time_limit : BitVec 32
  revoke_time_limit : BitVec 32
  revoke_pm_time_limit : BitVec 32
  rating_e_decay : BitVec 32
  stickers_recent_limit : BitVec 32
  stickers_faved_limit : BitVec 32
  channels_read_media_period : BitVec 32
  tmp_sessions : Option (BitVec 32)
  pinned_dialogs_count_max : BitVec 32
  pinned_infolder_count_max : BitVec 32
  call_receive_timeout_ms : BitVec 32
  call_ring_timeout_ms : BitVec 32
  call_connect_timeout_ms : BitVec 32
  call_packet_timeout_ms : BitVec 32
  me_url_prefix : List UInt8
  autoupdate_url_prefix : Option (List UInt8)
  gif_search_username : Option (List UInt8)
  venue_search_username : Option (List UInt8)
  img_search_username : Option (List UInt8)
  static_maps_provider : Option (List UInt8)
  caption_length_max : BitVec 32
  message_length_max : BitVec 32
  webfile_dc_id : BitVec 32
  suggested_lang_code : Option (List UInt8)
  lang_pack_version : Option (BitVec 32)
  base_lang_pack_version : Option (BitVec 32)
  disabled_features : List TL_disabledFeature
deriving DecidableEq, Repr

inductive UserStatus where
  | offline (expires : BitVec 32)
  | lastWeek
  | empty
  | lastMonth
  | online (expires : BitVec 32)
  | recently
deriving DecidableEq, Repr

inductive FileLocation where
  | fileLocation (dc_id : BitVec 32) (volume_id : BitVec 64) (local_id : BitVec 32)
      (secret : BitVec 64)
  | unavailable (volume_id : BitVec 64) (local_id : BitVec 32) (secret : BitVec 64)
  | encrypted (dc_id : BitVec 32) (volume_id : BitVec 64) (local_id : BitVec 32)
      (secret : BitVec 64)
      (key iv : Option (List UInt8))
deriving DecidableEq, Repr

inductive UserProfilePhoto where
  | empty
  | photo (photo_id : BitVec 64) (photo_small photo_big : Option FileLocation)
deriving DecidableEq, Repr

structure TL_user where
  flags : BitVec 32
  id : BitVec 32
  access_hash : Option (BitVec 64)
  first_name : Option (List UInt8)
  last_name : Option (List UInt8)
  username : Option (List UInt8)
  phone : Option (List UInt8)
  photo : Option (Option UserProfilePhoto)
  status : Option (Option UserStatus)
  bot_info_version : Option (BitVec 32)
  restriction_reason : Option (List UInt8)
  bot_inline_placeholder : Option (List UInt8)
  lang_code : Option (List UInt8)
deriving DecidableEq, Repr

inductive User where
  | empty (id : BitVec 32)
  | user (user : TL_user)
deriving DecidableEq, Repr

/-- What `TL_message::readParams` reads in front of the body, with where the message starts and
where the parser stands after it. -/
structure Header where
  start : ℕ
  msg_id : BitVec 64
  seqno : BitVec 32
  bytes : ℕ
  stop : ℕ
deriving DecidableEq, Repr

/-- The objects with nothing to parse inside, under the names of their classes. -/
inductive Record where
  | msgs_ack (msg_ids : List (BitVec 64))
  | pong (msg_id ping_id : BitVec 64)
  | new_session_created (first_msg_id unique_id server_salt : BitVec 64)
  | msgsStateInfo (req_msg_id : BitVec 64) (info : List UInt8)
  | bad_msg_notification (bad_msg_id : BitVec 64) (bad_msg_seqno error_code : BitVec 32)
  | bad_server_salt (bad_msg_id : BitVec 64) (bad_msg_seqno error_code : BitVec 32)
      (new_server_salt : BitVec 64)
  | msg_detailed_info (msg_id answer_msg_id : BitVec 64) (bytes status : BitVec 32)
  | msg_new_detailed_info (answer_msg_id : BitVec 64) (bytes status : BitVec 32)
  | error (code : BitVec 32) (text : List UInt8)
  | rpc_error (error_code : BitVec 32) (error_message : List UInt8)
  | rpc_req_error (query_id : BitVec 64) (error_code : BitVec 32) (error_message : List UInt8)
  | future_salts (req_msg_id : BitVec 64) (now : BitVec 32) (salts : List TL_future_salt)
  | destroy_session_ok (session_id : BitVec 64)
  | destroy_session_none (session_id : BitVec 64)
  | updatesTooLong
  | boolTrue
  | boolFalse
  | cdnConfig (public_keys : List TL_cdnPublicKey)
  | config (config : TL_config)
  | auth_authorization (flags : BitVec 32) (tmp_sessions : Option (BitVec 32)) (user : Option User)
  | auth_exportedAuthorization (id : BitVec 32) (bytes : Option (List UInt8))
  | rpc_answer_unknown
  | rpc_answer_dropped (msg_id : BitVec 64) (seq_no bytes : BitVec 32)
  | rpc_answer_dropped_running
  | upload_file (type : Option ℕ) (mtime : BitVec 32) (bytes : Option (List UInt8))
  | resPQ (nonce server_nonce pq : Option (List UInt8))
      (server_public_key_fingerprints : List (BitVec 64))
  | server_DH_params_fail (nonce server_nonce new_nonce_hash : Option (List UInt8))
  | server_DH_params_ok (nonce server_nonce encrypted_answer : Option (List UInt8))
  | dh_gen_retry (nonce server_nonce new_nonce_hash2 : Option (List UInt8))
  | dh_gen_fail (nonce server_nonce new_nonce_hash3 : Option (List UInt8))
  | dh_gen_ok (nonce server_nonce new_nonce_hash1 : Option (List UInt8))
deriving DecidableEq, Repr

mutual

/-- The parsed objects. -/
inductive TLObject where
  | record (record : Record)
  | gzip_packed (packed_data : Option Slice)
  | msg_container (messages : List TL_message)
  | rpc_result (req_msg_id : BitVec 64) (result : TLObject)
  | api_response (response : Slice)

/-- A message of a container, with its parsed body or with `unparsedBody`. -/
inductive TL_message where
  | parsed (header : Header) (body : TLObject)
  | unparsed (header : Header) (unparsedBody : Slice)

end

/-! ## Parsers -/

open Scan

/-- `if (…) { error = true; return; }`. -/
def check (c : Prop) [Decidable c] : Scan Unit := if c then pure () else failed

/-- `if (error) { return; }`. -/
def stopOnError : Scan Unit := do
  let e ← error
  if e then crash else pure ()

/-- The magic number in front of a vector. -/
def vectorMagic : Scan Unit := do
  let magic ← readUint32
  check (magic = 0x1cb5c415)

/-- A vector of words: the count is compared with what is left, and no error stops the loop. -/
def longVector : Scan (List (BitVec 64)) := do
  vectorMagic
  let count ← readUint32
  let p ← position
  let l ← limit
  check (¬ count * 8 + p > l)
  collect (fun _ => readInt64) 0 count

/-- A vector with a signed count, whose elements stop the parser when they are not there. -/
def signedVector {α : Type} (element : Scan α) : Scan (List α) := do
  vectorMagic
  let count ← readInt32
  collect (fun _ => element) 0 count.toInt.toNat

def TL_msgs_ack.readParams : Scan Record := do
  let msg_ids ← longVector
  pure (.msgs_ack msg_ids)

def TL_pong.readParams : Scan Record := do
  let msg_id ← readInt64
  let ping_id ← readInt64
  pure (.pong msg_id ping_id)

def TL_new_session_created.readParams : Scan Record := do
  let first_msg_id ← readInt64
  let unique_id ← readInt64
  let server_salt ← readInt64
  pure (.new_session_created first_msg_id unique_id server_salt)

def MsgsStateInfo.readParams : Scan Record := do
  let req_msg_id ← readInt64
  let info ← readString
  pure (.msgsStateInfo req_msg_id info)

def TL_bad_msg_notification.readParams : Scan Record := do
  let bad_msg_id ← readInt64
  let bad_msg_seqno ← readInt32
  let error_code ← readInt32
  pure (.bad_msg_notification bad_msg_id bad_msg_seqno error_code)

def TL_bad_server_salt.readParams : Scan Record := do
  let bad_msg_id ← readInt64
  let bad_msg_seqno ← readInt32
  let error_code ← readInt32
  let new_server_salt ← readInt64
  pure (.bad_server_salt bad_msg_id bad_msg_seqno error_code new_server_salt)

def TL_msg_detailed_info.readParams : Scan Record := do
  let msg_id ← readInt64
  let answer_msg_id ← readInt64
  let bytes ← readInt32
  let status ← readInt32
  pure (.msg_detailed_info msg_id answer_msg_id bytes status)

def TL_msg_new_detailed_info.readParams : Scan Record := do
  let answer_msg_id ← readInt64
  let bytes ← readInt32
  let status ← readInt32
  pure (.msg_new_detailed_info answer_msg_id bytes status)

def TL_error.readParams : Scan Record := do
  let code ← readInt32
  let text ← readString
  pure (.error code text)

def TL_rpc_error.readParams : Scan Record := do
  let error_code ← readInt32
  let error_message ← readString
  pure (.rpc_error error_code error_message)

def TL_rpc_req_error.readParams : Scan Record := do
  let query_id ← readInt64
  let error_code ← readInt32
  let error_message ← readString
  pure (.rpc_req_error query_id error_code error_message)

def TL_future_salt.readParams : Scan TL_future_salt := do
  let valid_since ← readInt32
  let valid_until ← readInt32
  let salt ← readInt64
  pure { valid_since, valid_until, salt }

/-- One round of the loop over the salts. -/
def TL_future_salts.round : Scan TL_future_salt := do
  let object ← TL_future_salt.readParams
  stopOnError
  pure object

def TL_future_salts.readParams : Scan Record := do
  let req_msg_id ← readInt64
  let now ← readInt32
  vectorMagic
  let count ← readUint32
  let salts ← collect (fun _ => TL_future_salts.round) 0 count
  pure (.future_salts req_msg_id now salts)

def TL_destroy_session_ok.readParams : Scan Record := do
  let session_id ← readInt64
  pure (.destroy_session_ok session_id)

def TL_destroy_session_none.readParams : Scan Record := do
  let session_id ← readInt64
  pure (.destroy_session_none session_id)

/-! ### Responses -/

def TL_dcOption.TLdeserialize : Scan TL_dcOption := do
  let constructor ← readUint32
  check (constructor = 0x18b7a10d)
  let flags ← readInt32
  let id ← readInt32
  let ip_address ← readString
  let port ← readInt32
  let secret ← flagged (flags &&& 1024 ≠ 0) readByteArray
  pure {
    flags, id, ip_address, port, secret,
    ipv6 := flags &&& 1 ≠ 0
    media_only := flags &&& 2 ≠ 0
    tcpo_only := flags &&& 4 ≠ 0
    cdn := flags &&& 8 ≠ 0
    isStatic := flags &&& 16 ≠ 0 }

def TL_disabledFeature.TLdeserialize : Scan TL_disabledFeature := do
  let constructor ← readUint32
  check (constructor = 0xae636f24)
  let feature ← readString
  let description ← readString
  pure { feature, description }

def TL_cdnPublicKey.TLdeserialize : Scan TL_cdnPublicKey := do
  let constructor ← readUint32
  check (constructor = 0xc982eaba)
  let dc_id ← readInt32
  let public_key ← readString
  pure { dc_id, public_key }

def TL_cdnConfig.readParams : Scan Record := do
  let public_keys ← signedVector TL_cdnPublicKey.TLdeserialize
  pure (.cdnConfig public_keys)

def TL_config.readParams : Scan Record := do
  let flags ← readInt32
  let date ← readInt32
  let expires ← readInt32
  let test_mode ← readBool
  let this_dc ← readInt32
  let dc_options ← signedVector TL_dcOption.TLdeserialize
  let dc_txt_domain_name ← readString
  let chat_size_max ← readInt32
  let megagroup_size_max ← readInt32
  let forwarded_count_max ← readInt32
  let online_update_period_ms ← readInt32
  let offline_blur_timeout_ms ← readInt32
  let offline_idle_timeout_ms ← readInt32
  let online_cloud_timeout_ms ← readInt32
  let notify_cloud_delay_ms ← readInt32
  let notify_default_delay_ms ← readInt32
  let push_chat_period_ms ← readInt32
  let push_chat_limit ← readInt32
  let saved_gifs_limit ← readInt32
  let edit_time_limit ← readInt32
  let revoke_time_limit ← readInt32
  let revoke_pm_time_limit ← readInt32
  let rating_e_decay ← readInt32
  let stickers_recent_limit ← readInt32
  let stickers_faved_limit ← readInt32
  let channels_read_media_period ← readInt32
  let tmp_sessions ← flagged (flags &&& 1 ≠ 0) readInt32
  let pinned_dialogs_count_max ← readInt32
  let pinned_infolder_count_max ← readInt32
  let call_receive_timeout_ms ← readInt32
  let call_ring_timeout_ms ← readInt32
  let call_connect_timeout_ms ← readInt32
  let call_packet_timeout_ms ← readInt32
  let me_url_prefix ← readString
  let autoupdate_url_prefix ← flagged (flags &&& 128 ≠ 0) readString
  let gif_search_username ← flagged (flags &&& 512 ≠ 0) readString
  let venue_search_username ← flagged (flags &&& 1024 ≠ 0) readString
  let img_search_username ← flagged (flags &&& 2048 ≠ 0) readString
  let static_maps_provider ← flagged (flags &&& 4096 ≠ 0) readString
  let caption_length_max ← readInt32
  let message_length_max ← readInt32
  let webfile_dc_id ← readInt32
  let suggested_lang_code ← flagged (flags &&& 4 ≠ 0) readString
  let lang_pack_version ← flagged (flags &&& 4 ≠ 0) readInt32
  let base_lang_pack_version ← flagged (flags &&& 4 ≠ 0) readInt32
  let disabled_features ← signedVector TL_disabledFeature.TLdeserialize
  pure (.config {
    flags, date, expires, test_mode, this_dc, dc_options, dc_txt_domain_name, chat_size_max,
    megagroup_size_max, forwarded_count_max, online_update_period_ms, offline_blur_timeout_ms,
    offline_idle_timeout_ms, online_cloud_timeout_ms, notify_cloud_delay_ms,
    notify_default_delay_ms, push_chat_period_ms, push_chat_limit, saved_gifs_limit,
    edit_time_limit, revoke_time_limit, revoke_pm_time_limit, rating_e_decay,
    stickers_recent_limit, stickers_faved_limit, channels_read_media_period, tmp_sessions,
    pinned_dialogs_count_max, pinned_infolder_count_max, call_receive_timeout_ms,
    call_ring_timeout_ms, call_connect_timeout_ms, call_packet_timeout_ms, me_url_prefix,
    autoupdate_url_prefix, gif_search_username, venue_search_username, img_search_username,
    static_maps_provider, caption_length_max, message_length_max, webfile_dc_id,
    suggested_lang_code, lang_pack_version, base_lang_pack_version, disabled_features })

/-- The null pointer of a class that does not know the constructor; the parser goes on. -/
def unknown {α : Type} : Scan (Option α) := do
  setError true
  pure none

def UserStatus.TLdeserialize : Scan (Option UserStatus) := do
  let constructor ← readUint32
  if constructor = 0x8c703f then do
    let expires ← readInt32
    pure (some (.offline expires))
  else if constructor = 0x7bf09fc then pure (some .lastWeek)
  else if constructor = 0x9d05049 then pure (some .empty)
  else if constructor = 0x77ebc742 then pure (some .lastMonth)
  else if constructor = 0xedb93949 then do
    let expires ← readInt32
    pure (some (.online expires))
  else if constructor = 0xe26f42f1 then pure (some .recently)
  else unknown

def FileLocation.TLdeserialize : Scan (Option FileLocation) := do
  let constructor ← readUint32
  if constructor = 0x53d69076 then do
    let dc_id ← readInt32
    let volume_id ← readInt64
    let local_id ← readInt32
    let secret ← readInt64
    pure (some (.fileLocation dc_id volume_id local_id secret))
  else if constructor = 0x7c596b46 then do
    let volume_id ← readInt64
    let local_id ← readInt32
    let secret ← readInt64
    pure (some (.unavailable volume_id local_id secret))
  else if constructor = 0x55555554 then do
    let dc_id ← readInt32
    let volume_id ← readInt64
    let local_id ← readInt32
    let secret ← readInt64
    let key ← readByteArray
    let iv ← readByteArray
    pure (some (.encrypted dc_id volume_id local_id secret key iv))
  else unknown

def UserProfilePhoto.TLdeserialize : Scan (Option UserProfilePhoto) := do
  let constructor ← readUint32
  if constructor = 0x4f11bae1 then pure (some .empty)
  else if constructor = 0xd559d8c8 then do
    let photo_id ← readInt64
    let photo_small ← FileLocation.TLdeserialize
    let photo_big ← FileLocation.TLdeserialize
    pure (some (.photo photo_id photo_small photo_big))
  else unknown

def TL_user.readParams : Scan TL_user := do
  let flags ← readInt32
  let id ← readInt32
  let access_hash ← flagged (flags &&& 1 ≠ 0) readInt64
  let first_name ← flagged (flags &&& 2 ≠ 0) readString
  let last_name ← flagged (flags &&& 4 ≠ 0) readString
  let username ← flagged (flags &&& 8 ≠ 0) readString
  let phone ← flagged (flags &&& 16 ≠ 0) readString
  let photo ← flagged (flags &&& 32 ≠ 0) UserProfilePhoto.TLdeserialize
  let status ← flagged (flags &&& 64 ≠ 0) UserStatus.TLdeserialize
  let bot_info_version ← flagged (flags &&& 16384 ≠ 0) readInt32
  let restriction_reason ← flagged (flags &&& 262144 ≠ 0) readString
  let bot_inline_placeholder ← flagged (flags &&& 524288 ≠ 0) readString
  let lang_code ← flagged (flags &&& 4194304 ≠ 0) readString
  pure {
    flags, id, access_hash, first_name, last_name, username, phone, photo, status,
    bot_info_version, restriction_reason, bot_inline_placeholder, lang_code }

def User.TLdeserialize : Scan (Option User) := do
  let constructor ← readUint32
  if constructor = 0x200250ba then do
    let id ← readInt32
    pure (some (.empty id))
  else if constructor = 0x2e13f4c3 then do
    let user ← TL_user.readParams
    pure (some (.user user))
  else unknown

def TL_auth_authorization.readParams : Scan Record := do
  let flags ← readInt32
  let tmp_sessions ← flagged (flags &&& 1 ≠ 0) readInt32
  let user ← User.TLdeserialize
  pure (.auth_authorization flags tmp_sessions user)

def TL_auth_exportedAuthorization.readParams : Scan Record := do
  let id ← readInt32
  let bytes ← readByteArray
  pure (.auth_exportedAuthorization id bytes)

def TL_rpc_answer_dropped.readParams : Scan Record := do
  let msg_id ← readInt64
  let seq_no ← readInt32
  let bytes ← readInt32
  pure (.rpc_answer_dropped msg_id seq_no bytes)

/-- The constructors of `storage_FileType`: unknown, mp4, webp, png, gif, pdf, mp3, jpeg, mov and
partial. -/
def storage_FileType.constructors : List ℕ :=
  [0xaa963b05, 0xb3cea0e4, 0x1081464c, 0xa4f63c0, 0xcae1aadf, 0xae1e508d, 0x528a0677, 0x7efe0e,
    0x4b09ebbc, 0x40bc6f52]

def storage_FileType.TLdeserialize : Scan (Option ℕ) := do
  let constructor ← readUint32
  if constructor ∈ storage_FileType.constructors then pure (some constructor) else unknown

def TL_upload_file.readParams : Scan Record := do
  let type ← storage_FileType.TLdeserialize
  let mtime ← readInt32
  let bytes ← readByteArray
  pure (.upload_file type mtime bytes)

/-- A class with one constructor. -/
def expecting (expected constructor : ℕ) (readParams : Scan Record) : Scan Record :=
  if constructor = expected then readParams else failed

def Bool.TLdeserialize (constructor : ℕ) : Scan Record :=
  if constructor = 0x997275b5 then pure .boolTrue
  else if constructor = 0xbc799737 then pure .boolFalse
  else failed

def RpcDropAnswer.TLdeserialize (constructor : ℕ) : Scan Record :=
  if constructor = 0x5e2ad36e then pure .rpc_answer_unknown
  else if constructor = 0xa43ad8b7 then TL_rpc_answer_dropped.readParams
  else if constructor = 0xcd78e586 then pure .rpc_answer_dropped_running
  else failed

/-! ### Answers of a handshake -/

/-- An error of the reads in front of the vector does not end the function. -/
def TL_resPQ.readParams : Scan Record := do
  let nonce ← readBytes 16
  let server_nonce ← readBytes 16
  let pq ← readByteArray
  let server_public_key_fingerprints ← longVector
  pure (.resPQ nonce server_nonce pq server_public_key_fingerprints)

def TL_server_DH_params_fail.readParams : Scan Record := do
  let nonce ← readBytes 16
  let server_nonce ← readBytes 16
  let new_nonce_hash ← readBytes 16
  pure (.server_DH_params_fail nonce server_nonce new_nonce_hash)

def TL_server_DH_params_ok.readParams : Scan Record := do
  let nonce ← readBytes 16
  let server_nonce ← readBytes 16
  let encrypted_answer ← readByteArray
  pure (.server_DH_params_ok nonce server_nonce encrypted_answer)

def Server_DH_Params.TLdeserialize (constructor : ℕ) : Scan Record :=
  if constructor = 0x79cb045d then TL_server_DH_params_fail.readParams
  else if constructor = 0xd0e8075c then TL_server_DH_params_ok.readParams
  else failed

def TL_dh_gen_retry.readParams : Scan Record := do
  let nonce ← readBytes 16
  let server_nonce ← readBytes 16
  let new_nonce_hash2 ← readBytes 16
  pure (.dh_gen_retry nonce server_nonce new_nonce_hash2)

def TL_dh_gen_fail.readParams : Scan Record := do
  let nonce ← readBytes 16
  let server_nonce ← readBytes 16
  let new_nonce_hash3 ← readBytes 16
  pure (.dh_gen_fail nonce server_nonce new_nonce_hash3)

def TL_dh_gen_ok.readParams : Scan Record := do
  let nonce ← readBytes 16
  let server_nonce ← readBytes 16
  let new_nonce_hash1 ← readBytes 16
  pure (.dh_gen_ok nonce server_nonce new_nonce_hash1)

def Set_client_DH_params_answer.TLdeserialize (constructor : ℕ) : Scan Record :=
  if constructor = 0x46dc1fb9 then TL_dh_gen_retry.readParams
  else if constructor = 0xa69dae02 then TL_dh_gen_fail.readParams
  else if constructor = 0x3bcbf734 then TL_dh_gen_ok.readParams
  else failed

/-! ## What they have in common -/

/-- A parser that only reads on, whose result depends on the bytes it has looked at, and that
returns early with an error only. -/
class Plain {α : Type} (m : Scan α) : Prop where
  moves : Moves Stream.Onward m
  blind : ∀ e, Blind (Stream.Agree e) (Stream.Within e) m
  reports : ∀ s, (m s).1 = none → (m s).2.error = true

section Plain

variable {α β : Type}

/-- A parser that does not return early. -/
theorem plain_of_some {m : Scan α} [hmoves : Moves Stream.Onward m]
    [hblind : ∀ e, Blind (Stream.Agree e) (Stream.Within e) m] (h : ∀ s, (m s).1 ≠ none) :
    Plain m :=
  ⟨hmoves, hblind, fun s hnone => absurd hnone (h s)⟩

instance (a : α) : Plain (pure a : Scan α) := plain_of_some fun _ => Option.some_ne_none _

instance : Plain (failed : Scan α) :=
  ⟨inferInstance, fun _ => inferInstance, fun _ _ => rfl⟩

instance {m : Scan α} {f : α → Scan β} [hm : Plain m] [hf : ∀ a, Plain (f a)] :
    Plain (m >>= f) := by
  have hmoves := hm.moves
  have hblind := hm.blind
  have hmoves' := fun a => (hf a).moves
  have hblind' := fun a => (hf a).blind
  refine ⟨inferInstance, fun _ => inferInstance, ?_⟩
  intro s hnone
  have hreports := hm.reports s
  rcases hrun : m s with ⟨_ | a, t⟩
  · rw [hrun] at hreports
    rw [bind_of_none hrun]
    exact hreports rfl
  · rw [bind_of_some hrun] at hnone ⊢
    exact (hf a).reports t hnone

instance {c : Prop} [Decidable c] {m n : Scan α} [hm : Plain m] [hn : Plain n] :
    Plain (if c then m else n) := by
  split
  · exact hm
  · exact hn

instance {present : Prop} [Decidable present] {m : Scan α} [Plain m] :
    Plain (flagged present m) := by
  unfold flagged
  infer_instance

instance {body : ℕ → Scan α} [hbody : ∀ i, Plain (body i)] (i n : ℕ) :
    Plain (collect body i n) := by
  induction n generalizing i with
  | zero =>
      unfold collect
      infer_instance
  | succ n ih =>
      have hrest := ih (i + 1)
      unfold collect
      infer_instance

instance : Plain readInt32 := plain_of_some fun _ => Option.some_ne_none _

instance : Plain readUint32 := plain_of_some fun _ => Option.some_ne_none _

instance : Plain readInt64 := plain_of_some fun _ => Option.some_ne_none _

instance : Plain readBool := plain_of_some fun _ => Option.some_ne_none _

instance : Plain readString := plain_of_some fun _ => Option.some_ne_none _

instance : Plain readByteArray := plain_of_some fun _ => Option.some_ne_none _

instance (length : ℕ) : Plain (readBytes length) := plain_of_some fun _ => Option.some_ne_none _

instance : Plain readByteBuffer := plain_of_some fun _ => Option.some_ne_none _

instance : Plain position := plain_of_some fun _ => Option.some_ne_none _

instance : Plain limit := plain_of_some fun _ => Option.some_ne_none _

instance : Plain error := plain_of_some fun _ => Option.some_ne_none _

instance : Plain (setError true) := plain_of_some fun _ => Option.some_ne_none _

instance {c : Prop} [Decidable c] : Plain (check c) := by
  unfold check
  infer_instance

instance : Plain stopOnError := by
  have hmoves : Moves Stream.Onward stopOnError := by
    unfold stopOnError
    infer_instance
  have hblind : ∀ e, Blind (Stream.Agree e) (Stream.Within e) stopOnError := by
    intro e
    unfold stopOnError
    infer_instance
  refine ⟨hmoves, hblind, ?_⟩
  intro s hnone
  have hrun : stopOnError s = (if s.error = true then crash else pure () : Scan Unit) s := rfl
  rw [hrun] at hnone ⊢
  split at hnone
  · rwa [if_pos ‹_›]
  · cases hnone

instance : Plain vectorMagic := by
  unfold vectorMagic
  infer_instance

instance : Plain longVector := by
  unfold longVector
  infer_instance

instance {element : Scan α} [Plain element] : Plain (signedVector element) := by
  unfold signedVector
  infer_instance

instance : Plain (unknown : Scan (Option α)) := by
  unfold unknown
  infer_instance

instance : Plain TL_msgs_ack.readParams := by
  unfold TL_msgs_ack.readParams
  infer_instance

instance : Plain TL_pong.readParams := by
  unfold TL_pong.readParams
  infer_instance

instance : Plain TL_new_session_created.readParams := by
  unfold TL_new_session_created.readParams
  infer_instance

instance : Plain MsgsStateInfo.readParams := by
  unfold MsgsStateInfo.readParams
  infer_instance

instance : Plain TL_bad_msg_notification.readParams := by
  unfold TL_bad_msg_notification.readParams
  infer_instance

instance : Plain TL_bad_server_salt.readParams := by
  unfold TL_bad_server_salt.readParams
  infer_instance

instance : Plain TL_msg_detailed_info.readParams := by
  unfold TL_msg_detailed_info.readParams
  infer_instance

instance : Plain TL_msg_new_detailed_info.readParams := by
  unfold TL_msg_new_detailed_info.readParams
  infer_instance

instance : Plain TL_error.readParams := by
  unfold TL_error.readParams
  infer_instance

instance : Plain TL_rpc_error.readParams := by
  unfold TL_rpc_error.readParams
  infer_instance

instance : Plain TL_rpc_req_error.readParams := by
  unfold TL_rpc_req_error.readParams
  infer_instance

instance : Plain TL_future_salt.readParams := by
  unfold TL_future_salt.readParams
  infer_instance

instance : Plain TL_future_salts.round := by
  unfold TL_future_salts.round
  infer_instance

instance : Plain TL_future_salts.readParams := by
  unfold TL_future_salts.readParams
  infer_instance

instance : Plain TL_destroy_session_ok.readParams := by
  unfold TL_destroy_session_ok.readParams
  infer_instance

instance : Plain TL_destroy_session_none.readParams := by
  unfold TL_destroy_session_none.readParams
  infer_instance

instance : Plain TL_dcOption.TLdeserialize := by
  unfold TL_dcOption.TLdeserialize
  infer_instance

instance : Plain TL_disabledFeature.TLdeserialize := by
  unfold TL_disabledFeature.TLdeserialize
  infer_instance

instance : Plain TL_cdnPublicKey.TLdeserialize := by
  unfold TL_cdnPublicKey.TLdeserialize
  infer_instance

instance : Plain TL_cdnConfig.readParams := by
  unfold TL_cdnConfig.readParams
  infer_instance

instance : Plain TL_config.readParams := by
  unfold TL_config.readParams
  infer_instance

instance : Plain UserStatus.TLdeserialize := by
  unfold UserStatus.TLdeserialize
  infer_instance

instance : Plain FileLocation.TLdeserialize := by
  unfold FileLocation.TLdeserialize
  infer_instance

instance : Plain UserProfilePhoto.TLdeserialize := by
  unfold UserProfilePhoto.TLdeserialize
  infer_instance

instance : Plain TL_user.readParams := by
  unfold TL_user.readParams
  infer_instance

instance : Plain User.TLdeserialize := by
  unfold User.TLdeserialize
  infer_instance

instance : Plain TL_auth_authorization.readParams := by
  unfold TL_auth_authorization.readParams
  infer_instance

instance : Plain TL_auth_exportedAuthorization.readParams := by
  unfold TL_auth_exportedAuthorization.readParams
  infer_instance

instance : Plain TL_rpc_answer_dropped.readParams := by
  unfold TL_rpc_answer_dropped.readParams
  infer_instance

instance : Plain storage_FileType.TLdeserialize := by
  unfold storage_FileType.TLdeserialize
  infer_instance

instance : Plain TL_upload_file.readParams := by
  unfold TL_upload_file.readParams
  infer_instance

instance {expected constructor : ℕ} {readParams : Scan Record} [Plain readParams] :
    Plain (expecting expected constructor readParams) := by
  unfold expecting
  infer_instance

instance (constructor : ℕ) : Plain (Bool.TLdeserialize constructor) := by
  unfold Bool.TLdeserialize
  infer_instance

instance (constructor : ℕ) : Plain (RpcDropAnswer.TLdeserialize constructor) := by
  unfold RpcDropAnswer.TLdeserialize
  infer_instance

instance : Plain TL_resPQ.readParams := by
  unfold TL_resPQ.readParams
  infer_instance

instance (constructor : ℕ) : Plain (Server_DH_Params.TLdeserialize constructor) := by
  unfold Server_DH_Params.TLdeserialize TL_server_DH_params_fail.readParams
    TL_server_DH_params_ok.readParams
  infer_instance

instance (constructor : ℕ) : Plain (Set_client_DH_params_answer.TLdeserialize constructor) := by
  unfold Set_client_DH_params_answer.TLdeserialize TL_dh_gen_retry.readParams
    TL_dh_gen_fail.readParams
    TL_dh_gen_ok.readParams
  infer_instance

end Plain

end Mtproto.Scheme
