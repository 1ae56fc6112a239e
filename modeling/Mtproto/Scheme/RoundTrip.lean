import Mtproto.Scheme.Codecs

/-!
# Objects with both directions

The serializers of `ApiScheme.cpp` and `MTProtoScheme.cpp` for the classes that are also parsed.  An
object is `Whole` when its optional fields are there exactly when their bits are set, the pointers
that are followed are not null, the strings fit their length prefix and the vectors their `uint32_t`
count.  The seven `bool` fields of `TL_config` are neither written nor read.
-/

namespace Mtproto.Scheme

open Lib Lib.Interruptible Tgnet Bytes Scan Streams Streams.Native Codecs

/-! ## Serializers -/

section Serializers

variable (flags bit : BitVec 32)

/-- A number behind its bit; a field that is not there holds zero. -/
def putInt32 (x : Option (BitVec 32)) : Writer :=
  whenSet (flags &&& bit ≠ 0) (put (.int32 (x.getD 0)))

def putInt64 (x : Option (BitVec 64)) : Writer :=
  whenSet (flags &&& bit ≠ 0) (put (.int64 (x.getD 0)))

def putString (x : Option (List UInt8)) : Writer :=
  whenSet (flags &&& bit ≠ 0) (put (.string (x.getD [])))

/-- An object or a byte array behind its bit and a pointer. -/
def putPointer {α : Type} (f : α → Writer) (x : Option (Option α)) : Writer :=
  whenSet (flags &&& bit ≠ 0) (deref f x.join)

/-- `flags = value ? (flags | bit) : (flags &~ bit)`. -/
def assign (value : Bool) : BitVec 32 := if value then flags ||| bit else flags &&& ~~~bit

end Serializers

/-- The flags of the object, which are written over before they are written. -/
def TL_dcOption.assigned (o : TL_dcOption) : BitVec 32 :=
  let flags := assign o.flags 1 o.ipv6
  let flags := assign flags 2 o.media_only
  let flags := assign flags 4 o.tcpo_only
  let flags := assign flags 8 o.cdn
  assign flags 16 o.isStatic

def TL_dcOption.serializeToStream (o : TL_dcOption) : Writer := do
  put (.int32 0x18b7a10d)
  put (.int32 o.assigned)
  put (.int32 o.id)
  put (.string o.ip_address)
  put (.int32 o.port)
  putPointer o.assigned 1024 (fun secret => put (.byteArray secret)) o.secret

def TL_disabledFeature.serializeToStream (d : TL_disabledFeature) : Writer := do
  put (.int32 0xae636f24)
  put (.string d.feature)
  put (.string d.description)

def TL_config.serializeToStream (c : TL_config) : Writer := do
  put (.int32 0x5c5168f0)
  put (.int32 c.flags)
  put (.int32 c.date)
  put (.int32 c.expires)
  put (.bool c.test_mode)
  put (.int32 c.this_dc)
  vector TL_dcOption.serializeToStream c.dc_options
  put (.string c.dc_txt_domain_name)
  put (.int32 c.chat_size_max)
  put (.int32 c.megagroup_size_max)
  put (.int32 c.forwarded_count_max)
  put (.int32 c.online_update_period_ms)
  put (.int32 c.offline_blur_timeout_ms)
  put (.int32 c.offline_idle_timeout_ms)
  put (.int32 c.online_cloud_timeout_ms)
  put (.int32 c.notify_cloud_delay_ms)
  put (.int32 c.notify_default_delay_ms)
  put (.int32 c.push_chat_period_ms)
  put (.int32 c.push_chat_limit)
  put (.int32 c.saved_gifs_limit)
  put (.int32 c.edit_time_limit)
  put (.int32 c.revoke_time_limit)
  put (.int32 c.revoke_pm_time_limit)
  put (.int32 c.rating_e_decay)
  put (.int32 c.stickers_recent_limit)
  put (.int32 c.stickers_faved_limit)
  put (.int32 c.channels_read_media_period)
  putInt32 c.flags 1 c.tmp_sessions
  put (.int32 c.pinned_dialogs_count_max)
  put (.int32 c.pinned_infolder_count_max)
  put (.int32 c.call_receive_timeout_ms)
  put (.int32 c.call_ring_timeout_ms)
  put (.int32 c.call_connect_timeout_ms)
  put (.int32 c.call_packet_timeout_ms)
  put (.string c.me_url_prefix)
  putString c.flags 128 c.autoupdate_url_prefix
  putString c.flags 512 c.gif_search_username
  putString c.flags 1024 c.venue_search_username
  putString c.flags 2048 c.img_search_username
  putString c.flags 4096 c.static_maps_provider
  put (.int32 c.caption_length_max)
  put (.int32 c.message_length_max)
  put (.int32 c.webfile_dc_id)
  putString c.flags 4 c.suggested_lang_code
  putInt32 c.flags 4 c.lang_pack_version
  putInt32 c.flags 4 c.base_lang_pack_version
  vector TL_disabledFeature.serializeToStream c.disabled_features

def UserStatus.serializeToStream : UserStatus → Writer
  | .offline expires => do
      put (.int32 0x8c703f)
      put (.int32 expires)
  | .lastWeek => put (.int32 0x7bf09fc)
  | .empty => put (.int32 0x9d05049)
  | .lastMonth => put (.int32 0x77ebc742)
  | .online expires => do
      put (.int32 0xedb93949)
      put (.int32 expires)
  | .recently => put (.int32 0xe26f42f1)

def FileLocation.serializeToStream : FileLocation → Writer
  | .fileLocation dc_id volume_id local_id secret => do
      put (.int32 0x53d69076)
      put (.int32 dc_id)
      put (.int64 volume_id)
      put (.int32 local_id)
      put (.int64 secret)
  | .unavailable volume_id local_id secret => do
      put (.int32 0x7c596b46)
      put (.int64 volume_id)
      put (.int32 local_id)
      put (.int64 secret)
  | .encrypted dc_id volume_id local_id secret key iv => do
      put (.int32 0x55555554)
      put (.int32 dc_id)
      put (.int64 volume_id)
      put (.int32 local_id)
      put (.int64 secret)
      deref (fun key => put (.byteArray key)) key
      deref (fun iv => put (.byteArray iv)) iv

def UserProfilePhoto.serializeToStream : UserProfilePhoto → Writer
  | .empty => put (.int32 0x4f11bae1)
  | .photo photo_id photo_small photo_big => do
      put (.int32 0xd559d8c8)
      put (.int64 photo_id)
      deref FileLocation.serializeToStream photo_small
      deref FileLocation.serializeToStream photo_big

def TL_user.serializeToStream (u : TL_user) : Writer := do
  put (.int32 0x2e13f4c3)
  put (.int32 u.flags)
  put (.int32 u.id)
  putInt64 u.flags 1 u.access_hash
  putString u.flags 2 u.first_name
  putString u.flags 4 u.last_name
  putString u.flags 8 u.username
  putString u.flags 16 u.phone
  putPointer u.flags 32 UserProfilePhoto.serializeToStream u.photo
  putPointer u.flags 64 UserStatus.serializeToStream u.status
  putInt32 u.flags 16384 u.bot_info_version
  putString u.flags 262144 u.restriction_reason
  putString u.flags 524288 u.bot_inline_placeholder
  putString u.flags 4194304 u.lang_code

def TL_msgs_ack.serializeToStream (msg_ids : List (BitVec 64)) : Writer := do
  put (.int32 0x62d6b459)
  vector (fun msg_id => put (.int64 msg_id)) msg_ids

def TL_msg_resend_req.serializeToStream (msg_ids : List (BitVec 64)) : Writer := do
  put (.int32 0x7d861a08)
  vector (fun msg_id => put (.int64 msg_id)) msg_ids

/-- The constructor and what is read after it. -/
def opened {α : Type} (constructor : BitVec 32) (readParams : Scan α) : Scan α := do
  let c ← readUint32
  check (c = constructor.toNat)
  readParams

/-! ## Whole objects -/

/-- A string or a byte array that fits its length prefix. -/
def Short (b : List UInt8) : Prop := b.length < 2 ^ 24

instance (b : List UInt8) : Decidable (Short b) := inferInstanceAs (Decidable (b.length < 2 ^ 24))

/-- A field that is there exactly when its bit is set. -/
structure ByFlag {α : Type} (flags bit : BitVec 32) (P : α → Prop) (x : Option α) : Prop where
  isSome : x.isSome ↔ flags &&& bit ≠ 0
  all : ∀ a, x = some a → P a

/-- A pointer that is not null. -/
def Points {α : Type} (P : α → Prop) (x : Option α) : Prop := ∃ a, x = some a ∧ P a

structure TL_dcOption.Whole (o : TL_dcOption) : Prop where
  ipv6 : o.ipv6 = decide (o.flags &&& 1 ≠ 0)
  media_only : o.media_only = decide (o.flags &&& 2 ≠ 0)
  tcpo_only : o.tcpo_only = decide (o.flags &&& 4 ≠ 0)
  cdn : o.cdn = decide (o.flags &&& 8 ≠ 0)
  isStatic : o.isStatic = decide (o.flags &&& 16 ≠ 0)
  ip_address : Short o.ip_address
  secret : ByFlag o.flags 1024 (Points Short) o.secret

structure TL_disabledFeature.Whole (d : TL_disabledFeature) : Prop where
  feature : Short d.feature
  description : Short d.description

structure TL_config.Whole (c : TL_config) : Prop where
  dc_options : ∀ o ∈ c.dc_options, o.Whole
  length_dc_options : c.dc_options.length < 2 ^ 32
  dc_txt_domain_name : Short c.dc_txt_domain_name
  tmp_sessions : ByFlag c.flags 1 (fun _ => True) c.tmp_sessions
  me_url_prefix : Short c.me_url_prefix
  autoupdate_url_prefix : ByFlag c.flags 128 Short c.autoupdate_url_prefix
  gif_search_username : ByFlag c.flags 512 Short c.gif_search_username
  venue_search_username : ByFlag c.flags 1024 Short c.venue_search_username
  img_search_username : ByFlag c.flags 2048 Short c.img_search_username
  static_maps_provider : ByFlag c.flags 4096 Short c.static_maps_provider
  suggested_lang_code : ByFlag c.flags 4 Short c.suggested_lang_code
  lang_pack_version : ByFlag c.flags 4 (fun _ => True) c.lang_pack_version
  base_lang_pack_version : ByFlag c.flags 4 (fun _ => True) c.base_lang_pack_version
  disabled_features : ∀ d ∈ c.disabled_features, d.Whole
  length_disabled_features : c.disabled_features.length < 2 ^ 32

/-- The `bool` fields as they are in a new object. -/
def TL_config.plain (c : TL_config) : TL_config :=
  { c with
    phonecalls_enabled := false, default_p2p_contacts := false, preload_featured_stickers := false,
    ignore_phone_entities := false, revoke_pm_inbox := false, blocked_mode := false, pfs_enabled :=
      false }

def FileLocation.Whole : FileLocation → Prop
  | .fileLocation _ _ _ _ => True
  | .unavailable _ _ _ => True
  | .encrypted _ _ _ _ key iv => Points Short key ∧ Points Short iv

def UserProfilePhoto.Whole : UserProfilePhoto → Prop
  | .empty => True
  | .photo _ photo_small photo_big => Points FileLocation.Whole photo_small ∧
      Points FileLocation.Whole photo_big

structure TL_user.Whole (u : TL_user) : Prop where
  access_hash : ByFlag u.flags 1 (fun _ => True) u.access_hash
  first_name : ByFlag u.flags 2 Short u.first_name
  last_name : ByFlag u.flags 4 Short u.last_name
  username : ByFlag u.flags 8 Short u.username
  phone : ByFlag u.flags 16 Short u.phone
  photo : ByFlag u.flags 32 (Points UserProfilePhoto.Whole) u.photo
  status : ByFlag u.flags 64 (Points fun _ => True) u.status
  bot_info_version : ByFlag u.flags 16384 (fun _ => True) u.bot_info_version
  restriction_reason : ByFlag u.flags 262144 Short u.restriction_reason
  bot_inline_placeholder : ByFlag u.flags 524288 Short u.bot_inline_placeholder
  lang_code : ByFlag u.flags 4194304 Short u.lang_code

/-! ## Fields -/

section Fields

variable {α : Type} {flags bit : BitVec 32}

theorem codec_putInt32 {x : Option (BitVec 32)} (h : ByFlag flags bit (fun _ => True) x) :
    Codec 0 (putInt32 flags bit x) (flagged (flags &&& bit ≠ 0) readInt32) x :=
  codec_flagged (w := fun x => put (.int32 (x.getD 0))) h.isSome fun a _ => codec_int32 a

theorem codec_putInt64 {x : Option (BitVec 64)} (h : ByFlag flags bit (fun _ => True) x) :
    Codec 0 (putInt64 flags bit x) (flagged (flags &&& bit ≠ 0) readInt64) x :=
  codec_flagged (w := fun x => put (.int64 (x.getD 0))) h.isSome fun a _ => codec_int64 a

theorem codec_putString {x : Option (List UInt8)} (h : ByFlag flags bit Short x) :
    Codec 0 (putString flags bit x) (flagged (flags &&& bit ≠ 0) readString) x :=
  codec_flagged (w := fun x => put (.string (x.getD []))) h.isSome fun a ha =>
    codec_string (h.all a ha)

theorem codec_deref {P : α → Prop} {f : α → Writer} {r : Scan (Option α)} {x : Option α}
    (h : Points P x)
    (hf : ∀ a, P a → Codec 0 (f a) r (some a)) : Codec 0 (deref f x) r x := by
  obtain ⟨a, rfl, ha⟩ := h
  exact hf a ha

theorem codec_putPointer {P : α → Prop} {f : α → Writer} {r : Scan (Option α)}
    {x : Option (Option α)}
    (h : ByFlag flags bit (Points P) x) (hf : ∀ a, P a → Codec 0 (f a) r (some a)) :
    Codec 0 (putPointer flags bit f x) (flagged (flags &&& bit ≠ 0) r) x :=
  codec_flagged (w := fun x => deref f x.join) h.isSome fun a ha => codec_deref (h.all a ha) hf

theorem codec_bytes {x : Option (List UInt8)} (h : Points Short x) :
    Codec 0 (deref (fun b => put (.byteArray b)) x) readByteArray x :=
  codec_deref h fun _ hb => codec_byteArray hb

/-- A bit that is as it should be is not changed. -/
theorem assign_eq (i : ℕ) (hi : i < 32) {value : Bool}
    (h : value = decide (flags &&& BitVec.twoPow 32 i ≠ 0)) :
    assign flags (BitVec.twoPow 32 i) value = flags := by
  rw [BitVec.and_twoPow] at h
  unfold assign
  split at h
  · rename_i set
    have nonzero : BitVec.twoPow 32 i ≠ 0 := by
      intro zero
      have bit := congrArg (fun x => x.getLsbD i) zero
      simp [hi] at bit
    rw [decide_eq_true nonzero] at h
    rw [h, if_pos rfl]
    apply BitVec.eq_of_getLsbD_eq
    intro j _
    rw [BitVec.getLsbD_or, BitVec.getLsbD_twoPow]
    by_cases same : i = j
    · subst same
      rw [set]
      rfl
    · simp [same]
  · rename_i clear
    have cleared : value = false := h
    rw [cleared, if_neg Bool.false_ne_true]
    apply BitVec.eq_of_getLsbD_eq
    intro j hj
    rw [BitVec.getLsbD_and, BitVec.getLsbD_not, BitVec.getLsbD_twoPow]
    by_cases same : i = j
    · subst same
      simpa using clear
    · simp [same, hj]

end Fields

/-! ## Objects -/

theorem codec_opened {α : Type} {m : Writer} {r : Scan α} {a : α} (constructor : BitVec 32)
    (h : Codec 0 m r a) : Codec 4 (do put (.int32 constructor); m) (opened constructor r) a :=
  (codec_uint32 constructor).bind (h.check rfl)

theorem TL_dcOption.assigned_eq {o : TL_dcOption} (h : o.Whole) : o.assigned = o.flags := by
  have ipv6 : assign o.flags 1 o.ipv6 = o.flags := assign_eq 0 (by decide) h.ipv6
  have media_only : assign o.flags 2 o.media_only = o.flags := assign_eq 1 (by decide) h.media_only
  have tcpo_only : assign o.flags 4 o.tcpo_only = o.flags := assign_eq 2 (by decide) h.tcpo_only
  have cdn : assign o.flags 8 o.cdn = o.flags := assign_eq 3 (by decide) h.cdn
  have isStatic : assign o.flags 16 o.isStatic = o.flags := assign_eq 4 (by decide) h.isStatic
  unfold TL_dcOption.assigned
  dsimp only
  rw [ipv6, media_only, tcpo_only, cdn, isStatic]

theorem codec_dcOption {o : TL_dcOption} (h : o.Whole) :
    Codec 4 o.serializeToStream TL_dcOption.TLdeserialize o := by
  unfold TL_dcOption.serializeToStream TL_dcOption.TLdeserialize
  rw [TL_dcOption.assigned_eq h]
  refine (codec_uint32 _).bind (Codec.check rfl ?_)
  refine (codec_int32 _).bind ?_
  refine (codec_int32 _).bind ?_
  refine (codec_string h.ip_address).bind ?_
  refine (codec_int32 _).bind ?_
  refine (codec_putPointer h.secret fun _ hb => codec_byteArray hb).last ?_
  rw [← h.ipv6, ← h.media_only, ← h.tcpo_only, ← h.cdn, ← h.isStatic]

theorem codec_disabledFeature {d : TL_disabledFeature} (h : d.Whole) :
    Codec 4 d.serializeToStream TL_disabledFeature.TLdeserialize d := by
  refine (codec_uint32 _).bind (Codec.check rfl ?_)
  refine (codec_string h.feature).bind ?_
  exact (codec_string h.description).last rfl

theorem codec_config {c : TL_config} (h : c.Whole) :
    Codec 4 c.serializeToStream (opened 0x5c5168f0 TL_config.readParams) (.config c.plain) := by
  refine codec_opened _ ?_
  refine (codec_int32 c.flags).bind ?_
  refine (codec_int32 c.date).bind ?_
  refine (codec_int32 c.expires).bind ?_
  refine (codec_bool c.test_mode).bind ?_
  refine (codec_int32 c.this_dc).bind ?_
  refine (codec_signedVector h.length_dc_options fun o ho =>
    codec_dcOption (h.dc_options o ho)).bind ?_
  refine (codec_string h.dc_txt_domain_name).bind ?_
  refine (codec_int32 c.chat_size_max).bind ?_
  refine (codec_int32 c.megagroup_size_max).bind ?_
  refine (codec_int32 c.forwarded_count_max).bind ?_
  refine (codec_int32 c.online_update_period_ms).bind ?_
  refine (codec_int32 c.offline_blur_timeout_ms).bind ?_
  refine (codec_int32 c.offline_idle_timeout_ms).bind ?_
  refine (codec_int32 c.online_cloud_timeout_ms).bind ?_
  refine (codec_int32 c.notify_cloud_delay_ms).bind ?_
  refine (codec_int32 c.notify_default_delay_ms).bind ?_
  refine (codec_int32 c.push_chat_period_ms).bind ?_
  refine (codec_int32 c.push_chat_limit).bind ?_
  refine (codec_int32 c.saved_gifs_limit).bind ?_
  refine (codec_int32 c.edit_time_limit).bind ?_
  refine (codec_int32 c.revoke_time_limit).bind ?_
  refine (codec_int32 c.revoke_pm_time_limit).bind ?_
  refine (codec_int32 c.rating_e_decay).bind ?_
  refine (codec_int32 c.stickers_recent_limit).bind ?_
  refine (codec_int32 c.stickers_faved_limit).bind ?_
  refine (codec_int32 c.channels_read_media_period).bind ?_
  refine (codec_putInt32 h.tmp_sessions).bind ?_
  refine (codec_int32 c.pinned_dialogs_count_max).bind ?_
  refine (codec_int32 c.pinned_infolder_count_max).bind ?_
  refine (codec_int32 c.call_receive_timeout_ms).bind ?_
  refine (codec_int32 c.call_ring_timeout_ms).bind ?_
  refine (codec_int32 c.call_connect_timeout_ms).bind ?_
  refine (codec_int32 c.call_packet_timeout_ms).bind ?_
  refine (codec_string h.me_url_prefix).bind ?_
  refine (codec_putString h.autoupdate_url_prefix).bind ?_
  refine (codec_putString h.gif_search_username).bind ?_
  refine (codec_putString h.venue_search_username).bind ?_
  refine (codec_putString h.img_search_username).bind ?_
  refine (codec_putString h.static_maps_provider).bind ?_
  refine (codec_int32 c.caption_length_max).bind ?_
  refine (codec_int32 c.message_length_max).bind ?_
  refine (codec_int32 c.webfile_dc_id).bind ?_
  refine (codec_putString h.suggested_lang_code).bind ?_
  refine (codec_putInt32 h.lang_pack_version).bind ?_
  refine (codec_putInt32 h.base_lang_pack_version).bind ?_
  exact (codec_signedVector h.length_disabled_features
    fun d hd => codec_disabledFeature (h.disabled_features d hd)).last rfl

theorem codec_status (status : UserStatus) :
    Codec 0 status.serializeToStream UserStatus.TLdeserialize (some status) := by
  refine Codec.mono (k := 4) ?_ (Nat.zero_le _)
  cases status with
  | offline expires => exact Codec.tagged rfl ((codec_int32 expires).last rfl)
  | lastWeek => exact (codec_uint32 _).last rfl
  | empty => exact (codec_uint32 _).last rfl
  | lastMonth => exact (codec_uint32 _).last rfl
  | online expires => exact Codec.tagged rfl ((codec_int32 expires).last rfl)
  | recently => exact (codec_uint32 _).last rfl

theorem codec_fileLocation (location : FileLocation) (h : location.Whole) :
    Codec 0 location.serializeToStream FileLocation.TLdeserialize (some location) := by
  refine Codec.mono (k := 4) ?_ (Nat.zero_le _)
  cases location with
  | fileLocation dc_id volume_id local_id secret =>
      refine Codec.tagged rfl ?_
      refine (codec_int32 dc_id).bind ?_
      refine (codec_int64 volume_id).bind ?_
      refine (codec_int32 local_id).bind ?_
      exact (codec_int64 secret).last rfl
  | unavailable volume_id local_id secret =>
      refine Codec.tagged rfl ?_
      refine (codec_int64 volume_id).bind ?_
      refine (codec_int32 local_id).bind ?_
      exact (codec_int64 secret).last rfl
  | encrypted dc_id volume_id local_id secret key iv =>
      refine Codec.tagged rfl ?_
      refine (codec_int32 dc_id).bind ?_
      refine (codec_int64 volume_id).bind ?_
      refine (codec_int32 local_id).bind ?_
      refine (codec_int64 secret).bind ?_
      refine (codec_bytes h.1).bind ?_
      exact (codec_bytes h.2).last rfl

theorem codec_photo (photo : UserProfilePhoto) (h : photo.Whole) :
    Codec 0 photo.serializeToStream UserProfilePhoto.TLdeserialize (some photo) := by
  refine Codec.mono (k := 4) ?_ (Nat.zero_le _)
  cases photo with
  | empty => exact (codec_uint32 _).last rfl
  | photo photo_id photo_small photo_big =>
      refine Codec.tagged rfl ?_
      refine (codec_int64 photo_id).bind ?_
      refine (codec_deref h.1 codec_fileLocation).bind ?_
      exact (codec_deref h.2 codec_fileLocation).last rfl

theorem codec_user {u : TL_user} (h : u.Whole) :
    Codec 4 u.serializeToStream (opened 0x2e13f4c3 TL_user.readParams) u := by
  refine codec_opened _ ?_
  refine (codec_int32 u.flags).bind ?_
  refine (codec_int32 u.id).bind ?_
  refine (codec_putInt64 h.access_hash).bind ?_
  refine (codec_putString h.first_name).bind ?_
  refine (codec_putString h.last_name).bind ?_
  refine (codec_putString h.username).bind ?_
  refine (codec_putString h.phone).bind ?_
  refine (codec_putPointer h.photo codec_photo).bind ?_
  refine (codec_putPointer h.status fun status _ => codec_status status).bind ?_
  refine (codec_putInt32 h.bot_info_version).bind ?_
  refine (codec_putString h.restriction_reason).bind ?_
  refine (codec_putString h.bot_inline_placeholder).bind ?_
  exact (codec_putString h.lang_code).last rfl

/-- The two classes that are a vector. -/
theorem codec_withVector (w : Counts.SizeT) (constructor : BitVec 32) (fields : Counts.Fields)
    {msg_ids : List (BitVec 64)} (hlength : msg_ids.length < 2 ^ 32) :
    Codec 4 (do put (.int32 constructor); vector (fun msg_id => put (.int64 msg_id)) msg_ids)
      (opened constructor (Counts.withVector w (pure fields))) { fields, vector := msg_ids } :=
  codec_opened constructor (codec_elements w (Counts.Object.mk fields) hlength)

/-- The parser that the table of `Deserialize` holds for the first of them. -/
theorem codec_msgs_ack {msg_ids : List (BitVec 64)} (hlength : msg_ids.length < 2 ^ 32) :
    Codec 4 (TL_msgs_ack.serializeToStream msg_ids)
      (opened 0x62d6b459 TL_msgs_ack.readParams) (Record.msgs_ack msg_ids) :=
  codec_opened 0x62d6b459 (codec_longVector Record.msgs_ack hlength)

/-! ## The round trips -/

/-- Every class with both directions reads back what it has written, on either width of `size_t`; of
`TL_config` what is read has the `bool` fields of a new object.  The last part is about the parser
of an acknowledgement that `TLdeserialize` runs. -/
theorem codecs_round_trip :
    (∀ c : TL_config, c.Whole →
      RoundTrips c.serializeToStream (opened 0x5c5168f0 TL_config.readParams) (.config c.plain)) ∧
    (∀ o : TL_dcOption, o.Whole → RoundTrips o.serializeToStream TL_dcOption.TLdeserialize o) ∧
    (∀ u : TL_user, u.Whole →
      RoundTrips u.serializeToStream (opened 0x2e13f4c3 TL_user.readParams) u) ∧
    (∀ (w : Counts.SizeT) (msg_ids : List (BitVec 64)), msg_ids.length < 2 ^ 32 →
      RoundTrips (TL_msgs_ack.serializeToStream msg_ids)
        (opened 0x62d6b459 (Counts.TL_msgs_ack.readParams w)) ⟨.msgs_ack, msg_ids⟩) ∧
    (∀ (w : Counts.SizeT) (msg_ids : List (BitVec 64)), msg_ids.length < 2 ^ 32 →
      RoundTrips (TL_msg_resend_req.serializeToStream msg_ids)
        (opened 0x7d861a08 (Counts.TL_msg_resend_req.readParams w)) ⟨.msg_resend_req, msg_ids⟩) ∧
    ∀ msg_ids : List (BitVec 64), msg_ids.length < 2 ^ 32 →
      RoundTrips (TL_msgs_ack.serializeToStream msg_ids)
        (opened 0x62d6b459 TL_msgs_ack.readParams) (Record.msgs_ack msg_ids) := by
  refine ⟨fun c whole => ?_, fun o whole => ?_, fun u whole => ?_, fun w msg_ids length => ?_,
    fun w msg_ids length => ?_, fun msg_ids length => ?_⟩
  · exact (codec_config whole).roundTrips
  · exact (codec_dcOption whole).roundTrips
  · exact (codec_user whole).roundTrips
  · exact (codec_withVector w _ .msgs_ack length).roundTrips
  · exact (codec_withVector w _ .msg_resend_req length).roundTrips
  · exact (codec_msgs_ack length).roundTrips

/-- A configuration without optional fields whose second bit is set. -/
def forgetful : TL_config where
  flags := 2
  phonecalls_enabled := true
  date := 0
  expires := 0
  test_mode := false
  this_dc := 0
  dc_options := []
  dc_txt_domain_name := []
  chat_size_max := 0
  megagroup_size_max := 0
  forwarded_count_max := 0
  online_update_period_ms := 0
  offline_blur_timeout_ms := 0
  offline_idle_timeout_ms := 0
  online_cloud_timeout_ms := 0
  notify_cloud_delay_ms := 0
  notify_default_delay_ms := 0
  push_chat_period_ms := 0
  push_chat_limit := 0
  saved_gifs_limit := 0
  edit_time_limit := 0
  revoke_time_limit := 0
  revoke_pm_time_limit := 0
  rating_e_decay := 0
  stickers_recent_limit := 0
  stickers_faved_limit := 0
  channels_read_media_period := 0
  tmp_sessions := none
  pinned_dialogs_count_max := 0
  pinned_infolder_count_max := 0
  call_receive_timeout_ms := 0
  call_ring_timeout_ms := 0
  call_connect_timeout_ms := 0
  call_packet_timeout_ms := 0
  me_url_prefix := []
  autoupdate_url_prefix := none
  gif_search_username := none
  venue_search_username := none
  img_search_username := none
  static_maps_provider := none
  caption_length_max := 0
  message_length_max := 0
  webfile_dc_id := 0
  suggested_lang_code := none
  lang_pack_version := none
  base_lang_pack_version := none
  disabled_features := []

theorem byFlag_none {α : Type} {flags bit : BitVec 32} {P : α → Prop} (h : flags &&& bit = 0) :
    ByFlag flags bit P none :=
  ⟨by simp [h], by simp⟩

theorem forgetful_whole : forgetful.Whole where
  dc_options := by simp [forgetful]
  length_dc_options := by decide
  dc_txt_domain_name := by decide
  tmp_sessions := byFlag_none rfl
  me_url_prefix := by decide
  autoupdate_url_prefix := byFlag_none rfl
  gif_search_username := byFlag_none rfl
  venue_search_username := byFlag_none rfl
  img_search_username := byFlag_none rfl
  static_maps_provider := byFlag_none rfl
  suggested_lang_code := byFlag_none rfl
  lang_pack_version := byFlag_none rfl
  base_lang_pack_version := byFlag_none rfl
  disabled_features := by simp [forgetful]
  length_disabled_features := by decide

theorem byFlag_some {α : Type} {flags bit : BitVec 32} {P : α → Prop} {a : α}
    (h : flags &&& bit ≠ 0) (own : P a) : ByFlag flags bit P (some a) :=
  ⟨iff_of_true rfl h, fun _ hb => Option.some.inj hb ▸ own⟩

/-- An IPv6 address with a secret. -/
def secretOption : TL_dcOption where
  flags := 1025
  ipv6 := true
  media_only := false
  tcpo_only := false
  cdn := false
  isStatic := false
  id := 2
  ip_address := [50, 48, 48, 49, 58, 58, 50]
  port := 443
  secret := some (some [0xdd, 1, 2])

theorem secretOption_whole : secretOption.Whole where
  ipv6 := by decide
  media_only := by decide
  tcpo_only := by decide
  cdn := by decide
  isStatic := by decide
  ip_address := by decide
  secret := byFlag_some (by decide) ⟨_, rfl, by decide⟩

/-- A configuration with an address, the fields of three bits and a disabled feature. -/
def settledConfig : TL_config :=
  { forgetful with
    flags := 133
    test_mode := true
    dc_options := [secretOption]
    tmp_sessions := some 3
    autoupdate_url_prefix := some [116, 46, 109, 101]
    suggested_lang_code := some [101, 110]
    lang_pack_version := some 7
    base_lang_pack_version := some 8
    disabled_features := [⟨[99, 104, 97, 116], []⟩] }

theorem settledConfig_whole : settledConfig.Whole where
  dc_options := by simpa [settledConfig] using secretOption_whole
  length_dc_options := by decide
  dc_txt_domain_name := by decide
  tmp_sessions := byFlag_some (by decide) trivial
  me_url_prefix := by decide
  autoupdate_url_prefix := byFlag_some (by decide) (by decide)
  gif_search_username := byFlag_none rfl
  venue_search_username := byFlag_none rfl
  img_search_username := byFlag_none rfl
  static_maps_provider := byFlag_none rfl
  suggested_lang_code := byFlag_some (by decide) (by decide)
  lang_pack_version := byFlag_some (by decide) trivial
  base_lang_pack_version := byFlag_some (by decide) trivial
  disabled_features := by simpa [settledConfig] using ⟨by decide, by decide⟩
  length_disabled_features := by decide

/-- A user with a hash, a name, a photo in two files and a status. -/
def onlineUser : TL_user where
  flags := 99
  id := 5
  access_hash := some 0x1122334455667788
  first_name := some [65, 110, 110]
  last_name := none
  username := none
  phone := none
  photo := some (some (.photo 9 (some (.fileLocation 2 10 11 12))
    (some (.encrypted 2 13 14 15 (some [1, 2, 3]) (some [4])))))
  status := some (some (.online 1600000000))
  bot_info_version := none
  restriction_reason := none
  bot_inline_placeholder := none
  lang_code := none

theorem onlineUser_whole : onlineUser.Whole where
  access_hash := byFlag_some (by decide) trivial
  first_name := byFlag_some (by decide) (by decide)
  last_name := byFlag_none rfl
  username := byFlag_none rfl
  phone := byFlag_none rfl
  photo := byFlag_some (by decide)
    ⟨_, rfl, ⟨_, rfl, trivial⟩, _, rfl, ⟨_, rfl, by decide⟩, _, rfl, by decide⟩
  status := byFlag_some (by decide) ⟨_, rfl, trivial⟩
  bot_info_version := byFlag_none rfl
  restriction_reason := byFlag_none rfl
  bot_inline_placeholder := byFlag_none rfl
  lang_code := byFlag_none rfl

theorem codecs_round_trip_samples :
    RoundTrips settledConfig.serializeToStream (opened 0x5c5168f0 TL_config.readParams)
      (.config settledConfig.plain) ∧
    RoundTrips secretOption.serializeToStream TL_dcOption.TLdeserialize secretOption ∧
    RoundTrips onlineUser.serializeToStream (opened 0x2e13f4c3 TL_user.readParams) onlineUser ∧
    RoundTrips (TL_msgs_ack.serializeToStream [5, 9])
      (opened 0x62d6b459 (Counts.TL_msgs_ack.readParams .bits32)) ⟨.msgs_ack, [5, 9]⟩ ∧
    RoundTrips (TL_msg_resend_req.serializeToStream [13])
      (opened 0x7d861a08 (Counts.TL_msg_resend_req.readParams .bits64)) ⟨.msg_resend_req, [13]⟩ ∧
    RoundTrips (TL_msgs_ack.serializeToStream [5, 9])
      (opened 0x62d6b459 TL_msgs_ack.readParams) (Record.msgs_ack [5, 9]) := by
  obtain ⟨config, option, user, ack, resend, parsed⟩ := codecs_round_trip
  exact ⟨config _ settledConfig_whole, option _ secretOption_whole, user _ onlineUser_whole,
    ack .bits32 [5, 9] (by decide), resend .bits64 [13] (by decide), parsed [5, 9] (by decide)⟩

/-- Of `2 ^ 32` identifiers the number that is written is zero. -/
theorem msgs_ack_lost {msg_ids : List (BitVec 64)} (hlength : msg_ids.length = 2 ^ 32)
    (w : Counts.SizeT) :
    ¬ RoundTrips (TL_msgs_ack.serializeToStream msg_ids)
      (opened 0x62d6b459 (Counts.TL_msgs_ack.readParams w)) ⟨.msgs_ack, msg_ids⟩ := by
  intro kept
  have written : TL_msgs_ack.serializeToStream msg_ids = TL_msgs_ack.serializeToStream [] := by
    have hcount : u32 (2 ^ 32) = 0 := Nat.mod_self _
    unfold TL_msgs_ack.serializeToStream vector
    rw [hlength, hcount, List.take_zero]
    rfl
  rw [written] at kept
  have none : ([] : List (BitVec 64)).length < 2 ^ 32 := by decide
  have calls : TL_msgs_ack.serializeToStream [] [] =
    (some (), (TL_msgs_ack.serializeToStream [] []).2) := rfl
  have read := (codec_withVector w 0x62d6b459 .msgs_ack none).roundTrips
  have same := RoundTrips.unique calls (by decide) kept read
  have length := congrArg (fun object => object.vector.length) same
  rw [hlength] at length
  exact absurd length (by decide)

/-- `phonecalls_enabled` is lost, and so are `2 ^ 32` identifiers. -/
theorem codecs_not_round_trip :
    (forgetful.Whole ∧
      ¬ RoundTrips forgetful.serializeToStream (opened 0x5c5168f0 TL_config.readParams)
        (.config forgetful)) ∧
    ¬ RoundTrips (TL_msgs_ack.serializeToStream (List.replicate (2 ^ 32) 0))
      (opened 0x62d6b459 (Counts.TL_msgs_ack.readParams .bits64))
      ⟨.msgs_ack, List.replicate (2 ^ 32) 0⟩ := by
  refine ⟨⟨forgetful_whole, ?_⟩, msgs_ack_lost List.length_replicate .bits64⟩
  intro kept
  have read := (codec_config forgetful_whole).roundTrips
  have calls : forgetful.serializeToStream [] = (some (), (forgetful.serializeToStream []).2) := rfl
  have same := RoundTrips.unique calls (by decide +kernel) kept read
  have plain : forgetful = forgetful.plain := Record.config.inj same
  exact absurd (congrArg TL_config.phonecalls_enabled plain) (by decide)

end Mtproto.Scheme
