import Mtproto.Persistence.State

/-!
# The saved state is restored

Every serializer of the saved state has a reader that parses its bytes.  The parts are put together
from the addresses and keys over the datacenters to the client, and what `loadConfig` does after
reading leaves the restored client as it is.
-/

namespace Mtproto.Persistence

open Bytes Streams Streams.Native Tgnet

/-! ## Parts -/

section Parts

variable {α β : Type} {data : List UInt8}

theorem Parses.bind_pure {r : Reader α} {a : α} (f : α → β) (hr : Parses r data a) :
    Parses (do let a ← r; pure (f a)) data (f a) := by
  rw [← List.append_nil data]
  exact hr.bind (parses_pure _)

theorem parses_readWhen {present : Bool} {r : Reader α} {absent a : α} (hpresent : present = true)
    (hr : Parses r data a) : Parses (Datacenter.readWhen present r absent) data a := by
  rw [Datacenter.readWhen, if_pos hpresent]
  exact hr

theorem parses_readWhen_absent {present : Bool} {r : Reader α} (absent : α)
    (hpresent : present = false) :
    Parses (Datacenter.readWhen present r absent) [] absent := by
  rw [Datacenter.readWhen, if_neg (by simp [hpresent])]
  exact parses_pure absent

theorem spellAll_serializeList (f : α → List (Value (List UInt8))) (as : List α) :
    spellAll (Datacenter.serializeList f as) =
      spell (.int32 (BitVec.ofNat 32 as.length)) ++ as.flatMap fun a => spellAll (f a) := by
  rw [Datacenter.serializeList, spellAll_cons, spellAll, List.flatMap_assoc]
  rfl

theorem toNat_ofNat_of_lt {n : ℕ} (h : n < 2 ^ 32) : (BitVec.ofNat 32 n).toNat = n := by
  rw [BitVec.toNat_ofNat, Nat.mod_eq_of_lt h]

theorem parses_readList {r : Reader β} {f : α → List (Value (List UInt8))} {g : α → β} {as : List α}
    (hlength : as.length < 2 ^ 32) (h : ∀ a ∈ as, Parses r (spellAll (f a)) (g a)) :
    Parses (Datacenter.readList r) (spellAll (Datacenter.serializeList f as)) (as.map g) := by
  rw [spellAll_serializeList]
  refine (parses_int32 _).bind ?_
  rw [toNat_ofNat_of_lt hlength]
  exact parses_readMany h

end Parts

/-! ## Datacenters -/

namespace Datacenter

/-- The strings of an address fit their length prefix. -/
def Short (a : TcpAddress) : Prop := a.address.length < 2 ^ 24 ∧ a.secret.length < 2 ^ 24

/-- An address as it is read back. -/
def rehomed (address : List UInt8) (port : BitVec 32) (a : TcpAddress) : TcpAddress :=
  { a with address := address, port := port }

section

variable (address : List UInt8) (port : BitVec 32)

theorem parses_address {a : TcpAddress} (ha : Short a) :
    Parses (readAddress configVersion address port) (spellAll (serializeAddress a))
      (rehomed address port a) := by
  rw [serializeAddress, spellAll_cons, spellAll_cons, spellAll_cons, spellAll_cons]
  refine (parses_string ha.1).bind ((parses_int32 _).bind ?_)
  refine (parses_readWhen (by decide) (parses_int32 _)).bind ?_
  rw [spellAll, List.flatMap_nil, List.append_nil]
  exact Parses.bind_pure _ (parses_readWhen (by decide) (parses_string ha.2))

theorem parses_key {key : Option (List UInt8)} (hkey : key ≠ some [])
    (hlength : (spellAll (serializeKey key)).length < 2 ^ 32) :
    Parses readKey (spellAll (serializeKey key)) key := by
  cases key with
  | none =>
    rw [serializeKey, spellAll_cons]
    exact (parses_int32 _).bind (parses_readWhen_absent none rfl)
  | some b =>
    rw [serializeKey, spellAll_cons, spellAll_cons, spellAll, List.flatMap_nil, List.append_nil]
      at hlength ⊢
    have hb : b.length < 2 ^ 32 := by
      rw [List.length_append, spell, length_toLE, spell] at hlength
      omega
    have hpos : 0 < b.length := List.length_pos_iff.2 fun h => hkey (by rw [h])
    refine (parses_int32 _).bind ?_
    rw [toNat_ofNat_of_lt hb]
    refine parses_readWhen ?_ (parses_bytes b)
    have hne : BitVec.ofNat 32 b.length ≠ 0 := by
      intro h
      have hzero := congrArg BitVec.toNat h
      rw [toNat_ofNat_of_lt hb] at hzero
      exact hpos.ne' hzero
    simpa using hne

theorem parses_keyPermId (id : BitVec 64) :
    Parses (readKeyPermId configVersion) (spell (.int64 id)) id := by
  have hread := (parses_readWhen_absent (r := Input.readInt32) (1 : BitVec 32)
    (show (!decide (4 ≤ configVersion)) = false from rfl)).bind
    (f := fun len => readWhen (len ≠ 0) Input.readInt64 0)
    (parses_readWhen (by decide) (parses_int64 id))
  exact hread

theorem parses_salt (salt : FutureSalt) : Parses readSalt (spellAll (serializeSalt salt)) salt := by
  rw [serializeSalt, spellAll_cons, spellAll_cons, spellAll_cons, spellAll, List.flatMap_nil,
    List.append_nil]
  refine (parses_int32 _).bind ((parses_int32 _).bind ?_)
  exact Parses.bind_pure _ (parses_int64 _)

/-- A datacenter as it is read back: without connections, at the configured address. -/
def reloaded (d : Datacenter) : Datacenter where
  datacenterId := d.datacenterId
  lastInitVersion := d.lastInitVersion
  lastInitMediaVersion := d.lastInitMediaVersion
  addressesIpv4 := d.addressesIpv4.map (rehomed address port)
  addressesIpv6 := d.addressesIpv6.map (rehomed address port)
  addressesIpv4Download := d.addressesIpv4Download.map (rehomed address port)
  addressesIpv6Download := d.addressesIpv6Download.map (rehomed address port)
  isCdnDatacenter := d.isCdnDatacenter
  authKeyPerm := d.authKeyPerm
  authKeyPermId := d.authKeyPermId
  authKeyTemp := d.authKeyTemp
  authKeyTempId := d.authKeyTempId
  authorized := d.authorized
  serverSalts := d.serverSalts

/-- The strings are short and no key is empty. -/
structure Savable (d : Datacenter) : Prop where
  addresses :
    ∀ a ∈ d.addressesIpv4 ++ d.addressesIpv6 ++ d.addressesIpv4Download ++ d.addressesIpv6Download,
    Short a
  keyPerm : d.authKeyPerm ≠ some []
  keyTemp : d.authKeyTemp ≠ some []

theorem length_le_spellAll {α : Type} {f : α → List (Value (List UInt8))}
    (hf : ∀ a, 0 < (spellAll (f a)).length)
    (as : List α) : as.length ≤ (spellAll (serializeList f as)).length := by
  rw [spellAll_serializeList, List.length_append]
  induction as with
  | nil => simp
  | cons a as ih =>
    have ha := hf a
    rw [List.flatMap_cons, List.length_append, List.length_cons]
    simp only [spell, length_toLE] at ih ⊢
    omega

theorem spellAll_serializeAddress_pos (a : TcpAddress) :
    0 < (spellAll (serializeAddress a)).length := by
  rw [serializeAddress, spellAll_cons, spellAll_cons, List.length_append, List.length_append]
  simp only [spell, length_toLE]
  omega

theorem spellAll_serializeSalt_pos (salt : FutureSalt) :
    0 < (spellAll (serializeSalt salt)).length := by
  rw [serializeSalt, spellAll_cons, List.length_append]
  simp only [spell, length_toLE]
  omega

theorem parses_addresses {as : List TcpAddress} (has : ∀ a ∈ as, Short a)
    (hsize : (spellAll (serializeList serializeAddress as)).length < 2 ^ 32) :
    Parses (readList (readAddress configVersion address port))
      (spellAll (serializeList serializeAddress as)) (as.map (rehomed address port)) := by
  have hlength := length_le_spellAll spellAll_serializeAddress_pos as
  exact parses_readList (by omega) fun a ha => parses_address address port (has a ha)

theorem parses_salts {salts : List FutureSalt}
    (hsize : (spellAll (serializeList serializeSalt salts)).length < 2 ^ 32) :
    Parses (readList readSalt) (spellAll (serializeList serializeSalt salts)) salts := by
  have hlength := length_le_spellAll spellAll_serializeSalt_pos salts
  have hparses := parses_readList (by omega) fun salt (_ : salt ∈ salts) => parses_salt salt
  rwa [List.map_id'] at hparses

theorem parses_ofData {d : Datacenter} (hd : d.Savable)
    (hsize : (spellAll d.serializeToStream).length < 2 ^ 32) :
    Parses (ofData address port) (spellAll d.serializeToStream) (d.reloaded address port) := by
  unfold serializeToStream at hsize ⊢
  simp only [spellAll_cons, spellAll_append] at hsize ⊢
  simp only [List.length_append] at hsize
  have hshort := hd.addresses
  simp only [List.mem_append, or_assoc] at hshort
  have hauthorized : decide ((if d.authorized then (1 : BitVec 32) else 0) ≠ 0) = d.authorized := by
    cases d.authorized <;> rfl
  refine (parses_int32 _).bind ?_
  rw [if_pos (by decide), readFields]
  refine (parses_int32 _).bind ?_
  refine (parses_readWhen rfl (parses_int32 _)).bind ?_
  refine (parses_readWhen rfl (parses_int32 _)).bind ?_
  refine (parses_addresses address port (fun a ha => hshort a (.inl ha)) (by omega)).bind ?_
  refine (parses_readWhen rfl
    (parses_addresses address port (fun a ha => hshort a (.inr (.inl ha))) (by omega))).bind ?_
  refine (parses_readWhen rfl
    (parses_addresses address port (fun a ha => hshort a (.inr (.inr (.inl ha)))) (by omega))).bind
      ?_
  refine (parses_readWhen rfl
    (parses_addresses address port (fun a ha => hshort a (.inr (.inr (.inr ha)))) (by omega))).bind
      ?_
  refine (parses_readWhen rfl (parses_bool _)).bind ?_
  refine (parses_key hd.keyPerm (by omega)).bind ?_
  refine (parses_keyPermId _).bind ?_
  refine (parses_readWhen rfl (parses_key hd.keyTemp (by omega))).bind ?_
  refine (parses_readWhen rfl (parses_int64 _)).bind ?_
  refine (parses_int32 _).bind ?_
  rw [hauthorized]
  exact Parses.bind_pure _ (parses_salts (by omega))

end

end Datacenter

/-! ## The map -/

namespace Datacenters

/-- Entries in the order of their ids are appended. -/
theorem place_of_lt {d : Datacenter} {entries : List Datacenter}
    (h : ∀ e ∈ entries, e.datacenterId < d.datacenterId) : place d entries = entries ++ [d] := by
  induction entries with
  | nil => rfl
  | cons e rest ih =>
    have he := h e (by simp)
    rw [place, if_neg (BitVec.not_lt.2 (BitVec.le_of_lt he)), if_neg, ih fun f hf =>
      h f (by simp [hf])]
    · rfl
    · intro heq
      rw [heq] at he
      exact BitVec.lt_irrefl _ he

theorem entries_foldl_insert {m : Datacenters} {more : List Datacenter}
    (h : (m.entries ++ more).Pairwise fun d e => d.datacenterId < e.datacenterId) :
    (more.foldl insert m).entries = m.entries ++ more := by
  induction more generalizing m with
  | nil => simp
  | cons d more ih =>
    have hplace : (m.insert d).entries = m.entries ++ [d] := by
      apply place_of_lt
      intro e he
      exact (List.pairwise_append.1 h).2.2 e he d (by simp)
    rw [List.foldl_cons, ih, hplace, List.append_assoc]
    · rfl
    · rw [hplace, List.append_assoc]
      exact h

variable (address : List UInt8) (port : BitVec 32)

/-- The map as it is read back. -/
def reloaded (m : Datacenters) : Datacenters :=
  ⟨m.entries.map (Datacenter.reloaded address port), by
    rw [List.pairwise_map]
    exact m.sorted⟩

theorem find_reloaded (m : Datacenters) (id : BitVec 32) :
    (m.reloaded address port).find id = (m.find id).map (Datacenter.reloaded address port) := by
  rw [find, reloaded, List.find?_map]
  rfl

theorem foldl_insert_reloaded (m : Datacenters) :
    (m.entries.map (Datacenter.reloaded address port)).foldl insert empty =
      m.reloaded address port := by
  have hentries := @entries_foldl_insert empty (m.entries.map (Datacenter.reloaded address port))
    (m.reloaded address port).sorted
  rcases hfold : (m.entries.map (Datacenter.reloaded address port)).foldl insert empty with
    ⟨entries, hsorted⟩
  rw [hfold] at hentries
  obtain rfl := hentries
  rfl

end Datacenters

/-! ## The client -/

namespace Client

/-- A client before `loadConfig`. -/
def start (ipAddress : List UInt8) (port currentUserId : BitVec 32) : Client :=
  { ipAddress, port, currentUserId }

/-- The states of the client that are restored: the current datacenter exists with a non-zero id,
and with a permanent key for a logged-in user, the push session is set, number 2 exists, and every
datacenter is savable. -/
structure Savable (s : Client) (current : Datacenter) : Prop where
  found : s.getDatacenterWithId s.currentDatacenterId = some current
  current_ne_zero : s.currentDatacenterId ≠ 0
  push_ne_zero : s.pushSessionId ≠ 0
  key : s.currentUserId = 0 ∨ current.authKeyPerm ≠ none
  two : s.datacenters.find 2 ≠ none
  datacenters : ∀ d ∈ s.datacenters.entries, d.Savable

/-- The client that is read back on the backend `address`. -/
def restored (s : Client) (current : Datacenter) (ipAddress : List UInt8) (port : BitVec 32) :
    Client where
  clientBlocked := s.clientBlocked
  currentDatacenterId := s.currentDatacenterId
  timeDifference := s.timeDifference
  lastDcUpdateTime := s.lastDcUpdateTime
  pushSessionId := s.pushSessionId
  registeredForInternalPush := s.registeredForInternalPush
  sessionsToDestroy := current.getSessions
  datacenters := s.datacenters.reloaded ipAddress port
  currentUserId := s.currentUserId
  ipAddress := ipAddress
  port := port

section

variable {s : Client} {current : Datacenter} {ipAddress : List UInt8} {port : BitVec 32}

theorem parses_sessions {sessions : List (BitVec 64)}
    (hsize : (spellAll
      (Datacenter.serializeList (fun session => [.int64 session]) sessions)).length < 2 ^ 32) :
    Parses (Datacenter.readList Input.readInt64)
      (spellAll (Datacenter.serializeList (fun session => [.int64 session]) sessions))
        sessions := by
  have hone : ∀ session : BitVec 64, spellAll [.int64 session] = spell (.int64 session) :=
    fun session => by
    rw [spellAll_cons, spellAll, List.flatMap_nil, List.append_nil]
  have hlength := Datacenter.length_le_spellAll (f := fun session => [.int64 session])
    (fun session => by rw [hone, spell, length_toLE]; omega) sessions
  have hparses := parses_readList (r := Input.readInt64) (f := fun session => [.int64 session])
    (by omega) fun session (_ : session ∈ sessions) => by
      rw [hone]
      exact parses_int64 session
  rwa [List.map_id'] at hparses

theorem parses_datacenters (ipAddress : List UInt8) (port : BitVec 32)
    (hs : ∀ d ∈ s.datacenters.entries, d.Savable)
    (hsize : (spellAll (Datacenter.serializeList Datacenter.serializeToStream
      s.datacenters.entries)).length < 2 ^ 32) :
    Parses (Datacenter.readList (Datacenter.ofData ipAddress port))
      (spellAll (Datacenter.serializeList Datacenter.serializeToStream s.datacenters.entries))
      (s.datacenters.entries.map (Datacenter.reloaded ipAddress port)) := by
  have hlength := Datacenter.length_le_spellAll (f := Datacenter.serializeToStream) (fun d => by
    rw [Datacenter.serializeToStream, spellAll_cons, List.length_append, spell, length_toLE]
    omega) s.datacenters.entries
  refine parses_readList (by omega) fun d hd => Datacenter.parses_ofData ipAddress port (hs d hd) ?_
  rw [spellAll_serializeList, List.length_append] at hsize
  have hle : (spellAll d.serializeToStream).length ≤
      (s.datacenters.entries.flatMap fun d => spellAll d.serializeToStream).length := by
    rw [List.flatMap_def]
    have hmem : spellAll d.serializeToStream ∈
        s.datacenters.entries.map fun d => spellAll d.serializeToStream := List.mem_map_of_mem hd
    exact (List.sublist_flatten_of_mem hmem).length_le
  omega

theorem parses_readConfig (ipAddress : List UInt8) (port : BitVec 32) (hs : s.Savable current)
    (hsize : (spellAll s.saveConfigInternal).length < 2 ^ 32) :
    Parses (readConfig (start ipAddress port s.currentUserId)) (spellAll s.saveConfigInternal)
      (s.restored current ipAddress port) := by
  unfold saveConfigInternal at hsize ⊢
  simp only [hs.found, spellAll_cons, spellAll_append] at hsize ⊢
  simp only [List.length_append] at hsize
  refine (parses_int32 _).bind ?_
  rw [if_pos (by decide)]
  refine (parses_bool _).bind ?_
  refine (parses_readWhen rfl (parses_bool _)).bind ?_
  refine (parses_bool _).bind ?_
  rw [if_pos rfl]
  refine (parses_int32 _).bind ?_
  refine (parses_int32 _).bind ?_
  refine (parses_int32 _).bind ?_
  refine (parses_int64 _).bind ?_
  refine (parses_readWhen rfl (parses_bool _)).bind ?_
  refine (parses_sessions (by omega)).bind ?_
  have hread := Parses.bind_pure (fun datacenters => ({ s.restored current ipAddress port with
    datacenters := datacenters.foldl Datacenters.insert Datacenters.empty } : Client))
    (parses_datacenters ipAddress port hs.datacenters (by omega))
  rw [Datacenters.foldl_insert_reloaded] at hread
  exact hread

theorem capacity_saveConfig (hsize : (spellAll s.saveConfigInternal).length < 2 ^ 32) :
    (writeAll write s.saveConfigInternal Output.calculator).buffer.capacity =
      (spellAll s.saveConfigInternal).length := by
  have hcalculator : Output.calculator.buffer.capacity = 0 := rfl
  generalize s.saveConfigInternal = calls at hsize ⊢
  rw [writeAll_counted rfl (by rw [hcalculator]; decide), Output.counted]
  dsimp only
  rw [hcalculator, Nat.zero_add, u32_of_lt hsize]

theorem saveConfig_eq (hsize : (spellAll s.saveConfigInternal).length < 2 ^ 32) :
    s.saveConfig = spellAll s.saveConfigInternal := by
  have hroom : (Output.fresh (spellAll s.saveConfigInternal).length).Room
      (spellAll s.saveConfigInternal).length :=
    ⟨rfl, NativeByteBuffer.wf_new hsize, (Nat.zero_add _).le⟩
  unfold saveConfig
  dsimp only
  rw [capacity_saveConfig hsize, writeAll_spell hroom, Output.filled_wrote hroom]
  exact List.nil_append _

theorem getDatacenterWithId_restored (hs : s.Savable current) :
    (s.restored current ipAddress port).getDatacenterWithId s.currentDatacenterId =
      some (current.reloaded ipAddress port) := by
  have hfound := hs.found
  unfold getDatacenterWithId at hfound ⊢
  show (if _ then (s.datacenters.reloaded ipAddress port).find s.currentDatacenterId
    else (s.datacenters.reloaded ipAddress port).find s.currentDatacenterId) = _
  rw [ite_self] at hfound ⊢
  rw [Datacenters.find_reloaded, hfound]
  rfl

theorem resetAuthorization_restored (hs : s.Savable current) :
    (s.restored current ipAddress port).resetAuthorization = (s.restored current ipAddress port,
      false) := by
  have hfind : (s.restored current ipAddress port).getDatacenterWithId
      (s.restored current ipAddress port).currentDatacenterId =
        some (current.reloaded ipAddress port) :=
    getDatacenterWithId_restored hs
  unfold resetAuthorization
  split
  · rename_i h
    have hkey : (current.reloaded ipAddress port).authKeyPerm.isSome = true := by
      rcases hs.key with hkey | hkey
      · exact absurd hkey h.2
      · exact Option.isSome_iff_ne_none.2 hkey
    rw [hfind]
    exact if_pos hkey
  · rfl

theorem initDatacenters_restored (hs : s.Savable current) :
    (s.restored current ipAddress port).initDatacenters = s.restored current ipAddress port := by
  obtain ⟨d, hd⟩ := Option.ne_none_iff_exists'.1 hs.two
  have hfind : (s.restored current ipAddress port).datacenters.find 2 =
      some (d.reloaded ipAddress port) := by
    show (s.datacenters.reloaded ipAddress port).find 2 = _
    rw [Datacenters.find_reloaded, hd]
    rfl
  unfold initDatacenters
  rw [hfind]

theorem initSession_restored (hs : s.Savable current) (random : BitVec 64) :
    (s.restored current ipAddress port).initSession random = (s.restored current ipAddress port,
      false) := by
  unfold initSession
  rw [if_neg]
  rintro (⟨-, h⟩ | h)
  · exact hs.current_ne_zero h
  · exact hs.push_ne_zero h

/-- What is saved is restored, and the buffer is read to its end. -/
theorem loadConfig_saveConfig (s : Client) (current : Datacenter) (hs : s.Savable current)
    (hsize : (spellAll s.saveConfigInternal).length < 2 ^ 32) (ipAddress : List UInt8)
    (port : BitVec 32)
    (random : BitVec 64) :
    let loaded := loadConfig (start ipAddress port s.currentUserId) (some s.saveConfig) random
    loaded.client = s.restored current ipAddress port ∧
      (∃ input, loaded.input = some input ∧ input.buffer.position = input.buffer.limit ∧
        input.buffer.limit = s.saveConfig.length) ∧
      loaded.logout = false ∧ loaded.saved = false := by
  have hwf := NativeByteBuffer.wf_sliced hsize
  have hahead : ({ buffer := .sliced (spellAll s.saveConfigInternal) } : Input).Ahead
      (spellAll s.saveConfigInternal) [] :=
    ⟨hwf, by rw [NativeByteBuffer.unread_sliced, List.append_nil]⟩
  have hread := parses_readConfig ipAddress port hs hsize _ _ hahead
  rw [saveConfig_eq hsize]
  simp only [loadConfig, hread, resetAuthorization_restored hs, initDatacenters_restored hs,
    initSession_restored hs]
  refine ⟨trivial, ⟨_, rfl, ?_, rfl⟩, trivial, trivial⟩
  show 0 + _ = _
  rw [Nat.zero_add]
  rfl

/-- A datacenter with a key, an address and a salt. -/
def sampleDatacenter : Datacenter :=
  { datacenterId := 2, addressesIpv4 := [⟨[49, 50], 443, 1, [7]⟩], authKeyPerm := some [1, 2, 3, 4]
    authKeyPermId := 9, authorized := true, serverSalts := [⟨10, 20, 30⟩], genericConnection :=
      some 5 }

/-- A logged-in client with this datacenter. -/
def sampleClient : Client :=
  { clientBlocked := false, currentDatacenterId := 2, timeDifference := 3, pushSessionId := 4
    datacenters := ⟨[sampleDatacenter], by simp⟩, currentUserId := 1, ipAddress := [49], port :=
      80 }

theorem savable_sampleClient : sampleClient.Savable sampleDatacenter where
  found := rfl
  current_ne_zero := by decide
  push_ne_zero := by decide
  key := .inr (by decide)
  two := by decide
  datacenters := by
    intro d hd
    obtain rfl := List.mem_singleton.1 hd
    refine ⟨?_, by decide, by decide⟩
    intro a ha
    obtain rfl := List.mem_singleton.1 (show a ∈ sampleDatacenter.addressesIpv4 from ha)
    exact ⟨by decide, by decide⟩

theorem loadConfig_saveConfig_sample :
    sampleClient.Savable sampleDatacenter ∧
      (loadConfig (start [48] 90 1) (some sampleClient.saveConfig) 0).client =
        sampleClient.restored sampleDatacenter [48] 90 :=
  ⟨savable_sampleClient,
    (loadConfig_saveConfig sampleClient sampleDatacenter savable_sampleClient (by decide +kernel)
      [48] 90 0).1⟩

end

end Client

end Mtproto.Persistence
