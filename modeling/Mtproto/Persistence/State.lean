import Mtproto.Streams.Calls

/-!
# The saved state

`saveConfigInternal` and `loadConfig` of `ConnectionsManager.cpp` with the serialization of
`Datacenter.cpp`.  What is serialized is the list of the calls on the buffer; the readers follow the
source with its version-dependent branches.  The second file of a datacenter, which holds the
current address and port numbers, is not touched by either and left out.
-/

namespace Mtproto.Persistence

open Streams Streams.Native Tgnet

/-! ## Datacenters -/

structure TcpAddress where
  address : List UInt8
  port : BitVec 32
  flags : BitVec 32
  secret : List UInt8
deriving DecidableEq, Repr

/-- `TL_future_salt`. -/
structure FutureSalt where
  validSince : BitVec 32
  validUntil : BitVec 32
  salt : BitVec 64
deriving DecidableEq, Repr

/-- A connection is its session id, or null. -/
abbrev Session := Option (BitVec 64)

structure Datacenter where
  datacenterId : BitVec 32 := 0
  lastInitVersion : BitVec 32 := 0
  lastInitMediaVersion : BitVec 32 := 0
  addressesIpv4 : List TcpAddress := []
  addressesIpv6 : List TcpAddress := []
  addressesIpv4Download : List TcpAddress := []
  addressesIpv6Download : List TcpAddress := []
  isCdnDatacenter : Bool := false
  authKeyPerm : Option (List UInt8) := none
  authKeyPermId : BitVec 64 := 0
  authKeyTemp : Option (List UInt8) := none
  authKeyTempId : BitVec 64 := 0
  authorized : Bool := false
  serverSalts : List FutureSalt := []
  genericConnection : Session := none
  genericMediaConnection : Session := none
  tempConnection : Session := none
  uploadConnection : List Session := List.replicate 4 none
  downloadConnection : List Session := List.replicate 2 none
  proxyConnection : List Session := List.replicate 4 none
deriving DecidableEq, Repr

namespace Datacenter

/-- `getSessions`. -/
def getSessions (d : Datacenter) : List (BitVec 64) :=
  ([d.genericConnection, d.genericMediaConnection, d.tempConnection] ++ d.uploadConnection ++
    d.downloadConnection ++ d.proxyConnection).filterMap id

def configVersion : BitVec 32 := 10

/-- The calls for one address. -/
def serializeAddress (a : TcpAddress) : List (Value (List UInt8)) :=
  [.string a.address, .int32 a.port, .int32 a.flags, .string a.secret]

/-- A list with its length. -/
def serializeList {α : Type} (f : α → List (Value (List UInt8))) (as : List α) :
    List (Value (List UInt8)) :=
  .int32 (BitVec.ofNat 32 as.length) :: as.flatMap f

/-- A key with its length, a null key as the length zero. -/
def serializeKey : Option (List UInt8) → List (Value (List UInt8))
  | some key => [.int32 (BitVec.ofNat 32 key.length), .bytes key]
  | none => [.int32 0]

def serializeSalt (salt : FutureSalt) : List (Value (List UInt8)) :=
  [.int32 salt.validSince, .int32 salt.validUntil, .int64 salt.salt]

/-- `serializeToStream`. -/
def serializeToStream (d : Datacenter) : List (Value (List UInt8)) :=
  .int32 configVersion :: .int32 d.datacenterId :: .int32 d.lastInitVersion ::
  .int32 d.lastInitMediaVersion ::
  (serializeList serializeAddress d.addressesIpv4 ++
  (serializeList serializeAddress d.addressesIpv6 ++
  (serializeList serializeAddress d.addressesIpv4Download ++
  (serializeList serializeAddress d.addressesIpv6Download ++
  .bool d.isCdnDatacenter ::
  (serializeKey d.authKeyPerm ++ .int64 d.authKeyPermId ::
  (serializeKey d.authKeyTemp ++ .int64 d.authKeyTempId ::
  .int32 (if d.authorized then 1 else 0) ::
  serializeList serializeSalt d.serverSalts))))))

/-! ### Reading -/

/-- A field that older versions do not have. -/
def readWhen {α : Type} (present : Bool) (read : Reader α) (absent : α) : Reader α :=
  if present then read else pure absent

/-- The address and the port are read and replaced. -/
def readAddress (version : BitVec 32) (address : List UInt8) (port : BitVec 32) :
    Reader TcpAddress := do
  let _ ← Input.readString
  let _ ← Input.readInt32
  let flags ← readWhen (7 ≤ version) Input.readInt32 0
  let secret ← readWhen (9 ≤ version) Input.readString []
  pure { address, port, flags, secret }

/-- A list with its length. -/
def readList {α : Type} (read : Reader α) : Reader (List α) := do
  let len ← Input.readInt32
  readMany read len.toNat

/-- A key with its length. -/
def readKey : Reader (Option (List UInt8)) := do
  let len ← Input.readInt32
  readWhen (len ≠ 0) (Input.readBytes len.toNat) none

/-- The id of the permanent key; the oldest versions put a length in front of it. -/
def readKeyPermId (version : BitVec 32) : Reader (BitVec 64) := do
  let len ← readWhen (!(4 ≤ version)) Input.readInt32 1
  readWhen (len ≠ 0) Input.readInt64 0

def readSalt : Reader FutureSalt := do
  let validSince ← Input.readInt32
  let validUntil ← Input.readInt32
  let salt ← Input.readInt64
  pure { validSince, validUntil, salt }

/-- The fields of a datacenter behind the version. -/
def readFields (version : BitVec 32) (address : List UInt8) (port : BitVec 32) :
    Reader Datacenter := do
  let datacenterId ← Input.readInt32
  let lastInitVersion ← readWhen (3 ≤ version) Input.readInt32 0
  let lastInitMediaVersion ← readWhen (10 ≤ version) Input.readInt32 0
  let addressesIpv4 ← readList (readAddress version address port)
  let addressesIpv6 ← readWhen (5 ≤ version) (readList (readAddress version address port)) []
  let addressesIpv4Download ← readWhen (5 ≤ version) (readList (readAddress version address port))
    []
  let addressesIpv6Download ← readWhen (5 ≤ version) (readList (readAddress version address port))
    []
  let isCdnDatacenter ← readWhen (6 ≤ version) Input.readBool false
  let authKeyPerm ← readKey
  let authKeyPermId ← readKeyPermId version
  let authKeyTemp ← readWhen (8 ≤ version) readKey none
  let authKeyTempId ← readWhen (8 ≤ version) Input.readInt64 0
  let authorized ← Input.readInt32
  let serverSalts ← readList readSalt
  pure { datacenterId, lastInitVersion, lastInitMediaVersion, addressesIpv4, addressesIpv6,
         addressesIpv4Download, addressesIpv6Download, isCdnDatacenter, authKeyPerm, authKeyPermId,
         authKeyTemp, authKeyTempId, authorized := authorized ≠ 0, serverSalts }

/-- `Datacenter::Datacenter(instance, address, port, data)`. -/
def ofData (address : List UInt8) (port : BitVec 32) : Reader Datacenter := do
  let currentVersion ← Input.readInt32
  if 2 ≤ currentVersion ∧ currentVersion ≤ configVersion then readFields currentVersion address port
  else pure {}

end Datacenter

/-! ## The map of datacenters -/

/-- `std::map<uint32_t, Datacenter *>` without null pointers; the key of an entry is its
`datacenterId`. -/
structure Datacenters where
  entries : List Datacenter
  sorted : entries.Pairwise fun d e => d.datacenterId < e.datacenterId

namespace Datacenters

def empty : Datacenters := ⟨[], .nil⟩

def find (m : Datacenters) (id : BitVec 32) : Option Datacenter :=
  m.entries.find? fun d => d.datacenterId == id

/-- `datacenters[datacenter->getDatacenterId()] = datacenter` on the entries. -/
def place (d : Datacenter) : List Datacenter → List Datacenter
  | [] => [d]
  | e :: rest =>
      if d.datacenterId < e.datacenterId then d :: e :: rest
      else if d.datacenterId = e.datacenterId then d :: rest
      else e :: place d rest

theorem mem_place {d e : Datacenter} {entries : List Datacenter} (h : e ∈ place d entries) :
    e = d ∨ e ∈ entries := by
  induction entries with
  | nil => exact .inl (by simpa [place] using h)
  | cons f rest ih =>
    rw [place] at h
    split_ifs at h with hlt heq
    · simpa using h
    · rcases List.mem_cons.1 h with h | h
      · exact .inl h
      · exact .inr (List.mem_cons_of_mem _ h)
    · rcases List.mem_cons.1 h with rfl | h
      · exact .inr (by simp)
      · rcases ih h with h | h
        · exact .inl h
        · exact .inr (List.mem_cons_of_mem _ h)

theorem sorted_place {d : Datacenter} {entries : List Datacenter}
    (h : entries.Pairwise fun d e => d.datacenterId < e.datacenterId) :
    (place d entries).Pairwise fun d e => d.datacenterId < e.datacenterId := by
  induction entries with
  | nil => simp [place]
  | cons e rest ih =>
    obtain ⟨hhead, hrest⟩ := List.pairwise_cons.1 h
    rw [place]
    split_ifs with hlt heq
    · refine List.pairwise_cons.2 ⟨?_, h⟩
      intro f hf
      rcases List.mem_cons.1 hf with rfl | hf
      · exact hlt
      · exact BitVec.lt_trans hlt (hhead f hf)
    · exact List.pairwise_cons.2 ⟨fun f hf => heq ▸ hhead f hf, hrest⟩
    · refine List.pairwise_cons.2 ⟨?_, ih hrest⟩
      intro f hf
      rcases mem_place hf with rfl | hf
      · rw [BitVec.lt_def] at hlt ⊢
        have hne : f.datacenterId.toNat ≠ e.datacenterId.toNat :=
          fun h => heq (BitVec.eq_of_toNat_eq h)
        omega
      · exact hhead f hf

/-- `datacenters[datacenter->getDatacenterId()] = datacenter`. -/
def insert (m : Datacenters) (d : Datacenter) : Datacenters :=
  ⟨place d m.entries, sorted_place m.sorted⟩

end Datacenters

/-! ## The client -/

/-- The fields of `ConnectionsManager` that are saved or that `loadConfig` reads. -/
structure Client where
  clientBlocked : Bool := true
  currentDatacenterId : BitVec 32 := 0
  timeDifference : BitVec 32 := 0
  lastDcUpdateTime : BitVec 32 := 0
  pushSessionId : BitVec 64 := 0
  registeredForInternalPush : Bool := false
  sessionsToDestroy : List (BitVec 64) := []
  datacenters : Datacenters := .empty
  currentUserId : BitVec 32 := 0
  ipAddress : List UInt8
  port : BitVec 32

namespace Client

def configVersion : BitVec 32 := 4

/-- `DEFAULT_DATACENTER_ID`. -/
def defaultDatacenterId : BitVec 32 := 2147483647

/-- `getDatacenterWithId`. -/
def getDatacenterWithId (s : Client) (datacenterId : BitVec 32) : Option Datacenter :=
  if datacenterId = defaultDatacenterId then s.datacenters.find s.currentDatacenterId
  else s.datacenters.find datacenterId

/-- The calls of `saveConfigInternal`. -/
def saveConfigInternal (s : Client) : List (Value (List UInt8)) :=
  .int32 configVersion :: .bool false :: .bool s.clientBlocked ::
  match s.getDatacenterWithId s.currentDatacenterId with
  | none => [.bool false]
  | some currentDatacenter =>
      .bool true :: .int32 s.currentDatacenterId :: .int32 s.timeDifference ::
      .int32 s.lastDcUpdateTime :: .int64 s.pushSessionId :: .bool s.registeredForInternalPush ::
      (Datacenter.serializeList (fun session => [.int64 session]) currentDatacenter.getSessions ++
      Datacenter.serializeList Datacenter.serializeToStream s.datacenters.entries)

/-- `saveConfig`: one pass for the size, one into a buffer of that size; the bytes go to
`writeConfig`. -/
def saveConfig (s : Client) : List UInt8 :=
  let calls := s.saveConfigInternal
  let size := (writeAll write calls Output.calculator).buffer.capacity
  (writeAll write calls (Output.fresh size)).buffer.filled

/-- The part of `loadConfig` that reads the buffer. -/
def readConfig (s : Client) : Reader Client := do
  let version ← Input.readInt32
  if version ≤ configVersion then
    let _testBackend ← Input.readBool
    let clientBlocked ← Datacenter.readWhen (3 ≤ version) Input.readBool s.clientBlocked
    let hasCurrent ← Input.readBool
    if hasCurrent then
      let currentDatacenterId ← Input.readInt32
      let timeDifference ← Input.readInt32
      let lastDcUpdateTime ← Input.readInt32
      let pushSessionId ← Input.readInt64
      let registeredForInternalPush ←
        Datacenter.readWhen (2 ≤ version) Input.readBool s.registeredForInternalPush
      let sessions ← Datacenter.readList Input.readInt64
      let datacenters ← Datacenter.readList (Datacenter.ofData s.ipAddress s.port)
      pure { s with
        clientBlocked, currentDatacenterId, timeDifference, lastDcUpdateTime, pushSessionId
        registeredForInternalPush
        sessionsToDestroy := s.sessionsToDestroy ++ sessions
        datacenters := datacenters.foldl Datacenters.insert s.datacenters }
    else pure { s with clientBlocked }
  else pure s

/-- The check of the current datacenter; the second result says that `onLogout` is scheduled. -/
def resetAuthorization (s : Client) : Client × Bool :=
  if s.currentDatacenterId ≠ 0 ∧ s.currentUserId ≠ 0 then
    match s.getDatacenterWithId s.currentDatacenterId with
    | some datacenter =>
        if datacenter.authKeyPerm.isSome then (s, false)
        else ({ s with currentDatacenterId := 0, datacenters := .empty }, true)
    | none => ({ s with currentDatacenterId := 0, datacenters := .empty }, true)
  else (s, false)

/-- `initDatacenters`. -/
def initDatacenters (s : Client) : Client :=
  match s.datacenters.find 2 with
  | some _ => s
  | none =>
      { s with
        datacenters := s.datacenters.insert
          { datacenterId := 2, addressesIpv4 := [⟨s.ipAddress, s.port, 0, []⟩] } }

/-- The end of `loadConfig`; the second result says that the configuration is saved again.  `random`
is what `RAND_bytes` returns. -/
def initSession (s : Client) (random : BitVec 64) : Client × Bool :=
  if (s.datacenters.entries ≠ [] ∧ s.currentDatacenterId = 0) ∨ s.pushSessionId = 0 then
    ({ s with
        pushSessionId := if s.pushSessionId = 0 then random else s.pushSessionId
        currentDatacenterId := if s.currentDatacenterId = 0 then 2 else s.currentDatacenterId },
          true)
  else (s, false)

/-- What `loadConfig` leaves: the client, the buffer it read, and whether it logged out and
saved. -/
structure Loaded where
  client : Client
  input : Option Input
  logout : Bool
  saved : Bool

/-- `loadConfig`, where `file` is what `Config::readConfig` returns. -/
def loadConfig (s : Client) (file : Option (List UInt8)) (random : BitVec 64) : Loaded :=
  let (s, input) := match file with
    | some bytes =>
        let (s, input) := s.readConfig { buffer := .sliced bytes }
        (s, some input)
    | none => (s, none)
  let (s, logout) := s.resetAuthorization
  let (s, saved) := s.initDatacenters.initSession random
  { client := s, input, logout, saved }

end Client

end Mtproto.Persistence
