import Mtproto.Lifecycle.Reconnects

/-!
# The addresses that are dialled

While no socket gets connected a line dials every port of every address of IPv4 in turn, each twice,
or once after a first `reconnect`, for which `forceNextPort` stays set (`attempts_rotate`).
-/

namespace Mtproto.Lifecycle

open Lib Program Tgnet Persistence Datacenter AddressBook

/-! ## Stops -/

section Stops

variable {d : AddressBook} {flags : BitVec 32} {place : ℕ × ℕ}

/-- What `connect` dials: the text of the address, and the port. -/
abbrev Dial := List UInt8 × Option ℕ

def dialAt (addresses : List TcpAddress) (place : ℕ × ℕ) : Dial :=
  (((addresses[place.1]?).map (·.address)).getD [], (portAt addresses place).map (·.toNat % 2 ^ 16))

/-- The indices are those of a stop. -/
structure AtStop (addresses : List TcpAddress) (place : ℕ × ℕ) : Prop where
  address : place.1 < addresses.length
  port : place.2 < 4
  same : stop addresses place = place

theorem atStop_of_mem {addresses : List TcpAddress} (mem : place ∈ stops addresses) :
    AtStop addresses place := by
  obtain ⟨num, num_lt, mem⟩ := List.mem_flatMap.1 mem
  obtain ⟨port, port_lt, rfl⟩ := List.mem_map.1 mem
  rw [List.mem_range] at num_lt port_lt
  refine ⟨num_lt, ?_, ?_⟩
  · split at port_lt <;> simp only <;> omega
  · rw [stop]
    split_ifs at port_lt ⊢ with static
    · rw [Nat.lt_one_iff.1 port_lt]
    · rfl

/-- At a static address only the first port is tried. -/
theorem stop_nextPlace (addresses : List TcpAddress) (place : ℕ × ℕ) :
    stop addresses (nextPlace (!staticAt addresses place.1) addresses.length place) =
      nextPlace (!staticAt addresses place.1) addresses.length place := by
  rw [nextPlace]
  split_ifs with another
  · have free : staticAt addresses place.1 =
      false := by simpa using (Bool.and_eq_true_iff.1 another).1
    rw [stop, free]
    rfl
  · rw [stop, ite_self]
  · rw [stop, ite_self]

variable (plain : hasFlag flags TcpAddressFlag.static = false)

include plain in
theorem currentAddress_store (here : AtStop (d.selected flags) place) :
    Line.currentAddress flags (d.store (d.family flags) place) =
      ((d.selected flags)[place.1]?, d.store (d.family flags) place) := by
  have nonempty : d.selected flags ≠ [] :=
    List.ne_nil_of_length_pos (Nat.zero_lt_of_lt here.address)
  have num : triedAddress (d.selected flags) place = place.1 := if_pos here.address
  rw [Line.currentAddress, getCurrentAddress_store plain nonempty, num]
  rfl

include plain in
theorem getCurrentPort_stop (here : AtStop (d.selected flags) place) :
    (d.store (d.family flags) place).getCurrentPort flags =
      (portAt (d.selected flags) place, d.store (d.family flags) place) := by
  have nonempty : d.selected flags ≠ [] :=
    List.ne_nil_of_length_pos (Nat.zero_lt_of_lt here.address)
  have num : triedAddress (d.selected flags) place = place.1 := if_pos here.address
  have port : triedPort place = place.2 := if_pos here.port
  have stored : storedPort (d.isTemp flags) (d.selected flags) place = place.2 := if_pos here.port
  rw [getCurrentPort_store nonempty, currentPlace_store plain, num, port, stored]

include plain in
/-- The next stop. -/
theorem exists_next (here : AtStop (d.selected flags) place) :
    ∃ next, AtStop (d.selected flags) next ∧
    (d.store (d.family flags) place).nextAddressOrPort flags = d.store (d.family flags) next ∧
    stopNum (d.selected flags) next =
      (stopNum (d.selected flags) place + 1) % (stops (d.selected flags)).length := by
  have short : (d.selected flags).length < 2 ^ 32 := (d.addresses (d.family flags)).length_lt
  obtain ⟨num, port, next, num_lt, port_lt, number⟩ := moved_next short here.address here.port
  have next : nextPlace (!staticAt (d.selected flags) place.1) (d.selected flags).length place =
    (num, port) := next
  refine ⟨(num, port), ⟨num_lt, port_lt, ?_⟩, ?_, number⟩
  · rw [← next, stop_nextPlace]
  · rw [nextAddressOrPort_store plain _ here.address, ← next]

end Stops

/-! ## One attempt -/

/-- The flags that `connect` tries without IPv6 and without a proxy. -/
def plainFlags : ConnectionType → List (BitVec 32)
  | .GenericMedia | .Download => [TcpAddressFlag.download, 0]
  | .Temp => [TcpAddressFlag.temp]
  | _ => [0]

theorem plain_of_mem {type : ConnectionType} {flags : BitVec 32} (mem : flags ∈ plainFlags type) :
    hasFlag flags TcpAddressFlag.static = false := by
  have none : hasFlag TcpAddressFlag.download TcpAddressFlag.static = false ∧
      hasFlag TcpAddressFlag.temp TcpAddressFlag.static = false ∧
        hasFlag 0 TcpAddressFlag.static = false := by
    simp [hasFlag, TcpAddressFlag.download, TcpAddressFlag.temp, TcpAddressFlag.static]
  cases type <;> simp only [plainFlags, List.mem_cons, List.not_mem_nil, or_false] at mem
  case GenericMedia | Download =>
    rcases mem with rfl | rfl
    · exact none.1
    · exact none.2.2
  case Temp =>
    rw [mem]
    exact none.2.1
  all_goals
    rw [mem]
    exact none.2.2

/-- The flags of the first list with addresses. -/
def dialFlags (type : ConnectionType) (d : AddressBook) : Option (BitVec 32) :=
  (plainFlags type).find? fun flags => d.selected flags ≠ []

section Attempts

variable {crypto : Tgnet.Crypto} {w : World} {l : Line} {d : AddressBook} {flags : BitVec 32}
  {place : ℕ × ℕ}
  {type : ConnectionType} {force : Bool} {failures : ℕ}

theorem findAddress_plain {choices : List (BitVec 32)}
    (first : choices.find? (fun flags => d.selected flags ≠ []) = some flags)
    (plain : ∀ flags ∈ choices, hasFlag flags TcpAddressFlag.static = false)
    (here : AtStop (d.selected flags) place)
    (current : BitVec 32) :
    Line.findAddress (choices.map (·, 0)) current (d.store (d.family flags) place) =
      ((d.selected flags)[place.1]?, flags, d.store (d.family flags) place) := by
  induction choices generalizing current with
  | nil => cases first
  | cons choice choices ih =>
    have or_zero : choice ||| 0 = choice := BitVec.or_zero
    rw [List.map_cons, Line.findAddress, or_zero]
    by_cases empty : d.selected choice = []
    · rw [List.find?_cons_of_neg (by simp [empty])] at first
      have skipped : Line.currentAddress choice (d.store (d.family flags) place) =
          (none, d.store (d.family flags) place) := by
        rw [Line.currentAddress, getCurrentAddress, selected_store, if_pos empty]
        rfl
      rw [skipped]
      exact ih first (fun flags mem => plain flags (List.mem_cons_of_mem _ mem)) choice
    · rw [List.find?_cons_of_pos (by simp [empty])] at first
      obtain rfl := Option.some.inj first
      have lt := here.address
      have inside : (d.selected choice)[place.1]? = some (d.selected choice)[place.1] :=
        List.getElem?_eq_getElem lt
      rw [currentAddress_store (plain choice List.mem_cons_self) here, inside]

theorem addressFlags_plain (ipv4 : w.isIpv6Enabled = false)
    (proxy : l.connection.connectionType ≠ .Proxy)
    (direct : l.connection.proxyAddress = []) :
    l.addressFlags w = (plainFlags l.connection.connectionType).map (·, 0) := by
  cases type : l.connection.connectionType <;> simp_all [Line.addressFlags, plainFlags]

/-- What decides about the next address, for a line whose indices are at a stop. -/
structure Rotating (d : AddressBook) (flags : BitVec 32) (type : ConnectionType) (force : Bool)
    (l : Line)
    (place : ℕ × ℕ) (failures : ℕ) : Prop where
  type : l.connection.connectionType = type
  direct : l.connection.proxyAddress = []
  force : l.forceNextPort = force
  useless : l.usefullData = false
  count : l.failedConnectionCount = failures
  retry : failures = 1 → l.willRetryConnectCount = 1
  addresses : l.addresses = d.store (d.family flags) place

/-- Without a socket. -/
def Down (l : Line) : Prop :=
  l.connection.isDisconnected = true ∧ l.connection.connectionState ≠ .Connected ∧
    l.connection.connectionState ≠ .Connecting

/-- With a socket that is not connected yet. -/
structure Dialling (flags : BitVec 32) (l : Line) : Prop where
  opened : l.connection.isDisconnected = false
  connecting : l.connection.connectionState = .Connecting
  flags : l.currentAddressFlags = flags
  fresh : l.wasConnected = false

theorem Rotating.congr {l' : Line} (rotating : Rotating d flags type force l place failures)
    (type' : l'.connection.connectionType = l.connection.connectionType)
    (direct : l'.connection.proxyAddress = l.connection.proxyAddress)
    (force' : l'.forceNextPort = l.forceNextPort)
    (useless : l'.usefullData = l.usefullData)
    (count : l'.failedConnectionCount = l.failedConnectionCount)
    (retry : l'.willRetryConnectCount = l.willRetryConnectCount)
    (addresses : l'.addresses = l.addresses) :
    Rotating d flags type force l' place failures :=
  ⟨type'.trans rotating.type, direct.trans rotating.direct, force'.trans rotating.force,
    useless.trans rotating.useless,
    count.trans rotating.count, fun one => retry.trans (rotating.retry one),
      addresses.trans rotating.addresses⟩

theorem Rotating.chooseAddress (rotating : Rotating d flags type force l place failures)
    (ipv4 : w.isIpv6Enabled = false)
    (proxy : type ≠ .Proxy) (first : dialFlags type d = some flags)
    (here : AtStop (d.selected flags) place) :
    Rotating d flags type force (l.chooseAddress w) place failures ∧
      (l.chooseAddress w).currentAddressFlags = flags ∧
      ((l.chooseAddress w).hostAddress, (l.chooseAddress w).hostPort) =
        dialAt (d.selected flags) place := by
  have plain : hasFlag flags TcpAddressFlag.static = false :=
    plain_of_mem (List.mem_of_find?_eq_some first)
  have lt := here.address
  have inside : (d.selected flags)[place.1]? = some (d.selected flags)[place.1] :=
    List.getElem?_eq_getElem lt
  have found := findAddress_plain first (fun _ mem => plain_of_mem mem) here l.currentAddressFlags
  rw [← rotating.addresses,
    inside, ← rotating.type, ← addressFlags_plain ipv4 (by rwa [rotating.type]) rotating.direct]
    at found
  have port := getCurrentPort_stop plain here
  rw [← rotating.addresses] at port
  have isStatic : ¬ (l.connection.connectionType = .Proxy ∨ l.connection.proxyAddress ≠ []) := by
    simp [rotating.type, rotating.direct, proxy]
  simp only [Line.chooseAddress, found, port, if_neg isStatic, dialAt, inside]
  exact ⟨rotating.congr rfl rfl rfl rfl rfl rfl rfl, trivial, rfl⟩

/-- A line without a socket opens one for the stop it is at. -/
theorem Rotating.connect (rotating : Rotating d flags type force l place failures)
    (ipv4 : w.isIpv6Enabled = false)
    (proxy : type ≠ .Proxy) (first : dialFlags type d = some flags)
    (here : AtStop (d.selected flags) place)
    {fd : ℕ} (socket : w.socket = some fd) :
    l.connect w = l ∨
      (Rotating d flags type force (l.connect w) place failures ∧ Dialling flags (l.connect w) ∧
        ((l.connect w).hostAddress, (l.connect w).hostPort) = dialAt (d.selected flags) place) := by
  obtain ⟨chosen, flags_eq, dial⟩ := rotating.chooseAddress ipv4 proxy first here
  simp only [Line.connect]
  split_ifs with waits runs
  · exact .inl rfl
  · exact .inl rfl
  · simp only [Line.openConnection, socket]
    exact .inr ⟨chosen.congr rfl rfl rfl rfl rfl rfl rfl,
      ⟨by simp [Connection.isDisconnected], rfl, flags_eq, rfl⟩, dial⟩

/-- How often a line dials before it moves on. -/
def tries (force : Bool) : ℕ := if force then 1 else 2

theorem tries_le (force : Bool) : tries force ≤ 2 := by
  cases force <;> decide

theorem Rotating.countFailure (rotating : Rotating d flags type force l place failures)
    (flags_eq : l.currentAddressFlags = flags) (few : failures < tries force)
    (plain : hasFlag flags TcpAddressFlag.static = false) (here : AtStop (d.selected flags) place)
    (available : w.isNetworkAvailable = true) :
    (failures + 1 < tries force ∧
      Rotating d flags type force (l.countFailure w force) place (failures + 1)) ∨
      (failures + 1 = tries force ∧ ∃ next, AtStop (d.selected flags) next ∧
        stopNum (d.selected flags) next =
          (stopNum (d.selected flags) place + 1) % (stops (d.selected flags)).length ∧
        Rotating d flags type force (l.countFailure w force) next 0) := by
  obtain ⟨next, next_here, moved, number⟩ := exists_next plain here
  have counted : (l.failedConnectionCount + 1) % 2 ^ 16 = failures + 1 := by
    have two : failures < 2 := few.trans_le (tries_le force)
    rw [rotating.count]
    omega
  have useless : l.hasUsefullData w = false := by simp [Line.hasUsefullData, rotating.useless]
  have moves : l.addresses.nextAddressOrPort l.currentAddressFlags =
      d.store (d.family flags) next := by
    rw [rotating.addresses, flags_eq, moved]
  have goes_on : ∀ retries : ℕ, Rotating d flags type force
      { l with
        isTryingNextPort := true
        addresses := l.addresses.nextAddressOrPort l.currentAddressFlags
        failedConnectionCount := 0
        willRetryConnectCount := retries } next 0 := fun _ =>
    ⟨rotating.type, rotating.direct, rotating.force, rotating.useless, rfl, nofun, moves⟩
  simp only [Line.countFailure, counted, useless, available, if_true, Bool.false_eq_true, if_false]
  cases force with
  | true =>
    rw [if_pos (.inr rfl)]
    have one : failures < 1 := few
    exact .inr ⟨by rw [Nat.lt_one_iff.1 one]; rfl, next, next_here, number, goes_on _⟩
  | false =>
    have two : failures < 2 := few
    rcases Nat.lt_succ_iff_lt_or_eq.1 two with first | rfl
    · obtain rfl : failures = 0 := by omega
      refine .inl ⟨by decide, ?_⟩
      rw [if_neg (by simp)]
      exact ⟨rotating.type, rotating.direct, rotating.force, rotating.useless, rfl, fun _ => rfl,
        rotating.addresses⟩
    · rw [if_pos (.inl (by simp [rotating.retry rfl]))]
      exact .inr ⟨rfl, next, next_here, number, goes_on _⟩

theorem Rotating.armTimer (rotating : Rotating d flags type force l place failures) (error : ℤ) :
    Rotating d flags type force { l.armTimer w error with usefullData := false } place
      failures := by
  simp only [Line.armTimer]
  split_ifs <;> exact rotating.congr rfl rfl rfl rotating.useless.symm rfl rfl rfl

/-- The socket does not get connected: another try, or the next stop. -/
theorem Rotating.closeSocket (rotating : Rotating d flags type force l place failures)
    (dialling : Dialling flags l)
    (few : failures < tries force) (plain : hasFlag flags TcpAddressFlag.static = false)
    (here : AtStop (d.selected flags) place) (available : w.isNetworkAvailable = true)
    (reason error : ℤ) :
    Down (l.closeSocket w reason error) ∧
      ((failures + 1 < tries force ∧
        Rotating d flags type force (l.closeSocket w reason error) place (failures + 1)) ∨
        (failures + 1 = tries force ∧ ∃ next, AtStop (d.selected flags) next ∧
          stopNum (d.selected flags) next =
            (stopNum (d.selected flags) place + 1) % (stops (d.selected flags)).length ∧
          Rotating d flags type force (l.closeSocket w reason error) next 0)) := by
  obtain ⟨connection, -, -⟩ := closeSocket_spec w l reason error
  have state : l.connection.connectionState ≠ .Suspended := by simp [dialling.connecting]
  refine ⟨?_, ?_⟩
  · rw [Down, connection, if_neg state]
    exact ⟨rfl, by simp, by simp⟩
  · have switch :
        (l.wasConnected && !l.hasSomeDataSinceLastConnect && decide (reason = 2) ||
          l.forceNextPort) = force := by
      rw [dialling.fresh, rotating.force]
      rfl
    simp only [Line.closeSocket, Line.onDisconnected, if_neg state, switch]
    have lost : Rotating d flags type force
        { l with
          connection :=
            { l.connection with
              socketFd := -1
              outgoingByteStream := []
              firstPacketSent := false
              connectionState := .Reconnecting }
          proxyAuthState := 0
          closed := if l.connection.isDisconnected = true then l.closed else l.closed ++ [l.wire]
          wire := {}
          reconnectTimer := l.reconnectTimer.stop
          wasConnected := false
          connectionToken := 0 } place failures := rotating.congr rfl rfl rfl rfl rfl rfl rfl
    rcases lost.countFailure dialling.flags few plain here available with ⟨more, again⟩ | ⟨last,
      next, next_here, number, moved⟩
    · exact .inl ⟨more, again.armTimer error⟩
    · exact .inr ⟨last, next, next_here, number, moved.armTimer error⟩

end Attempts

/-! ## Runs -/

def Line.dial (l : Line) : Dial := (l.hostAddress, l.hostPort)

/-- A step of a line, with what it dials on record. -/
def dialStep (crypto : Tgnet.Crypto) (i : World × Input) : Program (Line × List Dial) Unit :=
  fun x =>
    (step crypto i x.1).map fun r =>
      ((), (r.2,
        if x.1.connection.isDisconnected && !r.2.connection.isDisconnected then x.2 ++ [r.2.dial]
        else x.2))

/-- Sockets are opened without IPv6 and lost before they are connected. -/
def Fails (x : Line × List Dial) : World × Input → Prop
  | (w, .connect) | (w, .onReconnectTimer) | (w, .sendData _) => w.isIpv6Enabled = false ∧
      ∃ fd, w.socket = some fd
  | (w, .closeSocket _ _) => x.1.connection.isDisconnected = false ∧ w.isNetworkAvailable = true
  | (_, .negotiate _) => True
  | _ => False

section Runs

variable {crypto : Tgnet.Crypto} {w : World} {l l' : Line} {dials : List Dial} {d : AddressBook}
  {flags : BitVec 32}
  {type : ConnectionType} {force : Bool} {start : ℕ} {place : ℕ × ℕ} {rounds failures : ℕ}

/-- What has been dialled: stop after stop from the first on, each as often as the line tries. -/
def Shown (d : AddressBook) (flags : BitVec 32) (force : Bool) (start : ℕ)
    (dials : List Dial) : Prop :=
  ∀ m < dials.length, dials[m]? =
    ((stops (d.selected flags))[(start + m / tries force) % (stops (d.selected flags)).length]?).map
      (dialAt (d.selected flags))

structure Stage (d : AddressBook) (flags : BitVec 32) (type : ConnectionType) (force : Bool)
    (start : ℕ) (l : Line)
    (dials : List Dial) (place : ℕ × ℕ) (rounds failures : ℕ) : Prop where
  few : failures < tries force
  here : AtStop (d.selected flags) place
  number : stopNum (d.selected flags) place = (start + rounds) % (stops (d.selected flags)).length
  rotating : Rotating d flags type force l place failures
  shown : Shown d flags force start dials

inductive Turning (d : AddressBook) (flags : BitVec 32) (type : ConnectionType) (force : Bool)
    (start : ℕ) (l : Line)
    (dials : List Dial) : Prop
  | down {place : ℕ × ℕ} {rounds failures : ℕ}
      (stage : Stage d flags type force start l dials place rounds failures)
      (down : Down l) (count : dials.length = tries force * rounds + failures)
  | dialling {place : ℕ × ℕ} {rounds failures : ℕ}
      (stage : Stage d flags type force start l dials place rounds failures)
      (dialling : Dialling flags l) (count : dials.length = tries force * rounds + failures + 1)

/-- The dial of a stage is that of its stop. -/
theorem Stage.dial (stage : Stage d flags type force start l dials place rounds failures)
    (count : dials.length = tries force * rounds + failures)
    (rotating : Rotating d flags type force l' place failures) (dialling : Dialling flags l')
    (dial : l'.dial = dialAt (d.selected flags) place) :
    Turning d flags type force start l' (dials ++ [l'.dial]) := by
  have few := stage.few
  refine .dialling ⟨few, stage.here, stage.number, rotating, fun m lt => ?_⟩ dialling ?_
  · rw [List.length_append, List.length_singleton] at lt
    rcases Nat.lt_succ_iff_lt_or_eq.1 lt with earlier | rfl
    · rw [List.getElem?_append_left earlier]
      exact stage.shown m earlier
    · have round : dials.length / tries force = rounds := by
        rw [count, Nat.mul_add_div (by omega), Nat.div_eq_of_lt few, Nat.add_zero]
      have stop := getElem?_stopNum stage.here.address stage.here.port
      rw [List.getElem?_append_right le_rfl, Nat.sub_self, round, ← stage.number]
      rw [Prod.mk.eta, stage.here.same] at stop
      rw [stop, dial]
      rfl
  · rw [List.length_append, List.length_singleton, count]

/-- What a step of a line without a connection comes to: nothing that counts, or a dial of the
stop. -/
inductive Opened (d : AddressBook) (flags : BitVec 32) (type : ConnectionType) (force : Bool)
    (place : ℕ × ℕ)
    (failures : ℕ) (l l' : Line) : Prop
  | kept (rotating : Rotating d flags type force l' place failures) (down : Down l → Down l')
      (dialling : Dialling flags l → Dialling flags l')
  | dialled (down : Down l) (rotating : Rotating d flags type force l' place failures)
      (dialling : Dialling flags l')
      (dial : l'.dial = dialAt (d.selected flags) place)

theorem Turning.step (turning : Turning d flags type force start l dials)
    (opened : ∀ {place rounds failures},
      Stage d flags type force start l dials place rounds failures →
      Down l ∨ Dialling flags l → Opened d flags type force place failures l l') :
    Turning d flags type force start l'
      (if l.connection.isDisconnected && !l'.connection.isDisconnected then dials ++ [l'.dial]
        else dials) := by
  cases turning with
  | down stage down count =>
    rcases opened stage (.inl down) with ⟨rotating, still, -⟩ | ⟨-, rotating, dialling, dial⟩
    · rw [if_neg (by simp [(still down).1])]
      exact .down ⟨stage.few, stage.here, stage.number, rotating, stage.shown⟩ (still down) count
    · rw [if_pos (by simp [down.1, dialling.opened])]
      exact stage.dial count rotating dialling dial
  | dialling stage dialling count =>
    rcases opened stage (.inr dialling) with ⟨rotating, -, still⟩ | ⟨down, -, -, -⟩
    · rw [if_neg (by simp [dialling.opened])]
      exact .dialling ⟨stage.few, stage.here, stage.number, rotating,
        stage.shown⟩ (still dialling) count
    · exact absurd down.1 (by simp [dialling.opened])

theorem Rotating.opened_connect (rotating : Rotating d flags type force l place failures)
    (either : Down l ∨ Dialling flags l) (ipv4 : w.isIpv6Enabled = false) (proxy : type ≠ .Proxy)
    (first : dialFlags type d = some flags) (here : AtStop (d.selected flags) place) {fd : ℕ}
    (socket : w.socket = some fd) : Opened d flags type force place failures l (l.connect w) := by
  rcases either with down | dialling
  · rcases rotating.connect ipv4 proxy first here socket with same | ⟨rotating', dialling, dial⟩
    · rw [same]
      exact .kept rotating id id
    · exact .dialled down rotating' dialling dial
  · have same : l.connect w = l := by
      rw [Line.connect]
      split_ifs with waits runs
      · rfl
      · rfl
      · exact absurd (.inr dialling.connecting) runs
    rw [same]
    exact .kept rotating id id

section Proxy

variable (crypto : Tgnet.Crypto) (c : Connection)

theorem proxyAddress_encrypt (bytes : List UInt8) :
    (c.encrypt crypto bytes).2.proxyAddress = c.proxyAddress := rfl

theorem proxyAddress_encryptLast (n : ℕ) (buffer : NativeByteBuffer) :
    (c.encryptLast crypto n buffer).2.proxyAddress = c.proxyAddress := rfl

theorem proxyAddress_writeBuffer (buffer : NativeByteBuffer) :
    (c.writeBuffer buffer).proxyAddress = c.proxyAddress := rfl

theorem proxyAddress_startStream (useSecret : ℕ) (block : List UInt8) :
    (c.startStream crypto useSecret block).2.proxyAddress = c.proxyAddress := rfl

theorem proxyAddress_writePacket (s : Send) (size length : ℕ) (buffer : NativeByteBuffer) :
    (c.writePacket crypto s size length buffer).proxyAddress = c.proxyAddress := by
  unfold Connection.writePacket
  dsimp only
  split <;> simp only [proxyAddress_writeBuffer, proxyAddress_encrypt, proxyAddress_encryptLast]

theorem proxyAddress_sendPacket (s : Send) :
    (c.sendPacket crypto s).proxyAddress = c.proxyAddress := by
  unfold Connection.sendPacket
  dsimp only
  split <;> rw [proxyAddress_writePacket]
  rw [proxyAddress_startStream]

end Proxy

theorem Rotating.opened_sendData (rotating : Rotating d flags type force l place failures)
    (either : Down l ∨ Dialling flags l) (ipv4 : w.isIpv6Enabled = false) (proxy : type ≠ .Proxy)
    (first : dialFlags type d = some flags) (here : AtStop (d.selected flags) place) {fd : ℕ}
    (socket : w.socket = some fd) (s : Send) :
    Opened d flags type force place failures l (l.sendData w crypto s) := by
  have connected : Opened d flags type force place failures l (l.connected w) := by
    rw [Line.connected]
    split
    · exact rotating.opened_connect either ipv4 proxy first here socket
    · exact .kept rotating id id
  simp only [Line.sendData]
  generalize l.connected w = l₁ at connected
  split
  · exact connected
  · rename_i opened
    have same := Prod.mk.inj (standing_sendPacket crypto l₁.connection s)
    have sent : ∀ {wire : Wire}, Rotating d flags type force l₁ place failures →
        Rotating d flags type force
          { l₁ with connection := l₁.connection.sendPacket crypto s, wire } place failures :=
      fun rotating =>
        rotating.congr (Prod.mk.inj same.2).1 (proxyAddress_sendPacket crypto _ s)
          rfl rfl rfl rfl rfl
    have waits : ∀ {wire : Wire}, Dialling flags l₁ →
        Dialling flags { l₁ with connection := l₁.connection.sendPacket crypto s, wire } :=
      fun dialling =>
        ⟨by
          rw [Connection.isDisconnected, (Prod.mk.inj same.2).2]
          exact dialling.opened, same.1.trans dialling.connecting, dialling.flags, dialling.fresh⟩
    rcases connected with ⟨rotating, down, dialling⟩ | ⟨down, rotating, dialling, dial⟩
    · exact .kept (sent rotating) (fun isDown => absurd (down isDown).1 opened) fun dials =>
        waits (dialling dials)
    · exact .dialled down (sent rotating) (waits dialling) dial

/-- A socket that is lost leads to another try of the stop, or to the next one. -/
theorem Turning.closeSocket (turning : Turning d flags type force start l dials)
    (plain : hasFlag flags TcpAddressFlag.static = false)
    (isOpen : l.connection.isDisconnected = false)
    (available : w.isNetworkAvailable = true) (reason error : ℤ) :
    Turning d flags type force start (l.closeSocket w reason error) dials := by
  cases turning with
  | down stage down count => exact absurd down.1 (by simp [isOpen])
  | @dialling place rounds failures stage dialling count =>
    obtain ⟨down, next⟩ :=
      stage.rotating.closeSocket dialling stage.few plain stage.here available reason error
    rcases next with ⟨more, rotating⟩ | ⟨last, next, here, number, rotating⟩
    · exact .down ⟨more, stage.here, stage.number, rotating,
        stage.shown⟩ down (count.trans (Nat.add_assoc _ _ _))
    · have some_try : 0 < tries force := by
        rw [← last]
        exact Nat.succ_pos _
      have moved :
          Stage d flags type force start (l.closeSocket w reason error) dials next
            (rounds + 1) 0 := by
        refine ⟨some_try, here, ?_, rotating, stage.shown⟩
        rw [number, stage.number, Nat.mod_add_mod, Nat.add_assoc]
      refine .down moved down ?_
      rw [count, Nat.add_assoc, last, Nat.mul_add_one, Nat.add_zero]

theorem Turning.next (turning : Turning d flags type force start l dials) (proxy : type ≠ .Proxy)
    (first : dialFlags type d = some flags) {i : World × Input} (fails : Fails (l, dials) i)
    {x : Line × List Dial}
    (run : dialStep crypto i (l, dials) = some ((), x)) :
    Turning d flags type force start x.1 x.2 := by
  have plain : hasFlag flags TcpAddressFlag.static = false :=
    plain_of_mem (List.mem_of_find?_eq_some first)
  obtain ⟨w, i⟩ := i
  simp only [dialStep, Option.map_eq_some_iff, Prod.exists] at run
  obtain ⟨⟨⟩, l', run, same⟩ := run
  cases same
  cases i with
  | connect =>
    cases run
    obtain ⟨ipv4, fd, socket⟩ := fails
    exact turning.step fun stage either =>
      stage.rotating.opened_connect either ipv4 proxy first stage.here socket
  | onReconnectTimer =>
    obtain ⟨ipv4, fd, socket⟩ := fails
    simp only [Lifecycle.step] at run
    split at run
    · cases run
      refine turning.step fun stage either => ?_
      have stopped : Rotating d flags type force
          { l with reconnectTimer := l.reconnectTimer.stop, waitForReconnectTimer := false } _ _ :=
        stage.rotating.congr rfl rfl rfl rfl rfl rfl rfl
      have phase :
          Down { l with reconnectTimer := l.reconnectTimer.stop, waitForReconnectTimer := false } ∨
          Dialling flags
            { l with reconnectTimer := l.reconnectTimer.stop, waitForReconnectTimer := false } :=
        either.imp id fun dialling =>
          ⟨dialling.opened, dialling.connecting, dialling.flags, dialling.fresh⟩
      rcases stopped.opened_connect phase ipv4 proxy first stage.here socket with ⟨rotating, down,
        dialling⟩ |
        ⟨down, rotating, dialling, dial⟩
      · exact .kept rotating down fun dialled =>
          dialling ⟨dialled.opened, dialled.connecting, dialled.flags, dialled.fresh⟩
      · exact .dialled down rotating dialling dial
    · cases run
  | sendData s =>
    cases run
    obtain ⟨ipv4, fd, socket⟩ := fails
    exact turning.step fun stage either =>
      stage.rotating.opened_sendData either ipv4 proxy first stage.here socket s
  | closeSocket reason error =>
    cases run
    have isOpen : l.connection.isDisconnected = false := fails.1
    have closed := turning.closeSocket plain fails.1 fails.2 reason error
    simpa [isOpen] using closed
  | negotiate proxyAuthState =>
    simp only [Lifecycle.step] at run
    split at run
    · cases run
    · cases run
      refine turning.step fun stage _ => .kept (stage.rotating.congr rfl rfl rfl rfl rfl rfl rfl) id
        fun dialling => ?_
      exact ⟨dialling.opened, dialling.connecting, dialling.flags, dialling.fresh⟩
  | _ => exact absurd fails id

theorem Turning.of_reaches {l₀ : Line} {x : Line × List Dial}
    (turning : Turning d flags type force start l₀ [])
    (proxy : type ≠ .Proxy) (first : dialFlags type d = some flags)
    (reached : Reaches (dialStep crypto) (· = (l₀, [])) Fails x) :
    Turning d flags type force start x.1 x.2 := by
  induction reached with
  | start here =>
    rw [here]
    exact turning
  | step _ fails run ih => exact ih.next proxy first fails run

/-- The line at its first stop. -/
theorem turning_start {l₀ : Line} (down : Down l₀) (direct : l₀.connection.proxyAddress = [])
    (fresh : l₀.failedConnectionCount = 0) (useless : l₀.usefullData = false)
    (here : (stops (l₀.addresses.selected flags))[start]? =
      some (l₀.addresses.place (l₀.addresses.family flags))) :
    Turning l₀.addresses flags l₀.connection.connectionType l₀.forceNextPort start l₀ [] := by
  have stop : AtStop (l₀.addresses.selected flags)
      (l₀.addresses.place (l₀.addresses.family flags)) :=
    atStop_of_mem (List.mem_of_getElem? here)
  obtain ⟨lt, here⟩ := List.getElem?_eq_some_iff.1 here
  have number :
      stopNum (l₀.addresses.selected flags) (l₀.addresses.place (l₀.addresses.family flags)) =
      start := by
    have there := getElem?_stopNum stop.address stop.port
    rw [Prod.mk.eta, stop.same] at there
    obtain ⟨inside, there⟩ := List.getElem?_eq_some_iff.1 there
    exact (nodup_stops _).getElem_inj_iff.1 (there.trans here.symm)
  have begun : Stage l₀.addresses flags l₀.connection.connectionType l₀.forceNextPort start l₀ []
      (l₀.addresses.place (l₀.addresses.family flags)) 0 0 := by
    refine ⟨?_, stop, ?_, ⟨rfl, direct, rfl, useless, fresh, by simp, store_place.symm⟩, fun m lt =>
      absurd lt (by simp)⟩
    · cases l₀.forceNextPort <;> decide
    · rw [number, Nat.add_zero, Nat.mod_eq_of_lt lt]
  exact .down begun down rfl

/-- With enough attempts every stop comes. -/
theorem Shown.mem (shown : Shown d flags force start dials)
    (lt : start < (stops (d.selected flags)).length)
    (enough : tries force * (stops (d.selected flags)).length ≤ dials.length) {place : ℕ × ℕ}
    (mem : place ∈ stops (d.selected flags)) : dialAt (d.selected flags) place ∈ dials := by
  obtain ⟨i, i_lt, here⟩ := List.getElem_of_mem mem
  have some_try : 0 < tries force := by cases force <;> decide
  obtain ⟨k, k_lt, turns⟩ : ∃ k < (stops (d.selected flags)).length,
      (start + k) % (stops (d.selected flags)).length = i := by
    by_cases ahead : start ≤ i
    · refine ⟨i - start, by omega, ?_⟩
      rw [Nat.add_sub_cancel' ahead, Nat.mod_eq_of_lt i_lt]
    · refine ⟨i + (stops (d.selected flags)).length - start, by omega, ?_⟩
      rw [Nat.add_sub_cancel' (by omega), Nat.add_mod_right, Nat.mod_eq_of_lt i_lt]
  have inside : tries force * k < dials.length :=
    (Nat.mul_lt_mul_of_pos_left k_lt some_try).trans_le enough
  have dialled := shown (tries force * k) inside
  rw [Nat.mul_div_cancel_left k some_try, turns, List.getElem?_eq_getElem i_lt, here] at dialled
  exact List.mem_of_getElem? dialled

end Runs

/-- A line with one address. -/
def ipv4Line : Line where
  connection := { plainConnection with connectionState := .Idle, socketFd := -1 }
  addresses :=
    ⟨false, none, fun family =>
      ⟨if family = .ipv4 then [⟨[1], 443, 0, []⟩] else [], by split <;> decide⟩,
      fun _ => 0, fun _ => 0⟩

/-- The first attempt is refused, the second is not answered, and the third has begun. -/
def triedLine : Line :=
  (((ipv4Line.connect plainWorld).closeSocket plainWorld 1 0x71).onReconnectTimer
    plainWorld).closeSocket plainWorld 2 0
    |>.connect plainWorld

theorem reaches_triedLine : Reaches (dialStep countingCrypto) (· = (ipv4Line, [])) Fails
    (triedLine, [([1], some 443), ([1], some 443), ([1], some 2045)]) := by
  have start : Reaches (dialStep countingCrypto) (· = (ipv4Line, [])) Fails (ipv4Line, []) :=
    .start rfl
  have first := Reaches.step start (i := (plainWorld, Input.connect)) ⟨rfl, 3, rfl⟩ rfl
  have refused := Reaches.step first (i := (plainWorld, Input.closeSocket 1 0x71)) ⟨rfl, rfl⟩ rfl
  have second := Reaches.step refused (i := (plainWorld, Input.onReconnectTimer)) ⟨rfl, 3, rfl⟩ rfl
  have silent := Reaches.step second (i := (plainWorld, Input.closeSocket 2 0)) ⟨rfl, rfl⟩ rfl
  exact Reaches.step silent (i := (plainWorld, Input.connect)) ⟨rfl, 3, rfl⟩ rfl

end Mtproto.Lifecycle
