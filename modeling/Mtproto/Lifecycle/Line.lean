import Mtproto.Lib.Program
import Mtproto.Tgnet.Drain
import Mtproto.Tgnet.Framing
import Mtproto.Datacenter.Addresses

/-!
# The life of a connection

`connect`, `suspendConnection`, `reconnect`, `onConnected`, `onDisconnected` and the callback of the
reconnect timer of `Connection.cpp`, over `openConnection`, `closeSocket` and the writing half of
`onEvent` of `ConnectionSocket.cpp`.  What a socket was used for stays on record when it is closed
(`Wire`).  What a call finds outside of the connection is its `World`.
-/

namespace Mtproto.Lifecycle

open Lib Tgnet Persistence Datacenter Drain

/-! ## The state -/

/-- The flags of the reconnect timer. -/
structure Timer where
  started : Bool := false
  timeout : ℕ := 0
deriving DecidableEq, Repr

namespace Timer

variable (t : Timer)

def start : Timer := { t with started := t.started || t.timeout != 0 }

def stop : Timer := { t with started := false }

def setTimeout (ms : ℕ) : Timer := { t with timeout := ms }

@[simp] theorem started_stop : t.stop.started = false := rfl

end Timer

/-- One socket: the packets that `sendData` was given, the secret that was shared at the first of
them, and what `send` has taken since the proxy let it through. -/
structure Wire where
  sharedSecret : Option (List UInt8) := none
  sends : List Send := []
  bytes : List UInt8 := []

/-- A `Connection`; the bytes of its `outgoingByteStream` are those that still wait. -/
structure Line where
  connection : Connection
  proxyAuthState : ℕ := 0
  connectionToken : ℕ := 0
  wasConnected : Bool := false
  hasSomeDataSinceLastConnect : Bool := false
  isTryingNextPort : Bool := false
  forceNextPort : Bool := false
  usefullData : Bool := false
  usefullDataReceiveTime : ℤ := 0
  failedConnectionCount : ℕ := 0
  willRetryConnectCount : ℕ := 5
  waitForReconnectTimer : Bool := false
  lastReconnectTimeout : ℕ := 100
  reconnectTimer : Timer := {}
  currentAddressFlags : BitVec 32 := 0
  hostAddress : List UInt8 := []
  /-- Nothing where the port was read outside of its table. -/
  hostPort : Option ℕ := none
  addresses : AddressBook
  wire : Wire := {}
  closed : List Wire := []

/-- What a call finds around it. -/
structure World where
  currentTimeMonotonicMillis : ℤ
  isNetworkAvailable : Bool
  isIpv6Enabled : Bool
  /-- The descriptor that `openConnection` comes through with. -/
  socket : Option ℕ
  /-- `isHandshaking` of the datacenter. -/
  isHandshaking : Bool → Bool
  /-- The datacenter is the current one, or the one that the account moves to. -/
  isCurrent : Bool
  lastConnectionToken : ℕ

namespace Line

variable (w : World) (l : Line)

def hasUsefullData : Bool :=
  if l.usefullData ∧ (w.currentTimeMonotonicMillis - l.usefullDataReceiveTime).natAbs <
    4 * 1000 then false
  else l.usefullData

def setHasUsefullData : Line :=
  if l.usefullData then l
  else
    { l with
      usefullDataReceiveTime := w.currentTimeMonotonicMillis
      usefullData := true
      lastReconnectTimeout := 50 }

/-! ## Losing a socket -/

/-- The connections that come back by themselves. -/
def comesBack : Bool :=
  l.connection.connectionType = .GenericMedia && w.isHandshaking true ||
    l.connection.connectionType = .Generic && (w.isHandshaking false || w.isCurrent)

/-- The end of `onDisconnected`: when the next attempt is made. -/
def armTimer (error : ℤ) : Line :=
  if error = 0x68 ∨ error = 0x71 then
    if l.connection.connectionType = .Proxy then l
    else
      { l with
        waitForReconnectTimer := true
        reconnectTimer := (l.reconnectTimer.setTimeout l.lastReconnectTimeout).start
        lastReconnectTimeout := min (l.lastReconnectTimeout * 2) 400 }
  else if l.comesBack w then
    { l with
      waitForReconnectTimer := false
      reconnectTimer := (l.reconnectTimer.setTimeout 1000).start }
  else { l with waitForReconnectTimer := false }

/-- The middle of `onDisconnected`: another failure is counted, and with too many of them the next
address is tried. -/
def countFailure (switchToNextPort : Bool) : Line :=
  let failedConnectionCount := (l.failedConnectionCount + 1) % 2 ^ 16
  let willRetryConnectCount :=
    if failedConnectionCount = 1 then if l.hasUsefullData w then 3 else 1 else
      l.willRetryConnectCount
  if w.isNetworkAvailable then
    if failedConnectionCount > willRetryConnectCount ∨ switchToNextPort then
      { l with
        isTryingNextPort := true
        addresses := l.addresses.nextAddressOrPort l.currentAddressFlags
        failedConnectionCount := 0
        willRetryConnectCount }
    else { l with isTryingNextPort := true, failedConnectionCount, willRetryConnectCount }
  else { l with failedConnectionCount, willRetryConnectCount }

def onDisconnected (reason error : ℤ) : Line :=
  let switchToNextPort := l.wasConnected && !l.hasSomeDataSinceLastConnect && reason =
    2 || l.forceNextPort
  let l :=
    { l with
      reconnectTimer := l.reconnectTimer.stop
      wasConnected := false
      connectionToken := 0
      connection := { l.connection with firstPacketSent := false } }
  if l.connection.connectionState = .Suspended then { l with usefullData := false }
  else
    let l := { l with connection := { l.connection with connectionState := .Reconnecting } }
    { (l.countFailure w switchToNextPort).armTimer w error with usefullData := false }

def closeSocket (reason error : ℤ) : Line :=
  let closed := if l.connection.isDisconnected then l.closed else l.closed ++ [l.wire]
  let connection := { l.connection with socketFd := -1, outgoingByteStream := [] }
  { l with connection, proxyAuthState := 0, closed, wire := {} }.onDisconnected w reason error

def suspendConnection (idle : Bool) : Line :=
  let l := { l with reconnectTimer := l.reconnectTimer.stop, waitForReconnectTimer := false }
  if l.connection.connectionState = .Idle ∨ l.connection.connectionState = .Suspended then l
  else
    let connectionState := if idle then TcpConnectionState.Idle else .Suspended
    let l := { l with connection := { l.connection with connectionState } }.closeSocket w 0 0
    { l with
      connection := { l.connection with firstPacketSent := false }
      connectionToken := 0
      wasConnected := false }

/-! ## Opening a socket -/

/-- `openConnection`; a proxy without a secret is asked first. -/
def openConnection : Line :=
  let c := l.connection
  let viaProxy := c.overrideProxyAddress ≠ [] ∨ c.proxyAddress ≠ []
  let proxySecret := if c.overrideProxyAddress ≠ [] then c.overrideProxySecret else c.proxySecret
  match w.socket with
  | some socketFd =>
      { l with
        connection := { c with socketFd }
        proxyAuthState := if viaProxy ∧ proxySecret = [] then 1 else 0 }
  | none => l.closeSocket w 1 (-1)

/-- The flags under which `connect` looks for an address, in order, each with its share of
`TcpAddressFlagIpv6`. -/
def addressFlags : List (BitVec 32 × BitVec 32) :=
  let c := l.connection
  let ipv6 := if w.isIpv6Enabled then TcpAddressFlag.ipv6 else 0
  let static := if c.connectionType = .Proxy ∨ c.proxyAddress ≠ [] then TcpAddressFlag.static else 0
  if c.connectionType = .GenericMedia ∨ c.connectionType = .Download then
    [(TcpAddressFlag.download ||| static, ipv6), (static, ipv6)] ++
      if ipv6 ≠ 0 then [(TcpAddressFlag.download ||| static, 0), (static, 0)] else []
  else if c.connectionType = .Temp then [(TcpAddressFlag.temp, 0)]
  else [(static, ipv6)] ++ if ipv6 ≠ 0 then [(static, 0)] else []

/-- `getCurrentAddress`, with the address itself. -/
def currentAddress (flags : BitVec 32) (d : AddressBook) : Option TcpAddress × AddressBook :=
  ((d.getCurrentAddress flags).1.bind fun num => (d.selected flags)[num]?,
    (d.getCurrentAddress flags).2)

/-- The first address under one of the flags, with the flags that were looked up last. -/
def findAddress : List (BitVec 32 × BitVec 32) → BitVec 32 → AddressBook →
    Option TcpAddress × BitVec 32 × AddressBook
  | [], currentAddressFlags, d => (none, currentAddressFlags, d)
  | (flags, ipv6) :: rest, _, d =>
      match currentAddress (flags ||| ipv6) d with
      | (some tcpAddress, d) => (some tcpAddress, flags, d)
      | (none, d) => findAddress rest flags d

/-- The middle of `connect`: where to. -/
def chooseAddress : Line :=
  let (tcpAddress, currentAddressFlags, addresses) :=
    findAddress (l.addressFlags w) l.currentAddressFlags l.addresses
  let isStatic := l.connection.connectionType = .Proxy ∨ l.connection.proxyAddress ≠ []
  let (port, portAddresses) := addresses.getCurrentPort currentAddressFlags
  match tcpAddress with
  | some tcpAddress =>
      { l with
        connection :=
          { l.connection with
            isMediaConnection := hasFlag currentAddressFlags TcpAddressFlag.download
            secret := tcpAddress.secret }
        currentAddressFlags
        hostAddress := tcpAddress.address
        hostPort :=
          if isStatic then some (tcpAddress.port.toNat % 2 ^ 16) else port.map (·.toNat % 2 ^ 16)
        addresses := if isStatic then addresses else portAddresses }
  | none =>
      { l with
        connection := { l.connection with isMediaConnection := false }
        currentAddressFlags
        hostAddress := []
        hostPort := port.map (·.toNat % 2 ^ 16)
        addresses := portAddresses }

def connect : Line :=
  if l.waitForReconnectTimer ∨ ¬ w.isNetworkAvailable then l
  else if l.connection.connectionState = .Connected ∨
    l.connection.connectionState = .Connecting then l
  else
    let l := l.chooseAddress w
    { l with
      reconnectTimer := l.reconnectTimer.stop
      connection := { l.connection with connectionState := .Connecting, firstPacketSent := false }
      wasConnected := false
      hasSomeDataSinceLastConnect := false }.openConnection w

def reconnect : Line :=
  if l.connection.connectionType = .Proxy then l.suspendConnection w false
  else ({ l with forceNextPort := true }.suspendConnection w true).connect w

/-- The callback of the reconnect timer. -/
def onReconnectTimer : Line :=
  { l with reconnectTimer := l.reconnectTimer.stop, waitForReconnectTimer := false }.connect w

/-! ## Using a socket -/

def onConnected : Line :=
  { l with
    connection := { l.connection with connectionState := .Connected }
    connectionToken := w.lastConnectionToken
    wasConnected := true }

/-- A line that is not connected is connected first. -/
def connected : Line :=
  if l.connection.connectionState = .Idle ∨ l.connection.connectionState = .Reconnecting ∨
      l.connection.connectionState = .Suspended then l.connect w
  else l

/-- `sendData`; without a socket the packet is dropped. -/
def sendData (crypto : Tgnet.Crypto) (s : Send) : Line :=
  let l := l.connected w
  let c := l.connection
  if c.isDisconnected then l
  else
    { l with
      connection := c.sendPacket crypto s
      wire :=
        { l.wire with
          sharedSecret := if c.firstPacketSent then l.wire.sharedSecret else c.sharedSecret
          sends := l.wire.sends ++ [s] } }

/-- The end of the `EPOLLOUT` branch: of the bytes that wait `send` takes some. -/
def write (sentLength : ℕ) : Line :=
  let sent := (l.connection.outgoingByteStream.take READ_BUFFER_SIZE).take sentLength
  { l with
    connection :=
      { l.connection with outgoingByteStream := l.connection.outgoingByteStream.drop sent.length }
    wire := { l.wire with bytes := l.wire.bytes ++ sent } }

/-- What `onReceivedData` notes when bytes have come. -/
def onReceived : Line :=
  { l with
    failedConnectionCount := 0
    isTryingNextPort := l.hasSomeDataSinceLastConnect && l.isTryingNextPort
    hasSomeDataSinceLastConnect := true }

/-- `setProxySettings`; `suspendConnections` passes over two types. -/
def setProxySettings (proxyAddress proxySecret : List UInt8) : Line :=
  let l := { l with connection := { l.connection with proxyAddress, proxySecret } }
  if l.connection.connectionType = .Push ∨ l.connection.connectionType = .Proxy then l else
    l.suspendConnection w false

def setOverrideProxy (overrideProxyAddress overrideProxySecret : List UInt8) : Line :=
  { l with connection := { l.connection with overrideProxyAddress, overrideProxySecret } }

end Line

/-! ## Runs -/

inductive Input where
  | connect
  | suspendConnection (idle : Bool)
  | reconnect
  | closeSocket (reason error : ℤ)
  | onReconnectTimer
  | onConnected
  | sendData (s : Send)
  | write (sentLength : ℕ)
  /-- The next state of the proxy's negotiation. -/
  | negotiate (proxyAuthState : ℕ)
  | onReceived
  | setHasUsefullData
  | setProxySettings (proxyAddress proxySecret : List UInt8)
  | setOverrideProxy (overrideProxyAddress overrideProxySecret : List UInt8)

/-- An input in its world; those of a socket need one, and the timer's callback a timer that
runs. -/
def step (crypto : Tgnet.Crypto) : World × Input → Program Line Unit
  | (w, .connect), l => some ((), l.connect w)
  | (w, .suspendConnection idle), l => some ((), l.suspendConnection w idle)
  | (w, .reconnect), l => some ((), l.reconnect w)
  | (w, .closeSocket reason error), l => some ((), l.closeSocket w reason error)
  | (w, .onReconnectTimer),
      l => if l.reconnectTimer.started then some ((), l.onReconnectTimer w) else none
  | (w, .onConnected), l => if l.connection.isDisconnected then none else some ((), l.onConnected w)
  | (w, .sendData s), l => some ((), l.sendData w crypto s)
  | (_, .write sentLength), l =>
      if l.connection.isDisconnected ∨ l.proxyAuthState ≠ 0 then none else
        some ((), l.write sentLength)
  | (_, .negotiate proxyAuthState),
      l => if l.proxyAuthState = 0 then none else some ((), { l with proxyAuthState })
  | (_, .onReceived), l => if l.connection.isDisconnected then none else some ((), l.onReceived)
  | (w, .setHasUsefullData), l => some ((), l.setHasUsefullData w)
  | (w, .setProxySettings proxyAddress proxySecret),
      l => some ((), l.setProxySettings w proxyAddress proxySecret)
  | (_, .setOverrideProxy overrideProxyAddress overrideProxySecret), l =>
      some ((), l.setOverrideProxy overrideProxyAddress overrideProxySecret)

end Mtproto.Lifecycle
