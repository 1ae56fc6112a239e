import Mtproto.Lifecycle.Line

/-!
# What is on a wire

However a connection is opened, dropped and opened again, and however little `send` takes at a time,
what a socket carries is the front of one stream, with 64 bytes of its own and the packets of this
socket behind them (`wires_carry_packets`).
-/

namespace Mtproto.Lifecycle

open Lib Program Tgnet Bytes Keystream

variable {crypto : Tgnet.Crypto} {w : World} {l : Line} {c : Connection} {wire : Wire}

/-! ## Streams -/

/-- The other side reads the stream as the packets of the wire, in order and each with its wish for
an ack. -/
def Wire.Carries (crypto : Tgnet.Crypto) (wire : Wire) (stream : List UInt8) : Prop :=
  (wire.sends = [] ∧ stream = []) ∨ ∃ p frames, p ≠ ProtocolType.EE ∧
    receive crypto wire.sharedSecret stream = some frames ∧
      List.Forall₂ (Send.Carried · p) wire.sends frames

/-- What has been sent is the front of what the packets make. -/
def Wire.Good (crypto : Tgnet.Crypto) (wire : Wire) : Prop := ∃ stream, wire.bytes <+: stream ∧
    wire.Carries crypto stream

/-- The sending side of an open socket: nothing yet, or the 64 bytes and the frames of the
packets. -/
inductive Underway (crypto : Tgnet.Crypto) (c : Connection) (wire : Wire) : Prop
  | silent (unsent : c.firstPacketSent = false) (waiting : c.outgoingByteStream = [])
      (bytes : wire.bytes = [])
      (sends : wire.sends = [])
  | streaming (p : ProtocolType) (init : List UInt8) (ne : p ≠ .EE) (length : init.length = 64)
      (tag : ((xorAt (streamOf crypto wire.sharedSecret init) 0 init).drop 56).take 4 =
        List.replicate 4 p.tag)
      (fits : ∀ s ∈ wire.sends, s.Fits)
      (stream : c.Streaming crypto p (streamOf crypto wire.sharedSecret init)
        (64 + (wire.sends.flatMap fun s => s.frame p).length))
      (whole : wire.bytes ++ c.outgoingByteStream =
        init ++ xorAt (streamOf crypto wire.sharedSecret init) 64 (wire.sends.flatMap fun s =>
          s.frame p))

theorem Underway.carries (underway : Underway crypto c wire) :
    wire.Carries crypto (wire.bytes ++ c.outgoingByteStream) := by
  cases underway with
  | silent unsent waiting bytes sends => exact .inl ⟨sends, by rw [bytes, waiting, List.append_nil]⟩
  | streaming p init ne length tag fits stream whole =>
      refine .inr ⟨p, wire.sends.map fun s => s.received p, ne, ?_, ?_⟩
      · rw [whole]
        exact receive_frames crypto length tag ne fits
      · rw [List.forall₂_map_right_iff, List.forall₂_same]
        exact fun s _ => s.carried_received ne

theorem Underway.good (underway : Underway crypto c wire) : wire.Good crypto :=
  ⟨_, List.prefix_append _ _, underway.carries⟩

/-- A closed socket has nothing to say. -/
theorem Underway.of_unsent (underway : Underway crypto c wire)
    (unsent : c.firstPacketSent = false) :
    c.outgoingByteStream = [] ∧ wire.bytes = [] ∧ wire.sends = [] := by
  cases underway with
  | silent _ waiting bytes sends => exact ⟨waiting, bytes, sends⟩
  | streaming p init ne length tag fits stream whole =>
      rw [stream.firstPacketSent] at unsent
      cases unsent

theorem Underway.opened (underway : Underway crypto c wire) (some_sent : wire.sends ≠ []) :
    c.Open ∧ c.firstPacketSent = true := by
  cases underway with
  | silent unsent waiting bytes sends => exact absurd sends some_sent
  | streaming p init ne length tag fits stream whole =>
      exact ⟨stream.opened, stream.firstPacketSent⟩

/-- Bytes move from the queue to the wire. -/
theorem Underway.write (underway : Underway crypto l.connection l.wire) (sentLength : ℕ) :
    Underway crypto (l.write sentLength).connection (l.write sentLength).wire := by
  have moved : (l.write sentLength).wire.bytes ++
      (l.write sentLength).connection.outgoingByteStream =
      l.wire.bytes ++ l.connection.outgoingByteStream := by
    have front : (l.connection.outgoingByteStream.take Drain.READ_BUFFER_SIZE).take sentLength <+:
        l.connection.outgoingByteStream := (List.take_prefix _ _).trans (List.take_prefix _ _)
    simp only [Line.write, List.append_assoc]
    rw [List.prefix_iff_eq_append.1 front]
  cases underway with
  | silent unsent waiting bytes sends =>
      refine .silent unsent ?_ ?_ sends
      · simp [Line.write, waiting]
      · simp [Line.write, waiting, bytes]
  | streaming p init ne length tag fits stream whole =>
      exact .streaming p init ne length tag fits
        ⟨stream.opened, stream.firstPacketSent, stream.protocol, stream.keystream,
          stream.position⟩ (moved.trans whole)

/-- A packet goes behind the others, the first one with 64 bytes in front. -/
theorem Underway.sendPacket (underway : Underway crypto c wire) (opened : c.Open) {s : Send}
    (fits : s.Fits) :
    Underway crypto (c.sendPacket crypto s)
      { wire with
        sharedSecret := if c.firstPacketSent then wire.sharedSecret else c.sharedSecret
        sends := wire.sends ++ [s] } := by
  have same : c.connected id = c := Connection.connected_of_open opened id
  have call : c.sendData crypto id s = c.sendPacket crypto s := by
    rw [Connection.sendData_of_open crypto (by rwa [same]), same]
  cases underway with
  | silent unsent waiting bytes sends =>
      obtain ⟨init, length, tag, stream, written⟩ :=
        Connection.sendData_first crypto (c := c) (by rwa [same]) (by rwa [same]) fits
      rw [same, call] at stream
      rw [same] at tag
      rw [same, call, waiting, List.nil_append] at written
      refine .streaming c.protocolType init c.protocolType_ne length ?_ ?_ ?_ ?_
      · simpa [unsent] using tag
      · simpa [sends] using fits
      · simpa [unsent, sends] using stream
      · simpa [unsent, sends, bytes] using written
  | streaming p init ne length tag earlier stream whole =>
      have next := Connection.sendData_next crypto stream ne fits id
      rw [call] at next
      have sent := stream.firstPacketSent
      refine .streaming p init ne length ?_ ?_ ?_ ?_
      · simpa [sent] using tag
      · simpa [or_imp, forall_and] using ⟨earlier, fits⟩
      · rw [next]
        simpa [sent, Nat.add_assoc] using stream.sent (s.frame p)
          (xorAt (streamOf crypto wire.sharedSecret init)
            (64 + (wire.sends.flatMap fun s => s.frame p).length) (s.frame p))
      · rw [next]
        simp only [sent, if_true, Connection.sent, List.flatMap_append, List.flatMap_singleton]
        rw [← List.append_assoc, whole, xorAt_append, List.append_assoc]

/-! ## What the steps leave of the connection -/

theorem countFailure_spec (w : World) (l : Line) (switchToNextPort : Bool) :
    (l.countFailure w switchToNextPort).connection = l.connection ∧
      (l.countFailure w switchToNextPort).wire = l.wire ∧
        (l.countFailure w switchToNextPort).closed = l.closed := by
  simp only [Line.countFailure]
  split_ifs <;> exact ⟨rfl, rfl, rfl⟩

theorem armTimer_spec (w : World) (l : Line) (error : ℤ) :
    (l.armTimer w error).connection = l.connection ∧ (l.armTimer w error).wire = l.wire ∧
      (l.armTimer w error).closed = l.closed := by
  simp only [Line.armTimer]
  split_ifs <;> exact ⟨rfl, rfl, rfl⟩

theorem onDisconnected_spec (w : World) (l : Line) (reason error : ℤ) :
    (l.onDisconnected w reason error).connection =
        { l.connection with
          firstPacketSent := false
          connectionState :=
            if l.connection.connectionState = .Suspended then .Suspended else .Reconnecting } ∧
      (l.onDisconnected w reason error).wire = l.wire ∧ (l.onDisconnected w reason error).closed =
        l.closed := by
  simp only [Line.onDisconnected]
  split
  · rename_i suspended
    exact ⟨by rw [suspended], rfl, rfl⟩
  · simp only [armTimer_spec, countFailure_spec, and_self]

theorem closeSocket_spec (w : World) (l : Line) (reason error : ℤ) :
    (l.closeSocket w reason error).connection =
        { l.connection with
          socketFd := -1
          outgoingByteStream := []
          firstPacketSent := false
          connectionState :=
            if l.connection.connectionState = .Suspended then .Suspended else .Reconnecting } ∧
      (l.closeSocket w reason error).wire = {} ∧
      ∀ wire ∈ (l.closeSocket w reason error).closed, wire ∈ l.closed ∨ wire = l.wire := by
  simp only [Line.closeSocket, onDisconnected_spec, true_and]
  intro wire mem
  split at mem
  · exact .inl mem
  · simpa using mem

theorem chooseAddress_spec (w : World) (l : Line) :
    (l.chooseAddress w).wire = l.wire ∧ (l.chooseAddress w).closed = l.closed ∧
      (l.chooseAddress w).connection.socketFd = l.connection.socketFd ∧
      (l.chooseAddress w).connection.outgoingByteStream = l.connection.outgoingByteStream := by
  simp only [Line.chooseAddress]
  split <;> exact ⟨rfl, rfl, rfl, rfl⟩

/-! ## Sound lines -/

/-- A socket is there while the line is connecting or connected, and every wire is good. -/
structure Sound (crypto : Tgnet.Crypto) (l : Line) : Prop where
  opened : l.connection.isDisconnected = false ↔
    l.connection.connectionState = .Connecting ∨ l.connection.connectionState = .Connected
  unsent : l.connection.isDisconnected = true → l.connection.firstPacketSent = false
  underway : Underway crypto l.connection l.wire
  closed : ∀ wire ∈ l.closed, wire.Good crypto

/-- Whatever is done to a line, its wires are as they were. -/
theorem Sound.congr {l' : Line} (sound : Sound crypto l) (connection : l'.connection = l.connection)
    (wire : l'.wire = l.wire) (closed : l'.closed = l.closed) : Sound crypto l' := by
  refine ⟨?_, ?_, ?_, ?_⟩
  · rw [connection]
    exact sound.opened
  · rw [connection]
    exact sound.unsent
  · rw [connection, wire]
    exact sound.underway
  · rw [closed]
    exact sound.closed

theorem sound_closeSocket (good : l.wire.Good crypto) (closed : ∀ wire ∈ l.closed, wire.Good crypto)
    (reason error : ℤ) : Sound crypto (l.closeSocket w reason error) := by
  obtain ⟨connection, wire, record⟩ := closeSocket_spec w l reason error
  refine ⟨?_, ?_, ?_, fun wire mem => ?_⟩
  · rw [connection]
    simp only [Connection.isDisconnected]
    split <;> simp
  · rw [connection]
    exact fun _ => rfl
  · rw [connection, wire]
    exact .silent rfl rfl rfl rfl
  · rcases record wire mem with mem | rfl
    · exact closed wire mem
    · exact good

theorem Sound.suspendConnection (sound : Sound crypto l) (idle : Bool) :
    Sound crypto (l.suspendConnection w idle) := by
  simp only [Line.suspendConnection]
  split
  · exact sound.congr rfl rfl rfl
  · have good := sound.underway.good
    generalize before : ({ l with
      reconnectTimer := l.reconnectTimer.stop
      waitForReconnectTimer := false
      connection :=
        { l.connection with
          connectionState := if idle then TcpConnectionState.Idle else .Suspended } } : Line) = m
    have dropped : Sound crypto (m.closeSocket w 0 0) := by
      refine sound_closeSocket ?_ ?_ 0 0 <;> rw [← before]
      · exact good
      · exact sound.closed
    refine dropped.congr ?_ rfl rfl
    simp only [(closeSocket_spec w m 0 0).1]

/-- A line whose socket is closed is opened again. -/
theorem sound_openConnection (connecting : l.connection.connectionState = .Connecting)
    (unsent : l.connection.firstPacketSent = false) (waiting : l.connection.outgoingByteStream = [])
    (bytes : l.wire.bytes = []) (sends : l.wire.sends = [])
    (closed : ∀ wire ∈ l.closed, wire.Good crypto) :
    Sound crypto (l.openConnection w) := by
  simp only [Line.openConnection]
  split
  · refine ⟨?_, ?_, .silent unsent waiting bytes sends, closed⟩
    · simp [Connection.isDisconnected, connecting]
    · simp [Connection.isDisconnected]
  · exact sound_closeSocket (Underway.silent (c := l.connection) unsent waiting bytes sends).good
      closed 1 (-1)

theorem Sound.connect (sound : Sound crypto l) : Sound crypto (l.connect w) := by
  simp only [Line.connect]
  split_ifs with waits runs
  · exact sound
  · exact sound
  · have isClosed : l.connection.isDisconnected = true := by
      rw [← Bool.not_eq_false, sound.opened, or_comm]
      exact runs
    obtain ⟨waiting, bytes, sends⟩ := sound.underway.of_unsent (sound.unsent isClosed)
    obtain ⟨wire, record, -, queue⟩ := chooseAddress_spec w l
    refine sound_openConnection rfl rfl ?_ ?_ ?_ ?_
    · exact queue.trans waiting
    · exact (congrArg Wire.bytes wire).trans bytes
    · exact (congrArg Wire.sends wire).trans sends
    · rw [record]
      exact sound.closed

theorem Sound.reconnect (sound : Sound crypto l) : Sound crypto (l.reconnect w) := by
  rw [Line.reconnect]
  split
  · exact sound.suspendConnection false
  · have forced : Sound crypto { l with forceNextPort := true } := sound.congr rfl rfl rfl
    exact (forced.suspendConnection true).connect

theorem Sound.sendData (sound : Sound crypto l) {s : Send} (fits : s.Fits) :
    Sound crypto (l.sendData w crypto s) := by
  have connected : Sound crypto (l.connected w) := by
    rw [Line.connected]
    split
    · exact sound.connect
    · exact sound
  simp only [Line.sendData]
  generalize l.connected w = l at connected
  split
  · exact connected
  · rename_i isOpen
    have isOpen : l.connection.isDisconnected = false := by simpa using isOpen
    have opened : l.connection.Open := ⟨connected.opened.1 isOpen, isOpen⟩
    have sent := connected.underway.sendPacket opened fits
    obtain ⟨still, first⟩ := sent.opened (by simp)
    refine ⟨⟨fun _ => still.1, fun _ => still.2⟩, fun disconnected => ?_, sent, connected.closed⟩
    rw [still.2] at disconnected
    cases disconnected

theorem Sound.write (sound : Sound crypto l) (sentLength : ℕ) : Sound crypto (l.write sentLength) :=
  ⟨sound.opened, sound.unsent, sound.underway.write sentLength, sound.closed⟩

/-- The socket is connected now. -/
theorem Sound.onConnected (sound : Sound crypto l) (isOpen : l.connection.isDisconnected = false) :
    Sound crypto (l.onConnected w) := by
  refine ⟨⟨fun _ => .inr rfl, fun _ => isOpen⟩, sound.unsent, ?_, sound.closed⟩
  cases sound.underway with
  | silent unsent waiting bytes sends => exact .silent unsent waiting bytes sends
  | streaming p init ne length tag fits stream whole =>
      exact .streaming p init ne length tag fits
        ⟨⟨.inr rfl, isOpen⟩, stream.firstPacketSent, stream.protocol, stream.keystream,
          stream.position⟩ whole

/-- A proxy's secret counts with the next first packet. -/
theorem Sound.secret (sound : Sound crypto l)
    (overrideProxyAddress overrideProxySecret proxyAddress proxySecret : List UInt8) :
    Sound crypto { l with
      connection :=
        { l.connection with
          overrideProxyAddress, overrideProxySecret, proxyAddress, proxySecret } } := by
  refine ⟨sound.opened, sound.unsent, ?_, sound.closed⟩
  cases sound.underway with
  | silent unsent waiting bytes sends => exact .silent unsent waiting bytes sends
  | streaming p init ne length tag fits stream whole =>
      exact .streaming p init ne length tag fits
        ⟨stream.opened, stream.firstPacketSent, stream.protocol, stream.keystream,
          stream.position⟩ whole

/-! ## Runs -/

/-- A packet that is handed over has a length that fits. -/
def Input.Fits : Input → Prop
  | .sendData s => s.Fits
  | _ => True

/-- A line as the constructor leaves it; `failedConnectionCount` has any value. -/
structure Constructed (l : Line) : Prop where
  connectionState : l.connection.connectionState = .Idle
  socketFd : l.connection.isDisconnected = true
  firstPacketSent : l.connection.firstPacketSent = false
  outgoingByteStream : l.connection.outgoingByteStream = []
  connectionToken : l.connectionToken = 0
  waitForReconnectTimer : l.waitForReconnectTimer = false
  lastReconnectTimeout : l.lastReconnectTimeout = 100
  reconnectTimer : l.reconnectTimer = {}
  wire : l.wire = {}
  closed : l.closed = []

theorem Constructed.sound (constructed : Constructed l) : Sound crypto l := by
  refine ⟨?_, fun _ => constructed.firstPacketSent, .silent constructed.firstPacketSent
    constructed.outgoingByteStream ?_ ?_, ?_⟩
  · rw [constructed.socketFd, constructed.connectionState]
    simp
  · rw [constructed.wire]
  · rw [constructed.wire]
  · rw [constructed.closed]
    simp

theorem Sound.step {l' : Line} (sound : Sound crypto l) {i : Input} (fits : i.Fits)
    (run : step crypto (w, i) l = some ((), l')) : Sound crypto l' := by
  cases i with
  | connect =>
      cases run
      exact sound.connect
  | suspendConnection idle =>
      cases run
      exact sound.suspendConnection idle
  | reconnect =>
      cases run
      exact sound.reconnect
  | closeSocket reason error =>
      cases run
      exact sound_closeSocket sound.underway.good sound.closed reason error
  | onReconnectTimer =>
      simp only [Lifecycle.step] at run
      split at run
      · cases run
        have stopped :
            Sound crypto
              { l with reconnectTimer := l.reconnectTimer.stop, waitForReconnectTimer := false } :=
          sound.congr rfl rfl rfl
        exact stopped.connect
      · cases run
  | onConnected =>
      simp only [Lifecycle.step] at run
      split at run
      · cases run
      · rename_i isOpen
        cases run
        exact sound.onConnected (by simpa using isOpen)
  | sendData s =>
      cases run
      exact sound.sendData fits
  | write sentLength =>
      simp only [Lifecycle.step] at run
      split at run
      · cases run
      · cases run
        exact sound.write sentLength
  | negotiate proxyAuthState =>
      simp only [Lifecycle.step] at run
      split at run
      · cases run
      · cases run
        exact sound.congr rfl rfl rfl
  | onReceived =>
      simp only [Lifecycle.step] at run
      split at run
      · cases run
      · cases run
        exact sound.congr rfl rfl rfl
  | setHasUsefullData =>
      cases run
      rw [Line.setHasUsefullData]
      split
      · exact sound
      · exact sound.congr rfl rfl rfl
  | setProxySettings proxyAddress proxySecret =>
      cases run
      have changed :=
        sound.secret l.connection.overrideProxyAddress l.connection.overrideProxySecret proxyAddress
          proxySecret
      simp only [Line.setProxySettings]
      split
      · exact changed
      · exact changed.suspendConnection false
  | setOverrideProxy overrideProxyAddress overrideProxySecret =>
      cases run
      exact sound.secret overrideProxyAddress overrideProxySecret l.connection.proxyAddress
        l.connection.proxySecret

theorem sound_of_reaches (reached : Reaches (step crypto) Constructed (fun _ i => i.2.Fits) l) :
    Sound crypto l :=
  reached.invariant (fun _ constructed => constructed.sound) fun _ _ _ sound fits run =>
    sound.step fits run

/-- In every state a line reaches, each closed socket has carried the front of a stream that the
other side reads as the packets given to `sendData` while it was open, and the bytes on the open
socket with those that wait are such a stream. -/
theorem wires_carry_packets (reached : Reaches (step crypto) Constructed (fun _ i => i.2.Fits) l) :
    (∀ wire ∈ l.closed, ∃ stream, wire.bytes <+: stream ∧ wire.Carries crypto stream) ∧
      l.wire.Carries crypto (l.wire.bytes ++ l.connection.outgoingByteStream) :=
  ⟨(sound_of_reaches reached).closed, (sound_of_reaches reached).underway.carries⟩

/-- A connection without addresses, as constructed. -/
def constructedLine : Line where
  connection := { plainConnection with connectionState := .Idle, socketFd := -1 }
  addresses := ⟨false, none, fun _ => ⟨[], by decide⟩, fun _ => 0, fun _ => 0⟩

def plainWorld : World := ⟨0, true, false, some 3, fun _ => false, true, 1⟩

def plainSend : Send := ⟨[1, 2, 3, 4], true, false, plainDraws⟩

/-- A packet is sent, part of it leaves, the socket is lost and the packet is sent again. -/
def resentLine : Line :=
  (((constructedLine.sendData plainWorld countingCrypto plainSend).write 66).closeSocket plainWorld
    1 (-1)).sendData
    plainWorld countingCrypto plainSend

theorem reaches_resentLine :
    Reaches (step countingCrypto) Constructed (fun _ i => i.2.Fits) resentLine := by
  have start : Reaches (step countingCrypto) Constructed (fun _ i => i.2.Fits) constructedLine :=
    .start ⟨rfl, rfl, rfl, rfl, rfl, rfl, rfl, rfl, rfl, rfl⟩
  have fits : plainSend.Fits := ⟨by decide, by decide⟩
  have sent := Reaches.step start (i := (plainWorld, Input.sendData plainSend)) fits rfl
  have written := Reaches.step sent (i := (plainWorld, Input.write 66)) trivial rfl
  have lost := Reaches.step written (i := (plainWorld, Input.closeSocket 1 (-1))) trivial rfl
  exact Reaches.step lost (i := (plainWorld, Input.sendData plainSend)) fits rfl

theorem wires_carry_packets_resent : resentLine.closed.map (·.bytes.length) = [66] ∧
    (∀ wire ∈ resentLine.closed, ∃ stream, wire.bytes <+: stream ∧
      wire.Carries countingCrypto stream) ∧
    resentLine.wire.Carries countingCrypto (resentLine.wire.bytes ++
      resentLine.connection.outgoingByteStream) :=
  ⟨by decide +kernel, wires_carry_packets reaches_resentLine⟩

end Mtproto.Lifecycle
