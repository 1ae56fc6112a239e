import Mtproto.Lifecycle.Wires

/-!
# Coming back

A line without a socket is never stuck: the next packet opens it, or the reconnect timer runs and
its callback does (`comes_back`).
-/

namespace Mtproto.Lifecycle

open Lib Program Tgnet

variable {crypto : Tgnet.Crypto} {w : World} {l : Line}

/-! ## The timer -/

/-- The timer runs only while the line is reconnecting, and it does where the line waits for it. -/
structure Armed (l : Line) : Prop where
  token : l.connectionToken ≠ 0 → l.connection.connectionState = .Connected
  timer : l.reconnectTimer.started = true → l.connection.connectionState = .Reconnecting
  waits : l.waitForReconnectTimer = true → l.connection.connectionType ≠ .Proxy ∧
    l.reconnectTimer.started = true ∧
    50 ≤ l.reconnectTimer.timeout ∧ l.reconnectTimer.timeout ≤ 400
  backoff : 50 ≤ l.lastReconnectTimeout ∧ l.lastReconnectTimeout ≤ 400

/-- The fields that `Armed` is about. -/
theorem Armed.congr {l' : Line} (armed : Armed l) (token : l'.connectionToken = l.connectionToken)
    (connection : l'.connection.connectionState = l.connection.connectionState)
    (type : l'.connection.connectionType = l.connection.connectionType)
    (timer : l'.reconnectTimer = l.reconnectTimer)
    (waits : l'.waitForReconnectTimer = l.waitForReconnectTimer)
    (backoff : l'.lastReconnectTimeout = l.lastReconnectTimeout) : Armed l' := by
  refine ⟨?_, ?_, ?_, ?_⟩
  · rw [token, connection]
    exact armed.token
  · rw [timer, connection]
    exact armed.timer
  · rw [waits, type, timer]
    exact armed.waits
  · rw [backoff]
    exact armed.backoff

theorem countFailure_timer (w : World) (l : Line) (switchToNextPort : Bool) :
    (l.countFailure w switchToNextPort).connectionToken = l.connectionToken ∧
      (l.countFailure w switchToNextPort).reconnectTimer = l.reconnectTimer ∧
      (l.countFailure w switchToNextPort).waitForReconnectTimer = l.waitForReconnectTimer ∧
      (l.countFailure w switchToNextPort).lastReconnectTimeout = l.lastReconnectTimeout := by
  simp only [Line.countFailure]
  split_ifs <;> exact ⟨rfl, rfl, rfl, rfl⟩

/-- Nothing is left to wait for but the timer that is set here. -/
theorem armed_armTimer (reconnecting : l.connection.connectionState = .Reconnecting)
    (token : l.connectionToken = 0)
    (proxy : l.waitForReconnectTimer = true → l.connection.connectionType ≠ .Proxy)
    (backoff : 50 ≤ l.lastReconnectTimeout ∧ l.lastReconnectTimeout ≤ 400) (error : ℤ) :
    Armed (l.armTimer w error) := by
  have no_token : ∀ {P : Prop}, l.connectionToken ≠ 0 → P := fun some_token =>
    absurd token some_token
  simp only [Line.armTimer]
  split_ifs with refused isProxy comes
  · refine ⟨no_token, fun _ => reconnecting, fun waits => absurd isProxy (proxy waits), backoff⟩
  · refine ⟨no_token, fun _ => reconnecting, fun _ => ⟨isProxy, ?_, backoff⟩, ?_⟩
    · simp only [Timer.setTimeout, Timer.start, Bool.or_eq_true, bne_iff_ne]
      exact .inr (by omega)
    · show 50 ≤ min _ 400 ∧ min _ 400 ≤ 400
      omega
  · exact ⟨no_token, fun _ => reconnecting, by simp, backoff⟩
  · exact ⟨no_token, fun _ => reconnecting, by simp, backoff⟩

theorem armed_failure (reconnecting : l.connection.connectionState = .Reconnecting)
    (token : l.connectionToken = 0)
    (proxy : l.waitForReconnectTimer = true → l.connection.connectionType ≠ .Proxy)
    (backoff : 50 ≤ l.lastReconnectTimeout ∧ l.lastReconnectTimeout ≤ 400) (switchToNextPort : Bool)
    (error : ℤ) :
    Armed ((l.countFailure w switchToNextPort).armTimer w error) := by
  obtain ⟨connection, -, -⟩ := countFailure_spec w l switchToNextPort
  obtain ⟨same_token, -, waits, timeout⟩ := countFailure_timer w l switchToNextPort
  refine armed_armTimer ?_ ?_ ?_ ?_ error
  · rw [connection, reconnecting]
  · rw [same_token, token]
  · rw [waits, connection]
    exact proxy
  · rw [timeout]
    exact backoff

/-- `onDisconnected` from any state in which nobody waits for a proxy, or on a suspended line. -/
theorem armed_onDisconnected (backoff : 50 ≤ l.lastReconnectTimeout ∧ l.lastReconnectTimeout ≤ 400)
    (proxy : l.waitForReconnectTimer = true → l.connection.connectionType ≠ .Proxy)
    (suspended : l.connection.connectionState = .Suspended → l.waitForReconnectTimer = false)
    (reason error : ℤ) :
    Armed (l.onDisconnected w reason error) := by
  simp only [Line.onDisconnected]
  split
  · rename_i isSuspended
    refine ⟨fun token => absurd rfl token, by simp, fun waits => ?_, backoff⟩
    exact absurd waits (by simp [suspended isSuspended])
  · have failed := armed_failure (w := w) (l := { l with
        reconnectTimer := l.reconnectTimer.stop
        wasConnected := false
        connectionToken := 0
        connection :=
          { l.connection with firstPacketSent := false, connectionState := .Reconnecting } })
      rfl rfl proxy backoff (l.wasConnected && !l.hasSomeDataSinceLastConnect && reason =
        2 || l.forceNextPort) error
    exact failed.congr rfl rfl rfl rfl rfl rfl

theorem armed_closeSocket (backoff : 50 ≤ l.lastReconnectTimeout ∧ l.lastReconnectTimeout ≤ 400)
    (proxy : l.waitForReconnectTimer = true → l.connection.connectionType ≠ .Proxy)
    (suspended : l.connection.connectionState = .Suspended → l.waitForReconnectTimer = false)
    (reason error : ℤ) :
    Armed (l.closeSocket w reason error) := by
  simp only [Line.closeSocket]
  apply armed_onDisconnected
  · exact backoff
  · exact proxy
  · exact suspended

/-- Nobody waits while the line is not reconnecting. -/
theorem Armed.not_waiting (armed : Armed l) (other : l.connection.connectionState ≠ .Reconnecting) :
    l.waitForReconnectTimer = false := by
  by_contra waits
  exact other (armed.timer (armed.waits (by simpa using waits)).2.1)

theorem Armed.closeSocket (armed : Armed l) (reason error : ℤ) :
    Armed (l.closeSocket w reason error) :=
  armed_closeSocket armed.backoff (fun waits => (armed.waits waits).1)
    (fun suspended => armed.not_waiting (by simp [suspended])) reason error

theorem Armed.suspendConnection (armed : Armed l) (idle : Bool) :
    Armed (l.suspendConnection w idle) := by
  simp only [Line.suspendConnection]
  split
  · rename_i still
    refine ⟨fun token => ?_, by simp, by simp, armed.backoff⟩
    have connected := armed.token token
    simp [connected] at still
  · have dropped := armed_closeSocket (w := w) (l := { l with
        reconnectTimer := l.reconnectTimer.stop
        waitForReconnectTimer := false
        connection :=
          { l.connection with
            connectionState := if idle then TcpConnectionState.Idle else .Suspended } })
      armed.backoff (by simp) (fun _ => rfl) 0 0
    exact ⟨fun token => absurd rfl token, dropped.timer, dropped.waits, dropped.backoff⟩

/-- With the timer stopped and no wait, a line may be opened. -/
theorem armed_openConnection (backoff : 50 ≤ l.lastReconnectTimeout ∧ l.lastReconnectTimeout ≤ 400)
    (token : l.connectionToken = 0) (stopped : l.reconnectTimer.started = false)
    (waits : l.waitForReconnectTimer = false) : Armed (l.openConnection w) := by
  simp only [Line.openConnection]
  split
  · refine ⟨fun some_token => absurd token some_token, fun started => ?_, fun waiting => ?_,
      backoff⟩
    · exact absurd started (by simp [stopped])
    · exact absurd waiting (by simp [waits])
  · exact armed_closeSocket backoff (fun waiting => absurd waiting (by simp [waits])) (fun _ =>
      waits) 1 (-1)

theorem chooseAddress_timer (w : World) (l : Line) :
    (l.chooseAddress w).connectionToken = l.connectionToken ∧
      (l.chooseAddress w).waitForReconnectTimer = l.waitForReconnectTimer ∧
      (l.chooseAddress w).lastReconnectTimeout = l.lastReconnectTimeout := by
  simp only [Line.chooseAddress]
  split <;> exact ⟨rfl, rfl, rfl⟩

theorem Armed.connect (armed : Armed l) : Armed (l.connect w) := by
  simp only [Line.connect]
  split_ifs with blocked runs
  · exact armed
  · exact armed
  · obtain ⟨token, waits, timeout⟩ := chooseAddress_timer w l
    push Not at blocked
    refine armed_openConnection ?_ ?_ rfl ?_
    · rw [timeout]
      exact armed.backoff
    · rw [token]
      by_contra some_token
      exact runs (.inl (armed.token some_token))
    · rw [waits]
      simpa using blocked.1

/-- The callback of the timer. -/
theorem Armed.onReconnectTimer (armed : Armed l) : Armed (l.onReconnectTimer w) := by
  have stopped :
      Armed { l with reconnectTimer := l.reconnectTimer.stop, waitForReconnectTimer := false } :=
    ⟨armed.token, by simp, by simp, armed.backoff⟩
  exact stopped.connect

/-! ## Runs -/

theorem Constructed.armed (constructed : Constructed l) : Armed l := by
  refine ⟨fun token => absurd constructed.connectionToken token, fun started => ?_, fun waits => ?_,
    ?_⟩
  · rw [constructed.reconnectTimer] at started
    cases started
  · rw [constructed.waitForReconnectTimer] at waits
    cases waits
  · rw [constructed.lastReconnectTimeout]
    decide

/-- The state and the type of a connection, and its socket. -/
def standing (c : Connection) : TcpConnectionState × ConnectionType × ℤ :=
  (c.connectionState, c.connectionType, c.socketFd)

section Sending

variable (crypto : Tgnet.Crypto) (c : Connection)

theorem standing_encrypt (bytes : List UInt8) : standing (c.encrypt crypto bytes).2 = standing c :=
  rfl

theorem standing_encryptLast (n : ℕ) (buffer : NativeByteBuffer) :
    standing (c.encryptLast crypto n buffer).2 = standing c := rfl

theorem standing_writeBuffer (buffer : NativeByteBuffer) :
    standing (c.writeBuffer buffer) = standing c := rfl

theorem standing_startStream (useSecret : ℕ) (block : List UInt8) :
    standing (c.startStream crypto useSecret block).2 = standing c := rfl

theorem standing_writePacket (s : Send) (size length : ℕ) (buffer : NativeByteBuffer) :
    standing (c.writePacket crypto s size length buffer) = standing c := by
  unfold Connection.writePacket
  dsimp only
  split <;> simp only [standing_writeBuffer, standing_encrypt, standing_encryptLast]

/-- Sending leaves a connection where it stands. -/
theorem standing_sendPacket (s : Send) : standing (c.sendPacket crypto s) = standing c := by
  unfold Connection.sendPacket
  dsimp only
  split <;> rw [standing_writePacket]
  rw [standing_startStream]
  rfl

end Sending

theorem Armed.sendData (armed : Armed l) (s : Send) : Armed (l.sendData w crypto s) := by
  have connected : Armed (l.connected w) := by
    rw [Line.connected]
    split
    · exact armed.connect
    · exact armed
  simp only [Line.sendData]
  split
  · exact connected
  · have same := Prod.mk.inj (standing_sendPacket crypto (l.connected w).connection s)
    exact connected.congr rfl same.1 (Prod.mk.inj same.2).1 rfl rfl rfl

/-- The socket is open, so nobody waits. -/
theorem Armed.onConnected (armed : Armed l) (opened : l.connection.connectionState = .Connecting ∨
    l.connection.connectionState = .Connected) : Armed (l.onConnected w) := by
  have other : l.connection.connectionState ≠ .Reconnecting := by
    rcases opened with state | state <;> simp [state]
  refine ⟨fun _ => rfl, fun started => absurd (armed.timer started) other, fun waits => ?_,
    armed.backoff⟩
  have idle := armed.not_waiting other
  exact absurd waits (by simp [Line.onConnected, idle])

theorem Armed.step {l' : Line} (armed : Armed l) (sound : Sound crypto l) {i : Input}
    (run : step crypto (w, i) l = some ((), l')) : Armed l' := by
  cases i with
  | connect =>
      cases run
      exact armed.connect
  | suspendConnection idle =>
      cases run
      exact armed.suspendConnection idle
  | reconnect =>
      cases run
      rw [Line.reconnect]
      split
      · exact armed.suspendConnection false
      · have forced : Armed { l with forceNextPort := true } := armed.congr rfl rfl rfl rfl rfl rfl
        exact (forced.suspendConnection true).connect
  | closeSocket reason error =>
      cases run
      exact armed.closeSocket reason error
  | onReconnectTimer =>
      simp only [Lifecycle.step] at run
      split at run
      · cases run
        exact armed.onReconnectTimer
      · cases run
  | onConnected =>
      simp only [Lifecycle.step] at run
      split at run
      · cases run
      · rename_i isOpen
        cases run
        exact armed.onConnected (sound.opened.1 (by simpa using isOpen))
  | sendData s =>
      cases run
      exact armed.sendData s
  | write sentLength =>
      simp only [Lifecycle.step] at run
      split at run
      · cases run
      · cases run
        exact armed.congr rfl rfl rfl rfl rfl rfl
  | negotiate proxyAuthState =>
      simp only [Lifecycle.step] at run
      split at run
      · cases run
      · cases run
        exact armed.congr rfl rfl rfl rfl rfl rfl
  | onReceived =>
      simp only [Lifecycle.step] at run
      split at run
      · cases run
      · cases run
        exact armed.congr rfl rfl rfl rfl rfl rfl
  | setHasUsefullData =>
      cases run
      rw [Line.setHasUsefullData]
      split
      · exact armed
      · exact ⟨armed.token, armed.timer, armed.waits, le_rfl, (by decide : 50 ≤ 400)⟩
  | setProxySettings proxyAddress proxySecret =>
      cases run
      have changed :
          Armed { l with connection := { l.connection with proxyAddress, proxySecret } } :=
        armed.congr rfl rfl rfl rfl rfl rfl
      simp only [Line.setProxySettings]
      split
      · exact changed
      · exact changed.suspendConnection false
  | setOverrideProxy overrideProxyAddress overrideProxySecret =>
      cases run
      exact armed.congr rfl rfl rfl rfl rfl rfl

theorem armed_of_reaches (reached : Reaches (step crypto) Constructed (fun _ i => i.2.Fits) l) :
    Sound crypto l ∧ Armed l := by
  induction reached with
  | start constructed => exact ⟨constructed.sound, constructed.armed⟩
  | step _ fits run ih => exact ⟨ih.1.step fits run, ih.2.step ih.1 run⟩

/-- With a network and a socket a line that may be opened is open behind `connect`. -/
theorem open_connect (sound : Sound crypto l) (free : l.waitForReconnectTimer = false)
    (available : w.isNetworkAvailable = true) {fd : ℕ} (socket : w.socket = some fd) :
    (l.connect w).connection.Open := by
  simp only [Line.connect]
  rw [if_neg (by simp [free, available])]
  split
  · rename_i runs
    exact ⟨runs.symm, sound.opened.2 runs.symm⟩
  · simp only [Line.openConnection, socket]
    exact ⟨.inl rfl, by simp [Connection.isDisconnected]⟩

/-- No line that has been reached is stuck: it has a socket exactly while it is connecting or
connected; where it waits for the reconnect timer, the timer runs, for a time between the smallest
and the largest, and its callback opens the line; and where it does not wait, the next packet does,
and is sent. -/
theorem comes_back (reached : Reaches (step crypto) Constructed (fun _ i => i.2.Fits) l)
    (available : w.isNetworkAvailable = true) {fd : ℕ} (socket : w.socket = some fd) (s : Send) :
    (l.connection.isDisconnected = false ↔
        l.connection.connectionState = .Connecting ∨ l.connection.connectionState = .Connected) ∧
      (l.reconnectTimer.started = true → (l.onReconnectTimer w).connection.Open) ∧
      if l.waitForReconnectTimer then
        l.reconnectTimer.started = true ∧ 50 ≤ l.reconnectTimer.timeout ∧
          l.reconnectTimer.timeout ≤ 400
      else (l.sendData w crypto s).connection.Open ∧ ∃ sends, (l.sendData w crypto s).wire.sends =
        sends ++ [s] := by
  obtain ⟨sound, armed⟩ := armed_of_reaches reached
  refine ⟨sound.opened, fun _ => ?_, ?_⟩
  · have stopped :
        Sound crypto
          { l with reconnectTimer := l.reconnectTimer.stop, waitForReconnectTimer := false } :=
      sound.congr rfl rfl rfl
    exact open_connect stopped rfl available socket
  · split
    · rename_i waits
      exact (armed.waits waits).2
    · rename_i free
      have opened : (l.connected w).connection.Open := by
        rw [Line.connected]
        split
        · exact open_connect sound (by simpa using free) available socket
        · rename_i running
          have runs : l.connection.connectionState = .Connecting ∨
              l.connection.connectionState = .Connected := by
            cases state : l.connection.connectionState <;> simp [state] at running ⊢
          exact ⟨runs, sound.opened.2 runs⟩
      have same := Prod.mk.inj (standing_sendPacket crypto (l.connected w).connection s)
      have socket := (Prod.mk.inj same.2).2
      simp only [Line.sendData]
      rw [if_neg (by simp [opened.2])]
      refine ⟨⟨?_, ?_⟩, _, rfl⟩
      · rw [same.1]
        exact opened.1
      · rw [Connection.isDisconnected, socket]
        exact opened.2

/-- The connection is refused, and the line waits. -/
def refusedLine : Line :=
  (constructedLine.sendData plainWorld countingCrypto plainSend).closeSocket plainWorld 1 0x71

theorem reaches_refusedLine :
    Reaches (step countingCrypto) Constructed (fun _ i => i.2.Fits) refusedLine := by
  have start : Reaches (step countingCrypto) Constructed (fun _ i => i.2.Fits) constructedLine :=
    .start ⟨rfl, rfl, rfl, rfl, rfl, rfl, rfl, rfl, rfl, rfl⟩
  have fits : plainSend.Fits := ⟨by decide, by decide⟩
  have sent := Reaches.step start (i := (plainWorld, Input.sendData plainSend)) fits rfl
  exact Reaches.step sent (i := (plainWorld, Input.closeSocket 1 0x71)) trivial rfl

theorem comes_back_refused : refusedLine.waitForReconnectTimer = true ∧
    (refusedLine.reconnectTimer.started = true →
      (refusedLine.onReconnectTimer plainWorld).connection.Open) :=
  ⟨rfl, (comes_back reaches_refusedLine rfl rfl plainSend).2.1⟩

end Mtproto.Lifecycle
