import Mtproto.Lifecycle.Wires

/-!
# What the sockets were given

Over all the sockets of a line the packets stay in the order in which `sendData` was called, and
only `sendData` adds one (`sent_step`).
-/

namespace Mtproto.Lifecycle

open Lib Program Tgnet

variable {crypto : Tgnet.Crypto} {w : World} {l l' : Line}

/-- The packets of all the sockets. -/
def Line.sent (l : Line) : List Send := (l.closed ++ [l.wire]).flatMap Wire.sends

theorem sent_congr (wire : l'.wire = l.wire) (closed : l'.closed = l.closed) :
    l'.sent = l.sent := by
  rw [Line.sent, Line.sent, wire, closed]

/-- A line without a socket has given nothing to one. -/
theorem Sound.sends_nil (sound : Sound crypto l)
    (disconnected : l.connection.isDisconnected = true) :
    l.wire.sends = [] :=
  (sound.underway.of_unsent (sound.unsent disconnected)).2.2

/-- The wire goes on record when its socket is closed. -/
theorem sent_closeSocket (silent : l.connection.isDisconnected = true → l.wire.sends = [])
    (reason error : ℤ) :
    (l.closeSocket w reason error).sent = l.sent := by
  have record : (l.closeSocket w reason error).closed =
      if l.connection.isDisconnected then l.closed else l.closed ++ [l.wire] := by
    rw [Line.closeSocket, (onDisconnected_spec ..).2.2]
  rw [Line.sent, Line.sent, (closeSocket_spec w l reason error).2.1, record]
  split_ifs with disconnected
  · simp [silent disconnected]
  · simp

theorem Sound.sent_suspendConnection (sound : Sound crypto l) (idle : Bool) :
    (l.suspendConnection w idle).sent = l.sent := by
  simp only [Line.suspendConnection]
  split
  · rfl
  · generalize before : ({ l with
      reconnectTimer := l.reconnectTimer.stop
      waitForReconnectTimer := false
      connection :=
        { l.connection with
          connectionState := if idle then TcpConnectionState.Idle else .Suspended } } : Line) = m
    have silent : m.connection.isDisconnected = true → m.wire.sends = [] := by
      rw [← before]
      exact sound.sends_nil
    calc _ = (m.closeSocket w 0 0).sent := rfl
      _ = m.sent := sent_closeSocket silent 0 0
      _ = l.sent := by rw [← before]; rfl

theorem sent_openConnection (silent : l.wire.sends = []) : (l.openConnection w).sent = l.sent := by
  simp only [Line.openConnection]
  split
  · rfl
  · exact sent_closeSocket (fun _ => silent) 1 (-1)

theorem Sound.sent_connect (sound : Sound crypto l) : (l.connect w).sent = l.sent := by
  simp only [Line.connect]
  split_ifs with waits runs
  · rfl
  · rfl
  · have disconnected : l.connection.isDisconnected = true := by
      rw [← Bool.not_eq_false, sound.opened, or_comm]
      exact runs
    obtain ⟨wire, record, -, -⟩ := chooseAddress_spec w l
    rw [sent_openConnection]
    · exact sent_congr wire record
    · exact (congrArg Wire.sends wire).trans (sound.sends_nil disconnected)

theorem Sound.sent_reconnect (sound : Sound crypto l) : (l.reconnect w).sent = l.sent := by
  rw [Line.reconnect]
  split
  · exact sound.sent_suspendConnection false
  · have forced : Sound crypto { l with forceNextPort := true } := sound.congr rfl rfl rfl
    rw [(forced.suspendConnection true).sent_connect, forced.sent_suspendConnection]
    rfl

/-- A packet that finds no socket is dropped. -/
theorem Sound.sent_sendData (sound : Sound crypto l) (s : Send) :
    (l.sendData w crypto s).sent = l.sent ∨ (l.sendData w crypto s).sent = l.sent ++ [s] := by
  have connected : (l.connected w).sent = l.sent := by
    rw [Line.connected]
    split
    · exact sound.sent_connect
    · rfl
  simp only [Line.sendData]
  split
  · exact .inl connected
  · rw [← connected]
    apply Or.inr
    simp [Line.sent]

/-- The packets that an input may add. -/
def Input.sends : Input → List Send
  | .sendData s => [s]
  | _ => []

theorem Sound.sent_step (sound : Sound crypto l) {i : Input}
    (run : Lifecycle.step crypto (w, i) l = some ((), l')) :
    ∃ more, more.Sublist i.sends ∧ l'.sent = l.sent ++ more := by
  have same : l'.sent = l.sent → ∃ more, more.Sublist i.sends ∧ l'.sent = l.sent ++ more :=
    fun same => ⟨[], List.nil_sublist _, by rw [same, List.append_nil]⟩
  cases i with
  | connect =>
      cases run
      exact same sound.sent_connect
  | suspendConnection idle =>
      cases run
      exact same (sound.sent_suspendConnection idle)
  | reconnect =>
      cases run
      exact same sound.sent_reconnect
  | closeSocket reason error =>
      cases run
      exact same (sent_closeSocket sound.sends_nil reason error)
  | onReconnectTimer =>
      simp only [Lifecycle.step] at run
      split at run
      · cases run
        have stopped :
            Sound crypto
              { l with reconnectTimer := l.reconnectTimer.stop, waitForReconnectTimer := false } :=
          sound.congr rfl rfl rfl
        exact same stopped.sent_connect
      · cases run
  | sendData s =>
      cases run
      rcases sound.sent_sendData s with dropped | kept
      · exact same dropped
      · exact ⟨[s], List.Sublist.refl _, kept⟩
  | onConnected | write | negotiate | onReceived =>
      simp only [Lifecycle.step] at run
      split at run
      · cases run
      · cases run
        exact same (by simp [Line.sent, Line.onConnected, Line.write, Line.onReceived])
  | setHasUsefullData =>
      cases run
      apply same
      rw [Line.setHasUsefullData]
      split <;> rfl
  | setProxySettings proxyAddress proxySecret =>
      cases run
      have changed :=
        sound.secret l.connection.overrideProxyAddress l.connection.overrideProxySecret proxyAddress
          proxySecret
      apply same
      simp only [Line.setProxySettings]
      split
      · rfl
      · exact changed.sent_suspendConnection false
  | setOverrideProxy overrideProxyAddress overrideProxySecret =>
      cases run
      exact same rfl

end Mtproto.Lifecycle
