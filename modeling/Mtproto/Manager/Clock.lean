import Mathlib.Algebra.Order.Group.Unbundled.Int
import Mtproto.Manager.Calm

/-!
How a notification about a bad message corrects the clock.  A message comes alone, inside containers
or packed, and three ids travel with it to its handler (`Ids`).  `processReceived` hands the
messages of a tree to their handler one after the other, those of a container only if their ids are
odd and new; `Received.Handles` is what happens to one of them in such a run.

The handler picks the id of a server message from the three but computes the time from the first
alone, which is 0 inside a container.
-/

namespace Mtproto.Manager

open Lib Program

/-! ## Containers -/

mutual

/-- What arrives as one message. -/
inductive Received
  | message (m : ServerMessage)
  | container (messages : InnerMessages)
  | gzipPacked (object : Received)
  | unparsed

/-- The `TL_message`s of a container. -/
inductive InnerMessages
  | nil
  | cons (msgId seqno : Int) (body : Received) (rest : InnerMessages)

end

/-- The ids that `processServerResponse` is called with. -/
structure Ids where
  messageId : Int
  innerMsgId : Int
  containerMessageId : Int
deriving DecidableEq, Repr

/-- The ids of a message that comes alone. -/
def Ids.alone (messageId : Int) : Ids := ⟨messageId, 0, 0⟩

/-- The ids of a message inside a container. -/
def Ids.inside (container : Ids) (innerMessageId : Int) : Ids :=
  ⟨0, innerMessageId, container.messageId⟩

/-- The beginning of the loop's body: the message is to be confirmed, and it may be skipped. -/
def meetInner (c : ConnectionId) (msgId seqno : Int) : M Bool := do
  when (seqno % 2 ≠ 0) (addMessageToConfirm c msgId)
  let session ← connection c
  pure (isMessageIdProcessed session msgId)

section Trees

variable (handle : ServerMessage → Ids → M Unit) (c : ConnectionId)

mutual

/-- `processServerResponse` on a tree, with `handle` for the messages that are no wrappers. -/
def processReceived : Received → Ids → M Unit
  | .message m, ids => handle m ids
  | .container messages, ids => processInner messages ids
  | .gzipPacked object, ids => processReceived object ids
  | .unparsed, _ => pure ()

/-- The loop over the messages of a container. -/
def processInner : InnerMessages → Ids → M Unit
  | .nil, _ => pure ()
  | .cons msgId seqno body rest, ids => do
      let skipped ← meetInner c msgId seqno
      when (skipped = false) do
        processReceived body (ids.inside msgId)
        addProcessedMessageId c msgId
      processInner rest ids

end

/-- What one call of the handler found and left. -/
structure Handling where
  message : ServerMessage
  ids : Ids
  before : ConnectionsManager
  after : ConnectionsManager

mutual

/-- A run of `processReceived` from a state calls the handler like this. -/
def Received.Handles : Received → Ids → ConnectionsManager → Handling → Prop
  | .message m, ids, s, h =>
      h.message = m ∧ h.ids = ids ∧ h.before = s ∧ handle m ids s = some ((), h.after)
  | .container messages, ids, s, h => messages.Handles ids s h
  | .gzipPacked object, ids, s, h => object.Handles ids s h
  | .unparsed, _, _, _ => False

/-- The message is the first one of the container and not skipped, or one of the rest. -/
def InnerMessages.Handles : InnerMessages → Ids → ConnectionsManager → Handling → Prop
  | .nil, _, _, _ => False
  | .cons msgId seqno body rest, ids, s, h =>
      ∃ skipped t, meetInner c msgId seqno s = some (skipped, t) ∧
        ((skipped = false ∧ body.Handles (ids.inside msgId) t h) ∨
          ∃ u, when (skipped = false) (do
              processReceived handle c body (ids.inside msgId)
              addProcessedMessageId c msgId) t = some ((), u) ∧
            rest.Handles ids u h)

end

end Trees

section Handled

variable {handle : ServerMessage → Ids → M Unit} {c : ConnectionId} {h : Handling}

mutual

/-- Only a message outside of all containers keeps its own id. -/
theorem Received.Handles.spec : ∀ {r : Received} {ids : Ids} {s : ConnectionsManager},
    r.Handles handle c ids s h →
      handle h.message h.ids h.before = some ((), h.after) ∧ (h.ids = ids ∨ h.ids.messageId = 0)
  | .message m, ids, s, handles => by
      simp only [Received.Handles] at handles
      obtain ⟨message, same, before, run⟩ := handles
      rw [message, same, before]
      exact ⟨run, .inl rfl⟩
  | .container messages, ids, s, handles => by
      simp only [Received.Handles] at handles
      obtain ⟨run, inside⟩ := handles.spec
      exact ⟨run, .inr inside⟩
  | .gzipPacked object, ids, s, handles => by
      simp only [Received.Handles] at handles
      exact handles.spec
  | .unparsed, ids, s, handles => by
      simp only [Received.Handles] at handles

theorem InnerMessages.Handles.spec :
    ∀ {messages : InnerMessages} {ids : Ids} {s : ConnectionsManager},
    messages.Handles handle c ids s h →
      handle h.message h.ids h.before = some ((), h.after) ∧ h.ids.messageId = 0
  | .nil, ids, s, handles => by
      simp only [InnerMessages.Handles] at handles
  | .cons msgId seqno body rest, ids, s, handles => by
      simp only [InnerMessages.Handles] at handles
      obtain ⟨skipped, t, -, ⟨-, first⟩ | ⟨u, -, later⟩⟩ := handles
      · obtain ⟨run, same | zero⟩ := first.spec
        · exact ⟨run, by rw [same]; rfl⟩
        · exact ⟨run, zero⟩
      · exact later.spec

end

end Handled

/-! ## The correction -/

/-- The id of a server message that the three ids give, 0 if there is none. -/
def Ids.realId (ids : Ids) : Int :=
  if ids.messageId ≠ 0 then ids.messageId
  else if ids.containerMessageId ≠ 0 then ids.containerMessageId else ids.innerMsgId

/-- The environment with ids as exact 32.32 fixed-point times, in milliseconds. -/
def Env.fixedPoint (env : Env) : Env :=
  { env with messageTime := fun id => (id * 1000).tdiv (2 ^ 32) }

/-- The handler of a message with the ids of its place. -/
def handleMessage (env : Env) (c : ConnectionId) (m : ServerMessage) (ids : Ids) : M Unit :=
  processServerResponse env m ids.messageId c ids.innerMsgId ids.containerMessageId

/-- With `d`, the server's clock at the id `R` and the local one at `currentTime` milliseconds, less
half of the ping, are less than one second apart; all times are in parts of a second of `1000 * 2 ^
32`. -/
def WithinASecond (R currentTime currentPingTime d : Int) : Prop :=
  |1000 * 2 ^ 32 * (d + currentPingTime.tdiv 2) - (1000 * R - 2 ^ 32 * currentTime)| < 1000 * 2 ^ 32

/-- The 32-bit offset is the one that the message with id `R` gives alone, and it is the difference
of the two clocks up to one second. -/
def Corrected (env : Env) (R currentTime currentPingTime offset : Int) : Prop :=
  offset = clockOffset env R currentTime currentPingTime ∧
    ∃ d, offset = d.bmod (2 ^ 32) ∧ WithinASecond R currentTime currentPingTime d

theorem tdiv_bounds (a : Int) {b : Int} (pos : 0 < b) :
    -b < a - b * a.tdiv b ∧ a - b * a.tdiv b < b := by
  have split := Int.mul_tdiv_add_tmod a b
  have upper := Int.tmod_lt_of_pos a pos
  have lower := Int.lt_tmod_of_pos a pos
  omega

/-- Rounding twice loses less than a second. -/
theorem withinASecond_offset (R currentTime currentPingTime : Int) :
    WithinASecond R currentTime currentPingTime
      (((R * 1000).tdiv (2 ^ 32) - currentTime).tdiv 1000 - currentPingTime.tdiv 2) := by
  have outer :=
    tdiv_bounds ((R * 1000).tdiv (2 ^ 32) - currentTime) (show (0 : Int) < 1000 by decide)
  have inner := tdiv_bounds (R * 1000) (show (0 : Int) < 2 ^ 32 by decide)
  rw [WithinASecond, abs_lt]
  omega

theorem corrected_offset (env : Env) (R currentTime currentPingTime : Int) :
    Corrected env.fixedPoint R currentTime currentPingTime
      (clockOffset env.fixedPoint R currentTime currentPingTime) :=
  ⟨rfl, _, rfl, withinASecond_offset R currentTime currentPingTime⟩

/-! ## The handler -/

/-- A program that does not set the clock. -/
def SameClock (s t : ConnectionsManager) : Prop := t.timeDifference = s.timeDifference

instance : IsPreorder ConnectionsManager SameClock where
  refl _ := rfl
  trans _ _ _ first second := Eq.trans second first

section Handler

variable (env : Env)

theorem sameClock_getDatacenterWithId (id : Nat) : Keeps SameClock (getDatacenterWithId id) := by
  refine keeps_bind keeps_read fun s => keeps_ite (fun _ => ?_) fun _ => keeps_pure _
  split
  · exact keeps_pure _
  · exact keeps_pure _
  · exact keeps_bind (keeps_update fun _ => rfl) fun _ => keeps_pure _

theorem sameClock_saveConfig : Keeps SameClock saveConfig := by
  refine keeps_bind keeps_read fun s => keeps_bind (sameClock_getDatacenterWithId _) fun found => ?_
  refine keeps_when fun _ => keeps_bind keeps_read fun s => keeps_each fun d _ => ?_
  exact keeps_bind (keeps_datacenter d) fun _ => keeps_pure _

theorem sameClock_reading : Keeps SameClock reading :=
  keeps_bind keeps_read fun _ => keeps_bind (keeps_update fun _ => rfl) fun _ => keeps_pure _

theorem sameClock_recreateSessions (d : Nat) (type : HandshakeType) :
    Keeps SameClock (recreateSessions env d type) := by
  refine keeps_each fun slot _ => keeps_bind keeps_read fun s => keeps_when fun _ => ?_
  exact keeps_bind sameClock_reading fun n => keeps_update fun _ => rfl

theorem sameClock_clearRequestsForDatacenter (d : Option Nat) (type : HandshakeType) :
    Keeps SameClock (clearRequestsForDatacenter d type) := by
  refine keeps_bind keeps_read fun s => keeps_each fun p _ =>
    keeps_bind (keeps_runningRequest p) fun r => ?_
  refine keeps_bind (sameClock_getDatacenterWithId _) fun found => ?_
  refine keeps_bind (keeps_require _) fun _ => keeps_bind (keeps_require _) fun _ => ?_
  exact keeps_when fun _ => keeps_update fun _ => rfl

/-- After the correction of the clock the notification does not touch it. -/
theorem sameClock_rest (c : ConnectionId) :
    Keeps SameClock (do
      recreateSessions env c.datacenter .all
      saveConfig
      update fun s => { s with lastOutgoingMessageId := 0 }
      clearRequestsForDatacenter (some c.datacenter) .all) := by
  refine keeps_bind (sameClock_recreateSessions env _ _) fun _ =>
    keeps_bind sameClock_saveConfig fun _ => ?_
  exact keeps_bind (keeps_update fun _ => rfl) fun _ => sameClock_clearRequestsForDatacenter _ _

/-- The codes that correct the clock. -/
def clockCodes : List Int := [16, 17, 19, 32, 33, 64]

/-- The new offset comes from the first of the three ids. -/
theorem handleMessage_badMsgNotification {c : ConnectionId} {badMsgId errorCode : Int} {ids : Ids}
    {s t : ConnectionsManager} (code : errorCode ∈ clockCodes) (known : ids.realId ≠ 0)
    (run : handleMessage env c (.badMsgNotification badMsgId errorCode) ids s = some ((), t)) :
    t.timeDifference =
      clockOffset env ids.messageId (env.currentTimeMillis s.readings) s.currentPingTime := by
  have listed : errorCode ∈ [16, 17, 19, 32, 33, 64] := code
  simp only [handleMessage, processServerResponse, onBadMsgNotification] at run
  rw [if_pos listed] at run
  obtain ⟨x, u, corrected, rest⟩ := bind_run run
  rcases when_run corrected with ⟨-, corrected⟩ | ⟨unknown, -⟩
  · rw [correctTime, reading_bind] at corrected
    have kept : t.timeDifference = u.timeDifference := sameClock_rest env c _ _ _ rest
    rw [kept, update_run corrected]
  · exact absurd known unknown

end Handler

/-! ## Inside and outside of containers -/

/-- The id `R` and the id 0 are, in whole seconds and 32 bits, equally far from the local clock. -/
def LikeZero (R currentTime : Int) : Prop :=
  ((R * 1000).tdiv (2 ^ 32) - currentTime).tdiv 1000 % 2 ^ 32 = (0 - currentTime).tdiv 1000 % 2 ^ 32

theorem bmod_eq_bmod_iff (a b : Int) (n : Nat) : a.bmod n = b.bmod n ↔ a % n = b % n := by
  refine ⟨fun same => ?_, fun same => ?_⟩
  · rw [← Int.bmod_emod, same, Int.bmod_emod]
  · rw [← Int.emod_bmod, same, Int.emod_bmod]

theorem clockOffset_zero_iff (env : Env) (R currentTime currentPingTime : Int) :
    clockOffset env.fixedPoint 0 currentTime currentPingTime =
        clockOffset env.fixedPoint R currentTime currentPingTime ↔ LikeZero R currentTime := by
  simp only [clockOffset, Env.fixedPoint, Int.zero_mul, Int.zero_tdiv, LikeZero]
  rw [bmod_eq_bmod_iff]
  generalize ((R * 1000).tdiv (2 ^ 32) - currentTime).tdiv 1000 = a
  generalize (0 - currentTime).tdiv 1000 = b
  generalize currentPingTime.tdiv 2 = p
  constructor
  · intro same
    omega
  · intro same
    omega

/-- A notification of these codes that is handled, anywhere in what arrived, corrects the clock by
the server's time exactly when it came outside of all containers, or no id is known, or the known id
is like
0. -/
theorem corrected_iff (env : Env) {received : Received} {messageId : Int} {c : ConnectionId}
    {badMsgId errorCode : Int} {s : ConnectionsManager} {h : Handling}
    (code : errorCode ∈ clockCodes)
    (message : h.message = .badMsgNotification badMsgId errorCode)
    (handles : received.Handles (handleMessage env.fixedPoint c) c (.alone messageId) s h) :
    (h.ids.realId ≠ 0 →
        Corrected env.fixedPoint h.ids.realId (env.currentTimeMillis h.before.readings)
          h.before.currentPingTime h.after.timeDifference) ↔
      h.ids = .alone messageId ∨ h.ids.realId = 0 ∨
        LikeZero h.ids.realId (env.currentTimeMillis h.before.readings) := by
  obtain ⟨run, place⟩ := handles.spec
  obtain ⟨m, ids, s, t⟩ := h
  obtain rfl : m = .badMsgNotification badMsgId errorCode := message
  by_cases unknown : ids.realId = 0
  · exact ⟨fun _ => .inr (.inl unknown), fun _ known => absurd unknown known⟩
  · have offset := handleMessage_badMsgNotification env.fixedPoint code unknown run
    by_cases own : ids.messageId = 0
    · rw [own] at offset
      have zero :=
        clockOffset_zero_iff env ids.realId (env.currentTimeMillis s.readings) s.currentPingTime
      constructor
      · intro corrected
        exact .inr (.inr (zero.1 (offset.symm.trans (corrected unknown).1)))
      · rintro (alone | none_known | like)
        · -- an id of 0 alone is no id at all
          obtain rfl : ids = .alone messageId := alone
          simp only [Ids.alone] at own
          simp [Ids.realId, Ids.alone, own] at unknown
        · exact absurd none_known unknown
        · intro _
          simp only
          rw [offset.trans (zero.2 like)]
          exact corrected_offset env _ _ _
    · have real : ids.realId = ids.messageId := if_pos own
      refine ⟨fun _ => .inl (place.resolve_right own), fun _ _ => ?_⟩
      simp only
      rw [real, offset]
      exact corrected_offset env _ _ _

/-! ## One notification, alone and in a container -/

/-- A local clock that stands at 1700000000 seconds. -/
def clockAt1700000000 : Env where
  currentTimeMillis _ := 1700000000000
  currentTimeMonotonicMillis _ := 0
  messageIdAt _ _ := 0
  messageTime _ := 0
  newSessionId _ := 0
  randomByte _ := 0
  opens _ := true
  objectSize _ := 0

/-- A manager whose connections are there. -/
def connected : ConnectionsManager where
  connections _ := some { sessionId := 1 }

/-- The id of a message of a server whose clock agrees with the local one. -/
def messageIdNow : Int := 1700000000 * 2 ^ 32 + 1

/-- The handler of such a connection. -/
def handleNow : ServerMessage → Ids → M Unit :=
  handleMessage clockAt1700000000.fixedPoint ⟨2, .generic⟩

/-- A container with one message: the client's message id is too high. -/
def tooHigh : Received := .container (.cons 9 1 (.message (.badMsgNotification 4 17)) .nil)

/-- Inside a container the clock is set back to 1970. -/
theorem not_corrected_inside_container :
    ∃ h t, tooHigh.Handles handleNow ⟨2, .generic⟩ (.alone messageIdNow) connected h ∧
      h.message = .badMsgNotification 4 17 ∧ h.ids.realId = messageIdNow ∧
      processReceived handleNow ⟨2, .generic⟩ tooHigh (.alone messageIdNow) connected =
        some ((), t) ∧
      t.timeDifference = -1700000000 ∧ h.after.timeDifference = -1700000000 ∧
      ¬ Corrected clockAt1700000000.fixedPoint messageIdNow 1700000000000 0
        h.after.timeDifference := by
  obtain ⟨u, met⟩ : ∃ u, meetInner ⟨2, .generic⟩ 9 1 connected = some (false, u) := ⟨_, rfl⟩
  have offset : ((meetInner ⟨2, .generic⟩ 9 1 connected).bind fun met =>
      (handleNow (.badMsgNotification 4 17) ((Ids.alone messageIdNow).inside 9) met.2).map
        (·.2.timeDifference)) = some (-1700000000) := by decide +kernel
  rw [met] at offset
  obtain ⟨⟨_, a⟩, run, offset⟩ := Option.map_eq_some_iff.1 offset
  have left : (processReceived handleNow ⟨2, .generic⟩ tooHigh (.alone messageIdNow) connected).map
      (·.2.timeDifference) = some (-1700000000) := by decide +kernel
  obtain ⟨⟨_, t⟩, whole, left⟩ := Option.map_eq_some_iff.1 left
  refine ⟨⟨.badMsgNotification 4 17, (Ids.alone messageIdNow).inside 9, u, a⟩, t, ?_, rfl,
    show ((Ids.alone messageIdNow).inside 9).realId = messageIdNow by decide, whole, left, offset,
    fun corrected => ?_⟩
  · simp only [tooHigh, Received.Handles, InnerMessages.Handles, true_and]
    exact ⟨false, u, met, .inl ⟨rfl, rfl, run⟩⟩
  · have right : clockOffset clockAt1700000000.fixedPoint messageIdNow 1700000000000 0 = 0 := by
      decide +kernel
    have same : (-1700000000 : Int) =
        clockOffset clockAt1700000000.fixedPoint messageIdNow 1700000000000 0 :=
      offset.symm.trans corrected.1
    omega

/-- Alone it leaves the clock as it is. -/
theorem corrected_alone :
    ∃ h, (Received.message (.badMsgNotification 4 17)).Handles handleNow ⟨2,
        .generic⟩ (.alone messageIdNow)
        connected h ∧
      Corrected clockAt1700000000.fixedPoint messageIdNow 1700000000000 0
        h.after.timeDifference := by
  obtain ⟨t, run⟩ : ∃ t, handleNow (.badMsgNotification 4 17) (.alone messageIdNow) connected =
      some ((), t) :=
    ⟨_, rfl⟩
  have handles : (Received.message (.badMsgNotification 4 17)).Handles handleNow ⟨2, .generic⟩
      (.alone messageIdNow) connected ⟨.badMsgNotification 4 17, .alone messageIdNow, connected,
        t⟩ := by
    simp only [Received.Handles, true_and]
    exact run
  have known : (Ids.alone messageIdNow).realId ≠ 0 := by decide
  exact ⟨_, handles, (corrected_iff clockAt1700000000 (by decide) rfl handles).2 (.inl rfl) known⟩

end Mtproto.Manager
