import Mtproto.Datacenter.RequestsData
import Mtproto.Lib.OrderedMap
import Mtproto.Lifecycle.Wires

/-!
# Messages on a connection

`sendMessagesToConnection` and `onConnectionQuickAckReceived` of `ConnectionsManager.cpp` over a
line: messages are gathered into packets, packets are encrypted and handed to `sendData`, and the
requests in a packet wait for its quick ack under the id that `createRequestsData` returns.  What
was given, handed over and acknowledged stays on record (`Event`).
-/

namespace Mtproto.Channel

open Lib Bytes Tgnet Datacenter Lifecycle

structure NetworkMessage where
  message : TL_message
  requestId : ℤ := 0

/-- What `createRequestsData` and the `sendData` behind it find. -/
structure Occasion where
  world : World
  authKey : AuthKey
  scratch : Scratch
  surroundings : Surroundings
  draws : Draws

/-- The messages of a call of `createRequestsData`, and what it returned. -/
structure Packet where
  occasion : Occasion
  reportAck : Bool
  messages : List NetworkMessage
  data : RequestsData

namespace Packet

variable (p : Packet)

/-- The call of `sendData`. -/
def send : Send := ⟨p.data.frame, p.reportAck, true, p.occasion.draws⟩

/-- The local `requestIds`. -/
def requestIds : List ℤ := (p.messages.map NetworkMessage.requestId).filter (· ≠ 0)

end Packet

/-- A call of `sendData`: a packet, or whatever else is sent on the connection. -/
inductive Handed where
  | packet (p : Packet)
  | other (s : Send)

def Handed.send : Handed → Send
  | packet p => p.send
  | other s => s

inductive Event where
  | given (messages : List NetworkMessage)
  | handed (h : Handed)
  /-- A quick ack, the tokens of `runningRequests` and those of them whose `onQuickAck` is
  called. -/
  | quickAck (ack : ℕ) (runningRequests called : List ℤ)

namespace Event

def given? : Event → List NetworkMessage
  | given messages => messages
  | _ => []

def handed? : Event → List Handed
  | handed h => [h]
  | _ => []

end Event

structure Sender where
  line : Line
  quickAckIdToRequestIds : OrderedMap ℕ (List ℤ) := []
  history : List Event := []

namespace Sender

/-- The messages that `sendMessagesToConnection` was given. -/
def given (x : Sender) : List NetworkMessage := x.history.flatMap Event.given?

/-- What `sendData` was given. -/
def handed (x : Sender) : List Handed := x.history.flatMap Event.handed?

end Sender

/-- The table with the requests of a packet. -/
def register (table : OrderedMap ℕ (List ℤ)) (p : Packet) : OrderedMap ℕ (List ℤ) :=
  match p.data.quickAckId with
  | none => table
  | some quickAckId =>
      if quickAckId ≠ 0 ∧ p.requestIds ≠ [] then
        table.insert quickAckId ((table.find quickAckId).getD [] ++ p.requestIds)
      else table

variable (crypto : Datacenter.Crypto) (tgnet : Tgnet.Crypto)

/-- A round of the loop with a full packet. -/
def sendPacket (reportAck : Bool) (o : Occasion) (messages : List NetworkMessage) (x : Sender) :
    Sender :=
  match createRequestsData crypto o.authKey o.scratch o.surroundings false reportAck
      (messages.map NetworkMessage.message) with
  | none => x
  | some data =>
      let p : Packet := ⟨o, reportAck, messages, data⟩
      { x with
        line := x.line.sendData o.world tgnet p.send
        quickAckIdToRequestIds := register x.quickAckIdToRequestIds p
        history := x.history ++ [.handed (.packet p)] }

/-- The loop of `sendMessagesToConnection`, from the messages and the size that it has gathered. -/
def sendPackets (reportAck : Bool) (occasions : ℕ → Occasion)
    (currentMessages : List NetworkMessage) (currentSize : ℕ) :
    List NetworkMessage → Sender → Sender
  | [], x => x
  | networkMessage :: messages, x =>
      let currentMessages := currentMessages ++ [networkMessage]
      let currentSize := u32 (currentSize + networkMessage.message.bytes.toNat)
      if decide (3 * 1024 ≤ currentSize) || messages.isEmpty then
        sendPackets reportAck (fun n => occasions (n + 1)) [] 0 messages
          (sendPacket crypto tgnet reportAck (occasions 0) currentMessages x)
      else sendPackets reportAck occasions currentMessages currentSize messages x

def sendMessagesToConnection (reportAck : Bool) (occasions : ℕ → Occasion)
    (messages : List NetworkMessage)
    (x : Sender) : Sender :=
  sendPackets crypto tgnet reportAck occasions [] 0 messages
    { x with history := x.history ++ [.given messages] }

def onConnectionQuickAckReceived (ack : ℕ) (runningRequests : List ℤ) (x : Sender) : Sender :=
  match x.quickAckIdToRequestIds.find ack with
  | none => { x with history := x.history ++ [.quickAck ack runningRequests []] }
  | some requestIds =>
      { x with
        quickAckIdToRequestIds := x.quickAckIdToRequestIds.erase ack
        history :=
          x.history ++ [.quickAck ack runningRequests (runningRequests.filter (· ∈ requestIds))] }

/-! ## Runs -/

inductive Input where
  | line (w : World) (i : Lifecycle.Input)
  | sendMessages (messages : List NetworkMessage) (reportAck : Bool) (occasions : ℕ → Occasion)
  | quickAck (ack : ℕ) (runningRequests : List ℤ)

/-- A direct call of `sendData` is on record too. -/
def directly : Lifecycle.Input → List Event
  | .sendData s => [.handed (.other s)]
  | _ => []

def step : Input → Program Sender Unit
  | .line w i, x =>
      (Lifecycle.step tgnet (w, i) x.line).map fun r =>
        ((), { x with line := r.2, history := x.history ++ directly i })
  | .sendMessages messages reportAck occasions, x =>
      some ((), sendMessagesToConnection crypto tgnet reportAck occasions messages x)
  | .quickAck ack runningRequests,
      x => some ((), onConnectionQuickAckReceived ack runningRequests x)

end Mtproto.Channel
