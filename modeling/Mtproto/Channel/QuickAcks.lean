import Mtproto.Channel.Delivery
import Mtproto.Lib.Past

/-!
# Quick acks

A quick ack calls the running requests of the packets that wait for it and no others, where a packet
waits for the id that the other side computes from what it has opened, until the first ack with this
id (`quick_acks_exact`).
-/

namespace Mtproto.Channel

open Lib Program Tgnet Datacenter Lifecycle

variable {crypto : Datacenter.Crypto} {tgnet : Tgnet.Crypto} {x : Sender}

/-- The packet asks for an ack, and this is the id that the other side computes from the message. -/
def Packet.Wants (crypto : Datacenter.Crypto) (p : Packet) (ack : ℕ) : Prop :=
  p.reportAck = true ∧ ∃ authKey, p.occasion.authKey.authKeyPerm = some authKey ∧
    ack = quickAckIdOf crypto authKey p.plaintext

/-- A packet goes out that waits for the ack, with the request in it. -/
def Asks (crypto : Datacenter.Crypto) (ack : ℕ) (token : ℤ) : Event → Prop
  | .handed (.packet p) => ack ≠ 0 ∧ p.Wants crypto ack ∧ token ∈ p.requestIds
  | _ => False

def Acks (ack : ℕ) : Event → Prop
  | .quickAck other _ _ => other = ack
  | _ => False

/-- The calls of an ack: in the order of `runningRequests`, those that still wait for it. -/
def Answered (crypto : Datacenter.Crypto) (front : List Event) : Event → Prop
  | .quickAck ack runningRequests called =>
      called.Sublist runningRequests ∧
        ∀ token, token ∈ called ↔ token ∈ runningRequests ∧
          Since (Asks crypto ack token) (Acks ack) front
  | _ => True

/-- The table has what waits, and every ack on record has called what did. -/
structure Waiting (crypto : Datacenter.Crypto) (x : Sender) : Prop where
  table : ∀ ack token, token ∈ (x.quickAckIdToRequestIds.find ack).getD [] ↔
    Since (Asks crypto ack token) (Acks ack) x.history
  answered : EachPast (Answered crypto) x.history

theorem Packet.Made.wants_iff {p : Packet} (made : p.Made crypto) (ack : ℕ) :
    p.Wants crypto ack ↔ p.data.quickAckId = some ack := by
  obtain ⟨authKey, perm, id⟩ := made.quickAckId
  rw [Packet.Wants, id]
  constructor
  · rintro ⟨asked, other, same, rfl⟩
    rw [perm, Option.some.injEq] at same
    rw [if_pos asked, same]
  · intro found
    split_ifs at found with asked
    exact ⟨asked, authKey, perm, (Option.some.inj found).symm⟩

theorem mem_register (table : OrderedMap ℕ (List ℤ)) (p : Packet) (ack : ℕ) (token : ℤ) :
    token ∈ ((register table p).find ack).getD [] ↔
      (ack ≠ 0 ∧ p.data.quickAckId = some ack ∧ token ∈ p.requestIds) ∨
      token ∈ (table.find ack).getD [] := by
  rw [register]
  cases id : p.data.quickAckId with
  | none => simp
  | some quickAckId =>
    simp only [Option.some.injEq]
    split_ifs with some_id
    · rw [OrderedMap.find_insert]
      split_ifs with same
      · subst same
        simp [some_id.1, or_comm]
      · simp [Ne.symm same]
    · rw [not_and_or, not_not, not_not] at some_id
      refine ⟨.inr, ?_⟩
      rintro (⟨nonzero, rfl, mem⟩ | mem)
      · rcases some_id with zero | empty
        · exact absurd zero nonzero
        · simp [empty] at mem
      · exact mem

/-- An event that neither asks nor acknowledges changes nothing. -/
theorem Waiting.other {x' : Sender} (waiting : Waiting crypto x) {e : Event}
    (table : x'.quickAckIdToRequestIds = x.quickAckIdToRequestIds)
    (history : x'.history = x.history ++ [e])
    (asks : ∀ ack token, ¬ Asks crypto ack token e) (acks : ∀ ack, ¬ Acks ack e)
    (answered : Answered crypto x.history e) : Waiting crypto x' := by
  refine ⟨fun ack token => ?_, ?_⟩
  · rw [table, history, since_snoc, waiting.table]
    simp [asks, acks]
  · rw [history, eachPast_snoc]
    exact ⟨waiting.answered, answered⟩

theorem Waiting.sendPacket (waiting : Waiting crypto x) (reportAck : Bool)
    {r : Occasion × List NetworkMessage}
    (proper : Proper r) : Waiting crypto (sendPacket crypto tgnet reportAck r.1 r.2 x) := by
  cases created : createRequestsData crypto r.1.authKey r.1.scratch r.1.surroundings false reportAck
      (r.2.map NetworkMessage.message) with
  | none =>
    simp only [Channel.sendPacket, created]
    exact waiting
  | some data =>
    have made := made_of_created proper.version reportAck proper.short created
    simp only [Channel.sendPacket, created]
    generalize (⟨r.1, reportAck, r.2, data⟩ : Packet) = p at made
    refine ⟨fun ack token => ?_, eachPast_snoc.2 ⟨waiting.answered, trivial⟩⟩
    rw [mem_register, since_snoc, waiting.table, Asks, made.wants_iff]
    simp [Acks]

theorem Waiting.sendRounds (reportAck : Bool) {rounds : List (Occasion × List NetworkMessage)}
    (proper : ∀ r ∈ rounds, Proper r) (waiting : Waiting crypto x) :
    Waiting crypto (sendRounds crypto tgnet reportAck rounds x) := by
  induction rounds generalizing x with
  | nil => exact waiting
  | cons r rounds ih =>
    exact ih (fun r mem => proper r (List.mem_cons_of_mem _ mem))
      (waiting.sendPacket reportAck (proper r List.mem_cons_self))

theorem Waiting.onConnectionQuickAckReceived (waiting : Waiting crypto x) (ack : ℕ)
    (runningRequests : List ℤ) :
    Waiting crypto (onConnectionQuickAckReceived ack runningRequests x) := by
  have pending : ∀ token, token ∈ (x.quickAckIdToRequestIds.find ack).getD [] ↔
      Since (Asks crypto ack token) (Acks ack) x.history := waiting.table ack
  have forgotten : ∀ other token (called : List ℤ),
      (if other = ack then False else token ∈ (x.quickAckIdToRequestIds.find other).getD []) ↔
        Since (Asks crypto other token) (Acks other)
          (x.history ++ [.quickAck ack runningRequests called]) := by
    intro other token called
    rw [since_snoc, ← waiting.table]
    by_cases same : other = ack
    · simp [same, Asks, Acks]
    · simp [same, Ne.symm same, Asks, Acks]
  rw [Channel.onConnectionQuickAckReceived]
  cases found : x.quickAckIdToRequestIds.find ack with
  | none =>
    simp only [found, Option.getD_none, List.not_mem_nil, false_iff] at pending
    refine ⟨fun other token => ?_,
      eachPast_snoc.2 ⟨waiting.answered, List.nil_sublist _, fun token => ?_⟩⟩
    · rw [← forgotten]
      by_cases same : other = ack
      · simp [same, found]
      · simp [same]
    · simp [pending]
  | some requestIds =>
    simp only [found, Option.getD_some] at pending
    refine ⟨fun other token => ?_,
      eachPast_snoc.2 ⟨waiting.answered, List.filter_sublist, fun token => ?_⟩⟩
    · rw [← forgotten, OrderedMap.find_erase]
      split_ifs <;> simp
    · rw [List.mem_filter, decide_eq_true_eq, pending]

theorem Waiting.step {x' : Sender} (waiting : Waiting crypto x) {i : Input} (fits : i.Fits)
    (run : Channel.step crypto tgnet i x = some ((), x')) : Waiting crypto x' := by
  cases i with
  | line w i =>
    simp only [Channel.step, Option.map_eq_some_iff, Prod.exists] at run
    obtain ⟨⟨⟩, l, -, same⟩ := run
    cases same
    cases i with
    | sendData s => exact waiting.other rfl rfl (fun _ _ asks => asks) (fun _ acks => acks) trivial
    | _ =>
        exact ⟨by simpa [directly] using waiting.table, by simpa [directly] using waiting.answered⟩
  | sendMessages messages reportAck occasions =>
    cases run
    obtain ⟨rounds, -, proper, run⟩ :=
      exists_rounds crypto tgnet fits.2 reportAck [] fits.1 (by decide) fun _ => rfl
    have begun : Waiting crypto { x with history := x.history ++ [.given messages] } :=
      waiting.other rfl rfl (fun _ _ asks => asks) (fun _ acks => acks) trivial
    have run : sendMessagesToConnection crypto tgnet reportAck occasions messages x =
        Channel.sendRounds crypto tgnet reportAck rounds
          { x with history := x.history ++ [.given messages] } := run _
    rw [run]
    exact begun.sendRounds reportAck proper
  | quickAck ack runningRequests =>
    cases run
    exact waiting.onConnectionQuickAckReceived ack runningRequests

/-- Over every run, a quick ack calls `onQuickAck` of a running request if and only if a packet with
the request in it has gone out that waits for an ack, the other side computes this id from the
message of the packet, and no ack with this id has come since; each such request once, in the order
of `runningRequests`. -/
theorem quick_acks_exact
    (reached : Reaches (Channel.step crypto tgnet) Constructed (fun _ i => i.Fits) x)
    {front back : List Event} {ack : ℕ} {runningRequests called : List ℤ}
    (acked : x.history = front ++ .quickAck ack runningRequests called :: back) :
    called.Sublist runningRequests ∧ ∀ token, token ∈ called ↔
      token ∈ runningRequests ∧ Since (Asks crypto ack token) (Acks ack) front := by
  have waiting : Waiting crypto x := by
    refine reached.invariant (fun y constructed => ⟨fun ack token => ?_, ?_⟩)
      fun _ _ _ waiting fits run => waiting.step fits run
    · rw [constructed.quickAckIdToRequestIds, constructed.history]
      exact ⟨fun mem => absurd mem (by simp [OrderedMap.find]), fun since =>
        absurd since not_since_nil⟩
    · rw [constructed.history]
      exact eachPast_nil
  exact waiting.answered front _ back acked

/-- The ack for the ping of `askedSender` comes while two requests run. -/
def answeredSender : Sender := onConnectionQuickAckReceived 0x47ae75c5 [4, 5] askedSender

theorem reaches_answeredSender :
    Reaches (Channel.step sampleCrypto countingCrypto) Constructed (fun _ i =>
      i.Fits) answeredSender :=
  .step reaches_askedSender (i := Input.quickAck 0x47ae75c5 [4, 5]) trivial rfl

theorem quick_acks_exact_ping :
    answeredSender.history = askedSender.history ++ [.quickAck 0x47ae75c5 [4, 5] [5]] ∧
    ∀ token, token ∈ [5] ↔
      token ∈ [4, 5] ∧
        Since (Asks sampleCrypto 0x47ae75c5 token) (Acks 0x47ae75c5) askedSender.history := by
  have waits : askedSender.quickAckIdToRequestIds.find 0x47ae75c5 = some [5] := by decide +kernel
  have acked : answeredSender.history = askedSender.history ++
      [.quickAck 0x47ae75c5 [4, 5] [5]] := by
    rw [answeredSender, onConnectionQuickAckReceived]
    simp [waits]
  exact ⟨acked, (quick_acks_exact reaches_answeredSender acked).2⟩

end Mtproto.Channel
