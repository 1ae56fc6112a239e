import Mtproto.Installation.Exchange

/-!
# Which keys are installed

In every state of a handshake its fields are those that the messages of its run have left
(`Handshake.Sound`), and in state 4 they hold a verified key.  The task that hands the key over runs
later and reads the fields again: it finds the key there unless the handshake was cleaned up in
between.
-/

namespace Mtproto.Installation

open Mtproto.Bytes Mtproto.Handshake Mtproto.Lib Mtproto.Lib.Program
open Mtproto.Manager (HandshakeType)

/-! ## Where it goes right -/

/-- A destroyed handshake has no key to hand over. -/
def Call.Verified (crypto : Crypto) : Call → Prop
  | .made run _ authKey _ => Installation.Verified crypto run authKey
  | .freed _ => False

/-- The handshake is there and has taken up a `dh_gen_ok`. -/
def Datacenter.Ended (dc : Datacenter) (id : ℕ) : Prop := ∃ h ∈ dc.find id, h.handshakeState = 4

/-- The nonces that a `server_DH_params_ok` has outside its encrypted part are those of the
handshake that takes it up. -/
def Message.Addressed (h : Handshake) : Message → Prop
  | .reply (.server_DH_params_ok nonce server_nonce _) =>
      h.handshakeState = 2 → h.authNonce = some nonce ∧ h.authServerNonce = some server_nonce
  | _ => True

/-- A task that hands a key over finds its handshake as it left it, and no answer with foreign
nonces is taken up. -/
def Machine.Proper (pfsEnabled : Bool) (s : Machine) : Step → Prop
  | .onConnectionDataReceived media _ message =>
      s.datacenter.deserializes pfsEnabled media message = true →
        ∀ h ∈ s.datacenter.handshakes, Datacenter.sees media h → message.Addressed h
  | .checkPendingTasks _ =>
      match s.manager.pendingTasks with
      | .complete id :: _ => s.datacenter.Ended id
      | _ => True
  | _ => True

instance (dc : Datacenter) (id : ℕ) : Decidable (dc.Ended id) :=
  inferInstanceAs (Decidable (∃ h ∈ dc.find id, h.handshakeState = 4))

instance (h : Handshake) : (message : Message) → Decidable (message.Addressed h)
  | .reply (.server_DH_params_ok nonce server_nonce _) =>
      inferInstanceAs (Decidable
        (h.handshakeState = 2 → h.authNonce = some nonce ∧ h.authServerNonce = some server_nonce))
  | .reply (.resPQ _ _ _ _) => isTrue trivial
  | .server_DH_params_fail => isTrue trivial
  | .answer _ => isTrue trivial

instance (pfsEnabled : Bool) (s : Machine) : (i : Step) → Decidable (s.Proper pfsEnabled i)
  | .onConnectionDataReceived media _ message =>
      inferInstanceAs (Decidable
        (s.datacenter.deserializes pfsEnabled media message = true →
          ∀ h ∈ s.datacenter.handshakes, Datacenter.sees media h → message.Addressed h))
  | .checkPendingTasks _ =>
      match tasks : s.manager.pendingTasks with
      | [] => isTrue (by simp [Machine.Proper, tasks])
      | .complete id :: _ =>
          decidable_of_iff (s.datacenter.Ended id) (by simp [Machine.Proper, tasks])
      | .restart _ :: _ => isTrue (by simp [Machine.Proper, tasks])
      | .sendRequest _ _ :: _ => isTrue (by simp [Machine.Proper, tasks])
  | .beginHandshake _ _ => isTrue trivial
  | .restart _ _ => isTrue trivial
  | .cleanupHandshake _ => isTrue trivial
  | .clearAuthKey _ => isTrue trivial
  | .bindSent _ _ => isTrue trivial
  | .bindAnswered _ _ => isTrue trivial

/-- The machine at its start: keys may be there, handshakes are not. -/
def Machine.Fresh (s : Machine) : Prop :=
  s.datacenter.handshakes = [] ∧ s.manager.pendingTasks = [] ∧ s.manager.requests = [] ∧
    s.calls = []

/-! ## The fields of a handshake and its run -/

/-- The key that is handed over in the end. -/
def Handshake.pendingKey (h : Handshake) : Option (List UInt8) :=
  if h.handshakeType = .perm then h.handshakeAuthKey else h.authKeyTempPending

/-- In every state the fields are those that the messages of the run have left. -/
structure Handshake.Sound (crypto : Crypto) (h : Handshake) : Prop where
  begun : h.handshakeState = 1 →
    h.authServerNonce = none ∧ ∃ authNonce, h.authNonce = some authNonce ∧
      h.run = [.begun authNonce]
  asked : h.handshakeState = 2 → ∀ authNewNonce authServerNonce,
    h.authNewNonce = some authNewNonce → h.authServerNonce = some authServerNonce →
      ∃ authNonce, h.authNonce = some authNonce ∧
        h.run = [.begun authNonce, .resPQ authNonce authServerNonce authNewNonce]
  agreed : h.handshakeState = 3 → ∃ (x : Exchange) (key : List UInt8),
    h.run = x.taken ∧ x.Agrees crypto key ∧ h.authNonce = some x.authNonce ∧
      h.authServerNonce = some x.authServerNonce ∧ h.authNewNonce = some x.authNewNonce ∧
      h.handshakeAuthKey = some key
  ended : h.handshakeState = 4 → Verified crypto h.run h.pendingKey

section Handlers

variable {crypto : Crypto} {assertions : Bool} {h : Handshake}

theorem sound_of_idle (state : h.handshakeState = 0) : h.Sound crypto where
  begun one := by omega
  asked two := by omega
  agreed three := by omega
  ended four := by omega

theorem sound_of_begun (state : h.handshakeState = 1) (server : h.authServerNonce = none)
    {authNonce : List UInt8}
    (own : h.authNonce = some authNonce) (run : h.run = [.begun authNonce]) : h.Sound crypto where
  begun _ := ⟨server, authNonce, own, run⟩
  asked two := by omega
  agreed three := by omega
  ended four := by omega

theorem sound_of_asked (state : h.handshakeState = 2)
    (asked : ∀ authNewNonce authServerNonce, h.authNewNonce = some authNewNonce →
      h.authServerNonce = some authServerNonce → ∃ authNonce, h.authNonce = some authNonce ∧
        h.run = [.begun authNonce, .resPQ authNonce authServerNonce authNewNonce]) :
          h.Sound crypto where
  begun one := by omega
  asked _ := asked
  agreed three := by omega
  ended four := by omega

theorem sound_of_agreed (state : h.handshakeState = 3) {x : Exchange} {key : List UInt8}
    (run : h.run = x.taken)
    (agrees : x.Agrees crypto key) (own : h.authNonce = some x.authNonce)
    (server : h.authServerNonce = some x.authServerNonce)
    (new : h.authNewNonce = some x.authNewNonce)
    (agreed : h.handshakeAuthKey = some key) : h.Sound crypto where
  begun one := by omega
  asked two := by omega
  agreed _ := ⟨x, key, run, agrees, own, server, new, agreed⟩
  ended four := by omega

theorem sound_of_ended (state : h.handshakeState = 4)
    (verified : Verified crypto h.run h.pendingKey) :
    h.Sound crypto where
  begun one := by omega
  asked two := by omega
  agreed three := by omega
  ended _ := verified

theorem yields_cleanupHandshake (h : Handshake) :
    Yields (fun h' => h'.handshakeState = 0 ∧ h'.authServerNonce = none)
    h.cleanupHandshake := by
  intro m h' m' run
  obtain ⟨⟨⟩, u, -, rest⟩ := bind_run run
  rw [(pure_run rest).1]
  exact ⟨rfl, rfl⟩

theorem sound_cleanupHandshake (h : Handshake) :
    Yields (Handshake.Sound crypto) h.cleanupHandshake := by
  intro m h' m' run
  exact sound_of_idle (yields_cleanupHandshake h m h' m' run).1

theorem sound_beginHandshake (nonce : List UInt8) (h : Handshake) :
    Yields (Handshake.Sound crypto) (h.beginHandshake nonce) := by
  refine yields_bind (yields_cleanupHandshake h) fun h' clean => yields_pure ?_
  exact sound_of_begun rfl clean.2 rfl rfl

/-- `TL_resPQ` is answered. -/
theorem Handshake.Sound.requestDhParams (sound : h.Sound crypto) (state : h.handshakeState = 1)
    (e : Surroundings)
    {nonce : List UInt8} (same : h.authNonce = some nonce) (server_nonce : List UInt8) :
    (h.requestDhParams e nonce server_nonce).Sound crypto := by
  obtain ⟨-, authNonce, own, run⟩ := sound.begun state
  obtain rfl : nonce = authNonce := Option.some.inj (same.symm.trans own)
  refine sound_of_asked rfl fun authNewNonce authServerNonce new server => ?_
  obtain rfl : e.new_nonce = authNewNonce := Option.some.inj new
  obtain rfl : server_nonce = authServerNonce := Option.some.inj server
  refine ⟨nonce, own, ?_⟩
  show h.run ++ [_] = _
  rw [run]
  rfl

/-- A cdn handshake waits for the keys in state 2, without the nonces of an answer. -/
theorem Handshake.Sound.waiting (sound : h.Sound crypto) (state : h.handshakeState = 1) :
    ({ h with handshakeState := 2 } : Handshake).Sound crypto := by
  refine sound_of_asked rfl fun authNewNonce authServerNonce _ server => ?_
  have none := (sound.begun state).1
  have some : h.authServerNonce = some authServerNonce := server
  rw [none] at some
  cases some

/-- `TL_server_DH_params_ok` is answered. -/
theorem Handshake.Sound.setClientDhParams (sound : h.Sound crypto) {isCdnDatacenter : Bool}
    {datacenterId : ℤ}
    {e : Surroundings} {nonce server_nonce authNonce : List UInt8} {encrypted_answer : FramedArray}
    (own : h.authNonce = some authNonce)
    (addressed : Message.Addressed h
      (.reply (.server_DH_params_ok nonce server_nonce encrypted_answer)))
    (outcome : Mtproto.Handshake.processHandshakeResponse crypto assertions e.draws
      (h.fields isCdnDatacenter datacenterId e authNonce)
        (.server_DH_params_ok nonce server_nonce encrypted_answer) =
        .proceeded) :
    Yields (Handshake.Sound crypto)
      (h.setClientDhParams crypto e nonce server_nonce encrypted_answer) := by
  obtain ⟨state, authNewNonce, authServerNonce, new, server, hash, inner, parsed, checked⟩ :=
    params_proceeded outcome
  have state : h.handshakeState = 2 := state
  have new : h.authNewNonce = some authNewNonce := new
  have server : h.authServerNonce = some authServerNonce := server
  obtain ⟨inner_nonce, inner_server, dh_prime, g_a, prime, number, good, fits⟩ :=
    checkInner_proceeded checked
  obtain ⟨authNonce', own', run⟩ := sound.asked state authNewNonce authServerNonce new server
  obtain rfl : authNonce = authNonce' := Option.some.inj (own.symm.trans own')
  obtain ⟨nonce_eq, server_eq⟩ := addressed state
  obtain rfl : authNonce = nonce := Option.some.inj (own.symm.trans nonce_eq)
  obtain rfl : authServerNonce = server_nonce := Option.some.inj (server.symm.trans server_eq)
  rw [Handshake.setClientDhParams]
  refine yields_require fun _ got => ?_
  obtain rfl := Option.some.inj (new.symm.trans got)
  refine yields_require fun _ got => ?_
  obtain rfl := Option.some.inj (server.symm.trans got)
  refine yields_require fun _ got => ?_
  obtain rfl := Option.some.inj (parsed.symm.trans got)
  refine yields_require fun key made => yields_pure ?_
  have answered : Exchange.Answered crypto
      ⟨authNonce, authNonce, authServerNonce, authNewNonce, authNonce, authServerNonce,
        encrypted_answer, e.b⟩ key :=
    ⟨hash, inner, dh_prime, g_a, parsed, inner_nonce, inner_server, prime, number, good, fits,
      fullWidth_agreedKey prime number good made⟩
  refine sound_of_agreed rfl ?_ ⟨rfl, rfl, rfl, answered⟩ own server new rfl
  show h.run ++ [_] = _
  rw [run]
  rfl

/-- `dh_gen_ok` is accepted. -/
theorem Handshake.Sound.completed (sound : h.Sound crypto) {answer : Set_client_DH_params_answer}
    (outcome : h.processAnswer crypto.sha1 answer = .proceeded) :
    Yields (Handshake.Sound crypto) (h.completed crypto answer) := by
  obtain ⟨state, authNonce, authServerNonce, authNewNonce, key, own, server, new, agreed, ok, nonce,
    server_nonce,
    hash⟩ := processAnswer_proceeded outcome
  obtain ⟨x, key', run, agrees, own', server', new', agreed'⟩ := sound.agreed state
  obtain rfl := Option.some.inj (own'.symm.trans own)
  obtain rfl := Option.some.inj (server'.symm.trans server)
  obtain rfl := Option.some.inj (new'.symm.trans new)
  obtain rfl := Option.some.inj (agreed'.symm.trans agreed)
  have verified : Verified crypto (h.run ++ [.answer answer]) (some key') :=
    ⟨x, key', answer, rfl, by rw [run], agrees, ok, nonce, server_nonce, hash⟩
  rw [Handshake.completed]
  refine yields_require fun key got => ?_
  obtain rfl := Option.some.inj (agreed.symm.trans got)
  dsimp only
  split
  · rename_i perm
    refine yields_after fun _ => yields_pure ?_
    apply sound_of_ended rfl
    rw [Handshake.pendingKey, if_pos perm]
    exact agreed ▸ verified
  · rename_i other
    refine yields_after fun _ => yields_pure ?_
    apply sound_of_ended rfl
    rw [Handshake.pendingKey, if_neg other]
    exact verified

/-- One message keeps the fields in step with the run. -/
theorem sound_processHandshakeResponse (sound : h.Sound crypto) (isCdnDatacenter : Bool)
    (datacenterId : ℤ)
    (e : Surroundings) {message : Message} (addressed : message.Addressed h) :
    Yields (Handshake.Sound crypto)
      (h.processHandshakeResponse crypto assertions isCdnDatacenter datacenterId e message) := by
  unfold Handshake.processHandshakeResponse
  split
  · exact yields_pure sound
  cases message with
  | server_DH_params_fail => exact sound_beginHandshake e.nonce h
  | answer answer =>
      dsimp only
      split
      · exact yields_pure sound
      · exact sound_beginHandshake e.nonce h
      · exact sound.completed ‹_›
      · exact yields_fault
  | reply reply =>
      refine yields_require fun authNonce own => ?_
      generalize outcome : Mtproto.Handshake.processHandshakeResponse crypto assertions e.draws
        (h.fields isCdnDatacenter datacenterId e authNonce) reply = out
      cases out with
      | ignored => exact yields_pure sound
      | acknowledged => exact yields_pure sound
      | loadsCdnConfig => exact yields_pure (sound.waiting (state_of_loadsCdnConfig outcome))
      | restarted => exact sound_beginHandshake e.nonce h
      | proceeded =>
          cases reply with
          | resPQ nonce server_nonce pq fingerprints =>
              obtain ⟨state, same⟩ := resPQ_proceeded outcome
              have same : authNonce = nonce := same
              exact yields_pure
                (sound.requestDhParams state e (own.trans (congrArg some same)) server_nonce)
          | server_DH_params_ok nonce server_nonce encrypted_answer =>
              exact sound.setClientDhParams own addressed outcome
      | aborted => exact yields_fault
      | nullPointer => exact yields_fault
      | readOutside => exact yields_fault
      | keyOutside => exact yields_fault
      | remainderByZero => exact yields_fault
      | shiftByWidth => exact yields_fault
      | unfinished => exact yields_fault

end Handlers

/-! ## The datacenter -/

section Datacenters

variable {crypto : Crypto} {assertions pfsEnabled : Bool} {dc : Datacenter}

def Datacenter.Sound (crypto : Crypto) (dc : Datacenter) : Prop :=
  ∀ h ∈ dc.handshakes, h.Sound crypto

theorem Datacenter.mem_of_find {id : ℕ} {h : Handshake} (found : dc.find id = some h) :
    h ∈ dc.handshakes :=
  List.mem_of_find?_eq_some found

theorem sound_withHandshake (sound : dc.Sound crypto) (id : ℕ) {f : Handshake → M Handshake}
    (kept : ∀ h, h.Sound crypto → Yields (Handshake.Sound crypto) (f h)) :
    Yields (Datacenter.Sound crypto) (dc.withHandshake id f) := by
  rw [Datacenter.withHandshake]
  refine yields_require fun _ _ => ?_
  refine yields_bind (yields_mapM (Q := Handshake.Sound crypto) fun h mem => ?_) fun _ all =>
    yields_pure all
  split
  · exact kept h (sound h mem)
  · exact yields_pure (sound h mem)

theorem sound_addHandshake (sound : dc.Sound crypto) (nonce : List UInt8) (type : HandshakeType) :
    Yields (Datacenter.Sound crypto) (dc.addHandshake nonce type) := by
  rw [Datacenter.addHandshake]
  split
  · exact yields_pure sound
  · refine yields_bind (P := Handshake.Sound crypto) (sound_beginHandshake nonce _) fun h hh =>
      yields_pure ?_
    exact List.forall_mem_append.2 ⟨sound, by simpa using hh⟩

theorem sound_beginHandshakes (sound : dc.Sound crypto) (nonces : ℕ → List UInt8)
    (type : HandshakeType) :
    Yields (Datacenter.Sound crypto) (dc.beginHandshake pfsEnabled nonces type) := by
  rw [Datacenter.beginHandshake]
  split
  · exact yields_bind (yields_mapM fun h _ => sound_beginHandshake (nonces h.id) h) fun _ all =>
      yields_pure all
  split
  · exact sound_addHandshake sound _ _
  split
  · split
    · exact sound_addHandshake sound _ _
    split
    · exact sound_addHandshake sound _ _
    · exact yields_pure sound
  · exact yields_pure sound

theorem sound_clearAuthKey (type : HandshakeType) (dc : Datacenter) :
    Yields (Datacenter.Sound crypto) (dc.clearAuthKey type) := by
  rw [Datacenter.clearAuthKey]
  refine yields_after fun _ => yields_pure ?_
  exact fun h mem => absurd mem (by simp)

theorem sound_processHandshakeResponses (sound : dc.Sound crypto) (media : Bool)
    (e : ℕ → Surroundings)
    {message : Message}
    (addressed : ∀ h ∈ dc.handshakes, Datacenter.sees media h → message.Addressed h) :
    Yields (Datacenter.Sound crypto)
      (dc.processHandshakeResponse crypto assertions media e message) := by
  rw [Datacenter.processHandshakeResponse]
  refine yields_bind (yields_mapM (Q := Handshake.Sound crypto) fun h mem => ?_) fun _ all =>
    yields_pure all
  split
  · exact sound_processHandshakeResponse (sound h mem) _ _ _ (addressed h mem ‹_›)
  · exact yields_pure (sound h mem)

theorem sound_onConnectionDataReceived (sound : dc.Sound crypto) (media : Bool)
    (e : ℕ → Surroundings)
    {message : Message}
    (addressed : dc.deserializes pfsEnabled media message = true →
      ∀ h ∈ dc.handshakes, Datacenter.sees media h → message.Addressed h) :
    Yields (Datacenter.Sound crypto)
      (dc.onConnectionDataReceived crypto assertions pfsEnabled media e message) := by
  rw [Datacenter.onConnectionDataReceived]
  split
  · exact sound_processHandshakeResponses sound media e (addressed ‹_›)
  · exact yields_pure sound

theorem sound_onHandshakeComplete (sound : dc.Sound crypto) (nonces : ℕ → List UInt8)
    (h : Handshake)
    (keyId : BitVec 64) (authKey : Option (List UInt8)) :
    Yields (Datacenter.Sound crypto)
      (dc.onHandshakeComplete pfsEnabled nonces h keyId authKey) := by
  have fewer :
      ({ dc with handshakes := dc.handshakes.filter (·.id ≠ h.id) } : Datacenter).Sound crypto := by
    intro h' mem
    exact sound h' (List.mem_of_mem_filter mem)
  rw [Datacenter.onHandshakeComplete]
  refine yields_after fun _ => ?_
  dsimp only
  split
  · split
    · exact sound_beginHandshakes (by exact fewer) nonces .all
    · exact yields_pure fewer
  split
  · exact yields_pure fewer
  split
  · exact yields_pure fewer
  · exact yields_pure fewer

end Datacenters

/-! ## Runs -/

section Runs

variable {crypto : Crypto} {assertions pfsEnabled : Bool} {s t : Machine}

/-- What the steps keep. -/
structure Machine.Inv (crypto : Crypto) (s : Machine) : Prop where
  sound : s.datacenter.Sound crypto
  verified : ∀ call ∈ s.calls, call.Verified crypto

theorem Machine.inv_within {f : Datacenter → M Datacenter} (run : Machine.within f s = some ((), t))
    (inv : s.Inv crypto) (kept : Yields (Datacenter.Sound crypto) (f s.datacenter)) :
    t.Inv crypto := by
  obtain ⟨⟨dc, m⟩, result, rest⟩ := Option.bind_eq_some_iff.1 run
  obtain rfl := congrArg Prod.snd (Option.some.inj rest)
  exact ⟨kept _ _ _ result, inv.verified⟩

/-- A key that is handed over in state 4 is the one of the run. -/
theorem Machine.inv_complete {nonces : ℕ → List UInt8} {id : ℕ}
    (run : Machine.complete pfsEnabled nonces id s = some ((), t)) (inv : s.Inv crypto)
    (ended : s.datacenter.Ended id) : t.Inv crypto := by
  obtain ⟨h, found, state⟩ := ended
  have verified := (inv.sound h (Datacenter.mem_of_find found)).ended state
  rw [Machine.complete, read_bind, found] at run
  dsimp only at run
  rw [update_bind] at run
  have called :
      ∀ call ∈ s.calls ++ [Call.made h.run h.authKeyTempPendingId h.pendingKey h.timeDifference],
      call.Verified crypto := by
    refine List.forall_mem_append.2 ⟨inv.verified, ?_⟩
    intro call mem
    rw [List.mem_singleton.1 mem]
    exact verified
  rw [Handshake.pendingKey] at called
  by_cases perm : h.handshakeType = .perm
  · simp only [if_pos perm] at run called
    exact Machine.inv_within run ⟨inv.sound, called⟩ (sound_onHandshakeComplete inv.sound _ _ _ _)
  · simp only [if_neg perm] at run called
    exact Machine.inv_within run ⟨inv.sound, called⟩ (sound_onHandshakeComplete inv.sound _ _ _ _)

theorem Machine.inv_checkPendingTasks {nonces : ℕ → List UInt8}
    (run : Machine.checkPendingTasks pfsEnabled nonces s = some ((), t)) (inv : s.Inv crypto)
    (proper : s.Proper pfsEnabled (.checkPendingTasks nonces)) : t.Inv crypto := by
  rw [Machine.checkPendingTasks, read_bind] at run
  cases tasks : s.manager.pendingTasks with
  | nil =>
      rw [tasks] at run
      rw [(pure_run run).2]
      exact inv
  | cons task rest =>
      rw [tasks] at run
      dsimp only at run
      rw [update_bind] at run
      cases task with
      | complete id =>
          have ended : s.datacenter.Ended id := by simpa only [Machine.Proper, tasks] using proper
          exact Machine.inv_complete run ⟨inv.sound, inv.verified⟩ ended
      | restart id =>
          refine Machine.inv_within run ⟨inv.sound, inv.verified⟩ ?_
          exact sound_withHandshake inv.sound id fun h _ => sound_beginHandshake (nonces id) h
      | sendRequest token id =>
          rw [update_run run]
          exact ⟨inv.sound, inv.verified⟩

theorem Machine.inv_bindSent {token : ℕ} {messageId : ℤ}
    (run : Machine.bindSent token messageId s = some ((), t))
    (inv : s.Inv crypto) : t.Inv crypto := by
  rw [Machine.bindSent, read_bind] at run
  cases found : s.manager.requests.find? (·.requestToken = token) with
  | none =>
      rw [found] at run
      rw [(pure_run run).2]
      exact inv
  | some request =>
      rw [found] at run
      dsimp only at run
      rw [update_bind] at run
      refine Machine.inv_within run ⟨inv.sound,
        inv.verified⟩ (sound_withHandshake inv.sound _ fun h sound => ?_)
      exact yields_pure ⟨sound.begun, sound.asked, sound.agreed, sound.ended⟩

theorem Machine.inv_bindAnswered {token : ℕ} {boolTrue : Bool}
    (run : Machine.bindAnswered token boolTrue s = some ((), t)) (inv : s.Inv crypto) :
    t.Inv crypto := by
  rw [Machine.bindAnswered, read_bind] at run
  cases found : s.manager.requests.find? (·.requestToken = token) with
  | none =>
      rw [found] at run
      rw [(pure_run run).2]
      exact inv
  | some request =>
      rw [found] at run
      dsimp only at run
      rw [update_bind] at run
      refine Machine.inv_within run ⟨inv.sound,
        inv.verified⟩ (sound_withHandshake inv.sound _ fun h sound => ?_)
      refine yields_after fun _ => ?_
      exact yields_pure ⟨sound.begun, sound.asked, sound.agreed, sound.ended⟩

/-- One step. -/
theorem Machine.inv_step {i : Step} (run : step crypto assertions pfsEnabled i s = some ((), t))
    (inv : s.Inv crypto)
    (proper : s.Proper pfsEnabled i) : t.Inv crypto := by
  cases i with
  | onConnectionDataReceived media e message =>
      exact Machine.inv_within run inv (sound_onConnectionDataReceived inv.sound media e proper)
  | beginHandshake nonces type =>
      exact Machine.inv_within run inv (sound_beginHandshakes inv.sound nonces type)
  | restart id nonce =>
      exact Machine.inv_within run inv (sound_withHandshake inv.sound id fun h _ =>
        sound_beginHandshake nonce h)
  | cleanupHandshake id =>
      exact Machine.inv_within run inv (sound_withHandshake inv.sound id fun h _ =>
        sound_cleanupHandshake h)
  | clearAuthKey type => exact Machine.inv_within run inv (sound_clearAuthKey type s.datacenter)
  | checkPendingTasks nonces => exact Machine.inv_checkPendingTasks run inv proper
  | bindSent token messageId => exact Machine.inv_bindSent run inv
  | bindAnswered token boolTrue => exact Machine.inv_bindAnswered run inv

/-- As long as tasks find their handshakes as they left them and no answer with foreign nonces is
taken up, every key that is handed over is the verified key of the run. -/
theorem verified_of_reaches
    (reached : Program.Reaches (step crypto assertions pfsEnabled) Machine.Fresh
      (Machine.Proper pfsEnabled) s) : ∀ call ∈ s.calls, call.Verified crypto := by
  have inv : s.Inv crypto := by
    refine reached.invariant (fun s fresh => ?_) fun s i t inv proper run =>
      Machine.inv_step run inv proper
    obtain ⟨none, -, -, no_calls⟩ := fresh
    refine ⟨fun h mem => ?_, fun call mem => ?_⟩
    · rw [none] at mem
      cases mem
    · rw [no_calls] at mem
      cases mem
  exact inv.verified

end Runs

/-! ### A handshake -/

def sampleNonce : List UInt8 := toBE 16 0x0102030405060708090a0b0c0d0e0f10

def sampleServerNonce : List UInt8 := toBE 16 0x2122232425262728292a2b2c2d2e2f30

def sampleNewNonce : List UInt8 :=
  toBE 32 0x4142434445464748494a4b4c4d4e4f505152535455565758595a5b5c5d5e5f60

/-- An answer with the known prime, the generator 3 and `g_a = 2 ^ 1983`. -/
def sampleInner : List UInt8 :=
  toLE 4 0xb5890dba ++ sampleNonce ++ sampleServerNonce ++ toLE 4 3 ++ toLE 4 0x100fe ++
    toBE 256 goodPrime ++
    248 :: toBE 248 (2 ^ 1983) ++ [0, 0, 0] ++ toLE 4 0x5e0b7000

def sampleAnswer : List UInt8 := toBE 20 0x12a9825c69aa71449e2fe421e879b9b9fecb4321 ++ sampleInner

def sampleEncrypted : List UInt8 :=
  toBE 32 0x20ee7534c9680eba0b0bb4d0c3744a787d9180c32cf91e0a500c5066824421ca ++
    toBE 32 0x28f80067c14e5df555638192a3554a05f0c2f0b3fba8b3d74dfccf1d0bf00f7e ++
    toBE 32 0x885fce1d83ea7c817065d19009dd81f371c4ad2b5f1644539f39413659a0523d ++
    toBE 32 0x58cc9990bb1bb6f182bf93ad05868940acfed36fe87a48aea4e64126286025a3 ++
    toBE 32 0x5523f8cffae68d0d4e286f2271776d1ba8113f85b247076c86357ac9f6533ea3 ++
    toBE 32 0x70ec2a3850fda5c9333e9de8dcd32ae8163a804fd8b545ed437f4df42539e3f6 ++
    toBE 32 0x4fb3e2746e90cb5161bfacfe5a0fc9739e8c9c2201b7f68fcda94b67cecbf96b ++
    toBE 32 0xa9fd2c380a3bb20c4f0667a11213521afba37778d7052199f1e18b7ebf958f30 ++
    toBE 32 0xc8b715b7d2ba206457935727ef2a3220f696381240c61bf0ac2691872d8310b4 ++
    toBE 32 0xe99d004dc25eeea34d3c021166e085f656840f20e0cf90b9766b6d779488b1c3 ++
    toBE 32 0x3409a163801dae9963b4cbf29c5694d12cd0c232ca73c84ad24b935f0237d56e ++
    toBE 32 0xfa420fc4b0e18fb9947dc8de83802172395028293d5a8594b6c2975ea2eab761 ++
    toBE 32 0xee09de70c196f351c717d8a837a221f0a2855404aea92d95d3aa4335dfe69601 ++
    toBE 32 0xa10fd41f4055e736644997427474269079bf86ff2a8056425a496c6fe4bb2446 ++
    toBE 32 0xd874d3aa29c63d6d7e115667d92eb9008eaec3e29add528ed845c1b583ad2053 ++
    toBE 32 0x8a4b9374e31c41c41bf5a684bdc91e64f3611ae1dfef0bdb8ba02466089f6fc4 ++
    toBE 32 0x5f055e04894096fdbc7b301247004510b4c7dca85dac498ca060a48918e331ec ++
    toBE 32 0xbab78e7f42dc9bce8b94665971744cf1a39ddf2cd64696055d6d4bf3d187f19b

/-- `g_a ^ b` for `b = 3`. -/
def sampleKey : List UInt8 := toBE 256 ((2 ^ 1983) ^ 3 % goodPrime)

/-- The hashes of the handshake. -/
def sampleHashes : List (List UInt8 × List UInt8) :=
  [(sampleNewNonce ++ sampleServerNonce, toBE 20 0xf0e8986bea87fe105062f680d133f0e14aff6fb5),
    (sampleServerNonce ++ sampleNewNonce, toBE 20 0x018985d45f7026de6a91e1051c5a7c1d3ca3ee04),
    (sampleNewNonce ++ sampleNewNonce, toBE 20 0x574fc5672097524c430dfc55066999dbbe79c062),
    (sampleInner, toBE 20 0x12a9825c69aa71449e2fe421e879b9b9fecb4321),
    (sampleKey, toBE 20 0x9becba9d0da36bcd559aa0d716926a30c916c4ff),
    (sampleNewNonce ++ [1] ++ toBE 8 0x9becba9d0da36bcd,
      toBE 20 0x35c375a248cf7b441bcb16ece0ae1365147d939f)]

def sampleSha1 (message : List UInt8) : List UInt8 :=
  (sampleHashes.lookup message).getD (List.replicate 20 0)

def sampleCrypto : Crypto where
  sha1 := sampleSha1
  aesIge key iv data :=
    let tmp := tmpAesKeyAndIv sampleSha1 sampleNewNonce sampleServerNonce
    if key = tmp.take 32 ∧ iv = (tmp.drop 32).take 32 ∧ data = sampleEncrypted then
      sampleAnswer
    else data
  length_aesIge key iv data := by
    dsimp only
    split_ifs with same
    · rw [same.2.2]
      decide +kernel
    · rfl
  checkPrime := fun _ => false

def sampleSurroundings : Surroundings where
  publicKey := "key"
  serverKeys := ⟨[], [], rfl⟩
  cdnKeys := ⟨[], []⟩
  draws := fun _ => 0
  nonce := sampleNonce
  new_nonce := sampleNewNonce
  b := toBE 256 3
  memory := fun _ => 0
  currentTime := 0x5e0b7000

def sampleMachine : Machine where
  datacenter := { datacenterId := 2, isCdnDatacenter := false, hasMediaAddress := false }
  manager := { pendingTasks := [], requests := [], lastRequestToken := 1 }
  calls := []

/-- A handshake up to `dh_gen_ok`. -/
def sampleSteps : List Step :=
  [.beginHandshake (fun _ => sampleNonce) .all,
    .onConnectionDataReceived false (fun _ => sampleSurroundings)
      (.reply (.resPQ sampleNonce sampleServerNonce ⟨toBE 8 391, by decide⟩
        [(0xdd4871feb0a26c27 : UInt64).toInt64])),
    .onConnectionDataReceived false (fun _ => sampleSurroundings)
      (.reply (.server_DH_params_ok sampleNonce sampleServerNonce
        ⟨sampleEncrypted, by decide +kernel⟩)),
    .onConnectionDataReceived false (fun _ => sampleSurroundings)
      (.answer ⟨.ok, sampleNonce, sampleServerNonce, toBE 16 0x48cf7b441bcb16ece0ae1365147d939f⟩)]

/-- The handshake is completed by its task. -/
theorem verified_sample :
    ∃ s, Program.Reaches (step sampleCrypto false false) Machine.Fresh (Machine.Proper false) s ∧
    s.calls.length = 1 ∧ ∀ call ∈ s.calls, call.Verified sampleCrypto := by
  have ends : (each (guarded (step sampleCrypto false false) (Machine.Proper false))
      (sampleSteps ++ [.checkPendingTasks fun _ => sampleNonce]) sampleMachine).map (fun r =>
        r.2.calls.length) =
        some 1 := by decide +kernel
  obtain ⟨⟨⟨⟩, s⟩, run, one⟩ := Option.map_eq_some_iff.1 ends
  have fresh : sampleMachine.Fresh := ⟨rfl, rfl, rfl, rfl⟩
  have reached := Program.Reaches.guarded (.start fresh) run
  exact ⟨s, reached, one, verified_of_reaches reached⟩

/-- The handshakes begin again between `dh_gen_ok` and the task, which then hands over a null
pointer. -/
theorem not_verified_of_restart :
    ¬ ∀ s, Program.Reaches (step sampleCrypto false false) Machine.Fresh
    (fun _ _ => True) s → ∀ call ∈ s.calls, call.Verified sampleCrypto := by
  intro verified
  have ends : (each (step sampleCrypto false false)
      (sampleSteps ++ [.beginHandshake (fun _ => sampleNonce) .current,
        .checkPendingTasks fun _ => sampleNonce]) sampleMachine).map (fun r =>
          r.2.calls.map Call.authKey) =
          some [none] := by decide +kernel
  obtain ⟨⟨⟨⟩, s⟩, run, keys⟩ := Option.map_eq_some_iff.1 ends
  have fresh : sampleMachine.Fresh := ⟨rfl, rfl, rfl, rfl⟩
  have reached : Program.Reaches (step sampleCrypto false false) Machine.Fresh (fun _ _ =>
      True) s :=
    Program.Reaches.each (fun _ _ _ => trivial) (.start fresh) run
  obtain ⟨call, only, null⟩ := List.map_eq_singleton_iff.1 keys
  have mem : call ∈ s.calls := by
    rw [only]
    exact List.mem_singleton_self call
  have of_call := verified s reached call mem
  cases call with
  | made run keyId authKey timeDifference =>
      obtain ⟨_, _, _, some, -⟩ := of_call
      have none : authKey = none := null
      rw [none] at some
      cases some
  | freed id => exact of_call

end Mtproto.Installation
