import Mtproto.Installation.Machine

/-!
# Verified keys

A key is verified when it comes from a run of messages that were all checked (`Verified`).  What the
verdicts `proceeded` of the two long replies and of the last answer say about the messages is read
off here.
-/

namespace Mtproto.Installation

open Mtproto.Bytes Mtproto.Handshake Mtproto.Lib Mtproto.Lib.Program

/-! ## Runs up to a key -/

/-- What both sides have said in a run up to the key. -/
structure Exchange where
  authNonce : List UInt8
  pqNonce : List UInt8
  authServerNonce : List UInt8
  authNewNonce : List UInt8
  dhNonce : List UInt8
  dhServerNonce : List UInt8
  encrypted_answer : FramedArray
  b : List UInt8

namespace Exchange

def taken (x : Exchange) : List Taken :=
  [.begun x.authNonce, .resPQ x.pqNonce x.authServerNonce x.authNewNonce,
    .server_DH_params_ok x.dhNonce x.dhServerNonce x.encrypted_answer x.b]

/-- The decrypted answer has its hash in front, and what is parsed of it has the nonces of the run,
a group and a number that are accepted, and gives the key. -/
structure Answered (crypto : Crypto) (x : Exchange) (key : List UInt8) : Prop where
  hash : ∃ i < 16,
    HashAt crypto.sha1 (crypto.decrypt x.authNewNonce x.authServerNonce x.encrypted_answer.bytes) i
  inner : ∃ inner dh_prime g_a,
    innerData crypto x.authNewNonce x.authServerNonce x.encrypted_answer.bytes = some inner ∧
      inner.nonce = some x.authNonce ∧ inner.server_nonce = some x.authServerNonce ∧
      inner.dh_prime = some dh_prime ∧ inner.g_a = some g_a ∧
      isGoodPrime crypto.checkPrime goodPrime (beNat dh_prime) inner.g = true ∧
      isGoodGaAndGb (beNat g_a) (beNat dh_prime) = true ∧
      FullWidth (beNat g_a ^ beNat x.b % beNat dh_prime) (some key)

/-- The nonces of the run are those of every message, and the answer gives the key. -/
structure Agrees (crypto : Crypto) (x : Exchange) (key : List UInt8) : Prop where
  pqNonce : x.pqNonce = x.authNonce
  dhNonce : x.dhNonce = x.authNonce
  dhServerNonce : x.dhServerNonce = x.authServerNonce
  answered : x.Answered crypto key

/-- The server has shown that it knows the key. -/
structure Proven (crypto : Crypto) (x : Exchange) (key : List UInt8)
    (answer : Set_client_DH_params_answer) :
    Prop where
  ok : answer.dhGen = .ok
  nonce : answer.nonce = x.authNonce
  server_nonce : answer.server_nonce = x.authServerNonce
  new_nonce_hash : answer.new_nonce_hash = newNonceHash crypto.sha1 x.authNewNonce 1 key

end Exchange

/-- The key is the one that the messages of the run agree on, and all of them have been checked. -/
def Verified (crypto : Crypto) (run : List Taken) (authKey : Option (List UInt8)) : Prop :=
  ∃ (x : Exchange) (key : List UInt8) (answer : Set_client_DH_params_answer),
    authKey = some key ∧ run = x.taken ++ [.answer answer] ∧ x.Agrees crypto key ∧
      x.Proven crypto key answer

/-! ## What the checks say -/

section Checks

variable {crypto : Crypto} {assertions : Bool} {draws : ℕ → ℕ} {f : HandshakeFields} {h : Handshake}

/-- The search of `processDhParams` has found a length. -/
theorem exists_hashAt_of_verified {sha1 : List UInt8 → List UInt8} {answer : List UInt8} {n i : ℕ}
    (short : answer.length < 2 ^ 24) (left : i + n = 16)
    (verified : hashVerified sha1 answer n i = some true) :
    ∃ k < 16, HashAt sha1 answer k := by
  induction n generalizing i with
  | zero => simp [hashVerified] at verified
  | succ n ih =>
      rcases hashVerified_succ sha1 n short (by omega : i < 16) with ⟨found, -⟩ | ⟨-, -, same⟩ | ⟨-,
        none⟩
      · exact ⟨i, by omega, found⟩
      · rw [same] at verified
        exact ih (by omega) verified
      · rw [none] at verified
        cases verified

theorem resPQ_proceeded {nonce server_nonce : List UInt8} {pq : FramedArray}
    {fingerprints : List Int64}
    (outcome : processHandshakeResponse crypto assertions draws f
      (.resPQ nonce server_nonce pq fingerprints) =
      .proceeded) :
    f.handshakeState = 1 ∧ f.authNonce = nonce := by
  rw [processHandshakeResponse] at outcome
  split at outcome
  · cases outcome
  rw [processResPQ] at outcome
  split at outcome
  · cases outcome
  rename_i state
  split at outcome
  · cases outcome
  rename_i same
  exact ⟨not_not.1 state, not_not.1 same⟩

theorem checkInner_proceeded {authNonce authServerNonce : List UInt8}
    {inner : TL_server_DH_inner_data}
    (outcome : checkInner crypto authNonce authServerNonce inner = .proceeded) :
    inner.nonce = some authNonce ∧ inner.server_nonce = some authServerNonce ∧
      ∃ dh_prime g_a, inner.dh_prime = some dh_prime ∧ inner.g_a = some g_a ∧
        isGoodPrime crypto.checkPrime goodPrime (beNat dh_prime) inner.g = true ∧
        isGoodGaAndGb (beNat g_a) (beNat dh_prime) = true := by
  rw [checkInner] at outcome
  cases nonce : inner.nonce with
  | none => simp [nonce] at outcome
  | some nonce' =>
      rw [nonce] at outcome
      dsimp only at outcome
      split at outcome
      · cases outcome
      rename_i same
      cases server : inner.server_nonce with
      | none => simp [server] at outcome
      | some server' =>
          rw [server] at outcome
          dsimp only at outcome
          split at outcome
          · cases outcome
          rename_i same'
          split at outcome
          · rename_i dh_prime g_a prime number
            split at outcome
            · cases outcome
            rename_i good
            split at outcome
            · cases outcome
            rename_i good'
            rw [not_not.1 same, not_not.1 same']
            exact ⟨rfl, rfl, dh_prime, g_a, prime,
              number, by simpa using good, by simpa using good'⟩
          · cases outcome

theorem params_proceeded {nonce server_nonce : List UInt8} {encrypted_answer : FramedArray}
    (outcome : processHandshakeResponse crypto assertions draws f
      (.server_DH_params_ok nonce server_nonce encrypted_answer) = .proceeded) :
    f.handshakeState = 2 ∧ ∃ authNewNonce authServerNonce,
      f.authNewNonce = some authNewNonce ∧ f.authServerNonce = some authServerNonce ∧
      (∃ i < 16,
        HashAt crypto.sha1 (crypto.decrypt authNewNonce authServerNonce encrypted_answer.bytes) i) ∧
      ∃ inner, innerData crypto authNewNonce authServerNonce encrypted_answer.bytes = some inner ∧
        checkInner crypto f.authNonce authServerNonce inner = .proceeded := by
  rw [processHandshakeResponse] at outcome
  split at outcome
  · cases outcome
  rw [processDhParams] at outcome
  split at outcome
  · cases outcome
  rename_i state
  split at outcome
  case h_2 => cases outcome
  rename_i authNewNonce authServerNonce new server
  split at outcome
  · cases outcome
  dsimp only at outcome
  split at outcome
  · cases outcome
  · cases outcome
  rename_i verified
  have short : (crypto.decrypt authNewNonce authServerNonce encrypted_answer.bytes).length <
      2 ^ 24 := by
    rw [Crypto.decrypt, crypto.length_aesIge]
    exact encrypted_answer.short
  refine ⟨not_not.1 state, authNewNonce, authServerNonce, new, server,
    exists_hashAt_of_verified short (rfl : 0 + 16 = 16) verified, ?_⟩
  rw [parseAnswer] at outcome
  dsimp only at outcome
  split at outcome
  · cases outcome
  split at outcome
  · cases outcome
  split at outcome
  · cases outcome
  rename_i inner parsed
  exact ⟨inner, parsed, outcome⟩

theorem checkInner_outcome (authNonce authServerNonce : List UInt8)
    (inner : TL_server_DH_inner_data) :
    checkInner crypto authNonce authServerNonce inner ∈ [Outcome.nullPointer, .restarted,
      .proceeded] := by
  rw [checkInner]
  split
  · simp
  split
  · simp
  split
  · simp
  split
  · simp
  split
  · split
    · simp
    split
    · simp
    · simp
  · simp

theorem parseAnswer_ne_loadsCdnConfig (authNonce authServerNonce answer : List UInt8) :
    parseAnswer crypto authNonce authServerNonce answer ≠ .loadsCdnConfig := by
  rw [parseAnswer]
  dsimp only
  split
  · decide
  split
  · decide
  split
  · decide
  · intro asks
    have outcome : checkInner crypto authNonce authServerNonce _ ∈ _ :=
      checkInner_outcome authNonce authServerNonce ‹_›
    rw [asks] at outcome
    simp at outcome

/-- Only a `TL_resPQ` in state 1 asks for the keys of the cdn. -/
theorem state_of_loadsCdnConfig {reply : Reply}
    (outcome : processHandshakeResponse crypto assertions draws f reply = .loadsCdnConfig) :
    f.handshakeState = 1 := by
  cases reply with
  | resPQ nonce server_nonce pq fingerprints =>
      rw [processHandshakeResponse] at outcome
      split at outcome
      · cases outcome
      rw [processResPQ] at outcome
      split at outcome
      · cases outcome
      · exact not_not.1 ‹_›
  | server_DH_params_ok nonce server_nonce encrypted_answer =>
      rw [processHandshakeResponse] at outcome
      split at outcome
      · cases outcome
      rw [processDhParams] at outcome
      split at outcome
      · cases outcome
      split at outcome
      · split at outcome
        · cases outcome
        dsimp only at outcome
        split at outcome
        · cases outcome
        · cases outcome
        · exact absurd outcome (parseAnswer_ne_loadsCdnConfig _ _ _)
      · cases outcome

theorem processAnswer_proceeded {answer : Set_client_DH_params_answer}
    (outcome : h.processAnswer crypto.sha1 answer = .proceeded) :
    h.handshakeState = 3 ∧ ∃ authNonce authServerNonce authNewNonce key,
      h.authNonce = some authNonce ∧ h.authServerNonce = some authServerNonce ∧
      h.authNewNonce = some authNewNonce ∧ h.handshakeAuthKey = some key ∧ answer.dhGen = .ok ∧
      answer.nonce = authNonce ∧ answer.server_nonce = authServerNonce ∧
      answer.new_nonce_hash = newNonceHash crypto.sha1 authNewNonce 1 key := by
  rw [Handshake.processAnswer] at outcome
  split at outcome
  · cases outcome
  rename_i state
  split at outcome
  case h_2 => cases outcome
  rename_i authNonce authServerNonce authNewNonce key own server new agreed
  split at outcome
  · cases outcome
  rename_i nonce
  split at outcome
  · cases outcome
  rename_i server_nonce
  split at outcome
  · cases outcome
  rename_i hash
  cases dhGen : answer.dhGen with
  | ok =>
      rw [dhGen] at hash
      exact ⟨not_not.1 state, authNonce, authServerNonce, authNewNonce, key, own, server, new,
        agreed, rfl,
        (not_not.1 nonce).symm, (not_not.1 server_nonce).symm, not_not.1 hash⟩
  | retry =>
      rw [dhGen] at outcome
      cases outcome
  | fail =>
      rw [dhGen] at outcome
      cases outcome

theorem bits_le {p g : ℕ} {checkPrime : ℕ → Bool} {builtin : ℕ}
    (good : isGoodPrime checkPrime builtin p g = true) :
    0 < p ∧ p < 2 ^ 2048 := by
  rw [isGoodPrime] at good
  split at good
  · cases good
  rename_i fine
  have bits : bnNumBits p = 2048 := by
    by_contra other
    exact fine (.inr (.inr other))
  refine ⟨?_, ?_⟩
  · by_contra zero
    obtain rfl : p = 0 := by omega
    simp [bnNumBits] at bits
  · rw [← bits]
    exact Nat.lt_size_self p

/-- The key that an accepted answer gives is written at full width. -/
theorem fullWidth_agreedKey {inner : TL_server_DH_inner_data} {dh_prime g_a b key : List UInt8}
    {memory : ℕ → UInt8}
    (prime : inner.dh_prime = some dh_prime) (number : inner.g_a = some g_a)
    (good : isGoodPrime crypto.checkPrime goodPrime (beNat dh_prime) inner.g = true)
    (made : agreedKey inner b memory = some key) :
    FullWidth (beNat g_a ^ beNat b % beNat dh_prime) (some key) := by
  obtain ⟨positive, small⟩ := bits_le good
  have below : beNat g_a ^ beNat b % beNat dh_prime < 2 ^ 2048 :=
    (Nat.mod_lt _ positive).trans small
  have made : handshakeAuthKeyBytes memory (beNat g_a ^ beNat b % beNat dh_prime) = some key := by
    rw [agreedKey, prime, number] at made
    exact made
  rw [← made, handshakeAuthKeyBytes_eq memory below]
  exact fullWidth_leftPadded below

end Checks

end Mtproto.Installation
