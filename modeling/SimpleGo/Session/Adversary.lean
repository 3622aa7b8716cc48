import SimpleGo.Agent.Receive
import SimpleGo.Lib.Runs
import SimpleGo.Session.Endpoints

/-!
# Two parties on an adversarial network

Every byte string may reach a party at any time: the network replays, reorders, drops,
reflects and injects. AES-GCM is ideal for the party under attack: what opens at a delivery
was produced by an encryption under the same key, IV and additional data. Encryptions are the
parties' own and those of the adversary, who uses any key that is not a secret of the
session; the secrets are all keys derived from the X3DH secret, whatever public values were
mixed in.
-/

namespace SimpleGo

open Lib

variable {K : Type}

/-- One AES-GCM encryption. -/
structure Encryption (K : Type) where
  key : K
  iv : Bytes 16
  aad : List UInt8
  plaintext : List UInt8
  ciphertext : List UInt8
  tag : Bytes 16
  deriving DecidableEq

/-- One AES-GCM decryption that is tried. -/
structure GcmQuery (K : Type) where
  key : K
  iv : Bytes 16
  aad : List UInt8
  ciphertext : List UInt8
  tag : Bytes 16

/-- An encryption as the primitive makes it. -/
def encryption (P : Primitives K) (key : K) (iv : Bytes 16) (aad plaintext : List UInt8) :
    Encryption K :=
  let enc := P.aesGcmEncrypt key iv aad plaintext
  { key, iv, aad, plaintext, ciphertext := enc.1, tag := enc.2 }

/-- A tried decryption opens only what was encrypted. -/
def IdealFor (P : Primitives K) (log : List (Encryption K)) (q : GcmQuery K) : Prop :=
  ∀ plaintext, P.aesGcmDecrypt q.key q.iv q.aad q.ciphertext q.tag = some plaintext →
    { key := q.key, iv := q.iv, aad := q.aad, plaintext, ciphertext := q.ciphertext
      tag := q.tag } ∈ log

/-- The keys derived from the X3DH secret of a session. -/
inductive SessionSecret (P : Primitives K) (dhCombined : List UInt8) : K → Prop
  | x3dh (block : Fin 3) : SessionSecret P dhCombined (P.kdf (.x3dh dhCombined) block)
  | root {rootKey : K} (dhOut : Bytes 56) (kemSecret : Option (Bytes 32)) (block : Fin 3) :
      SessionSecret P dhCombined rootKey →
      SessionSecret P dhCombined (P.kdf (.root rootKey dhOut kemSecret) block)
  | chain {chainKey : K} (block : Fin 3) :
      SessionSecret P dhCombined chainKey →
      SessionSecret P dhCombined (P.kdf (.chain chainKey) block)

/-- The encryptions of `ratchet_encrypt`: header and body, once the call is admitted. They are
counted also where the call fails after them. -/
def encryptionsOf (P : Primitives K) (enabled : Bool) (st : RatchetState K)
    (plaintext : List UInt8) (paddedMsgLen : ℕ) : List (Encryption K) :=
  if !st.initialized then []
  else
    match effectivePaddedLen (pqSendActive enabled st.pq) paddedMsgLen,
      messageHeader enabled st.dhSelf.publicKey st.pq st.prevChainLen st.msgNumSend with
    | some paddedLen, some header =>
      let keys := P.kdfChain st.chainKeySend
      [encryption P st.headerKeySend keys.headerIv st.assocData.toList header,
        encryption P keys.messageKey keys.msgIv (st.assocData.toList ++ emHeader P st header)
          (paddedPayload plaintext paddedLen)]
    | _, _ => []

/-- The trial decryption of a header. -/
def headerQuery (assocData : Bytes 112) (m : ClientMessage) (headerKey : K) : GcmQuery K where
  key := headerKey
  iv := windowBytes m.clientMsg (m.emHeader + 2) 16
  aad := assocData.toList
  ciphertext := window m.clientMsg (m.emHeader + ehBodyOffset m.clientMsg m.emHeader)
    (ehBodyLen m.clientMsg m.emHeader)
  tag := windowBytes m.clientMsg (m.emHeader + 18) 16

/-- The decryption of a body from the chain key of its message. -/
def bodyQuery (P : Primitives K) (assocData : Bytes 112) (call : BodyCall) (chainKey : K) :
    GcmQuery K where
  key := (P.kdfChain chainKey).messageKey
  iv := (P.kdfChain chainKey).msgIv
  aad := assocData.toList ++ call.emHeaderRaw
  ciphertext := call.emBody
  tag := call.emAuthTag

/-- The chain key `ratchet_decrypt_body` tries the body from. -/
def trialChainKey (P : Primitives K) (idx : ℕ) (enabled : Bool) (draws : DecryptDraws)
    (recvPq : Option ParsedMsgHeader) (st : RatchetState K) (call : BodyCall) : Option K :=
  match call.mode with
  | .same =>
    if call.msgNs < st.msgNumRecv then none
    else some (bodyChainKey P st.msgNumRecv call.msgNs st.chainKeyRecv)
  | .advance =>
    match (advanceRatchet P idx enabled draws recvPq call.peerNewPub st).result with
    | .ok keys => some (bodyChainKey P 0 call.msgNs keys.recvChainKey)
    | .error _ => none

/-- The decryption of the body that a delivery tries, if it comes that far. -/
def deliveryBodyQuery (P : Primitives K) (idx : ℕ) (enabled : Bool) (draws : ReceiveDraws)
    (st : RatchetState K) (m : ClientMessage) : Option (GcmQuery K) :=
  match ratchetHeaderTryDecrypt P st m.clientMsg m.emHeader with
  | none => none
  | some (mode, opened) =>
    match ratchetParseMsgHeader (memOf opened draws.headerJunk) with
    | none => none
    | some (peerDh, pn, ns) =>
      let recvPq := (pqHeaderDeserialize (memOf opened draws.headerJunk)
        (ehBodyLen m.clientMsg m.emHeader)).toOption
      let call := m.bodyCall mode peerDh pn ns draws.bodyJunk
      (trialChainKey P idx enabled draws.body recvPq st call).map (bodyQuery P st.assocData call)

/-- AES-GCM is ideal at a delivery, for both headers and for the body. -/
structure IdealDelivery (P : Primitives K) (idx : ℕ) (enabled : Bool) (draws : ReceiveDraws)
    (log : List (Encryption K)) (st : RatchetState K) (m : ClientMessage) : Prop where
  current : IdealFor P log (headerQuery st.assocData m st.headerKeyRecv)
  next : IdealFor P log (headerQuery st.assocData m st.nextHeaderKeyRecv)
  body : ∀ q, deliveryBodyQuery P idx enabled draws st m = some q → IdealFor P log q

/-- Both parties, the plaintexts each gave to `ratchet_encrypt`, the plaintexts each accepted,
and all encryptions so far. -/
structure AttackedSession (K : Type) where
  state : Side → RatchetState K
  recvPq : Side → Option ParsedMsgHeader
  given : Side → List (List UInt8)
  accepted : Side → List (List UInt8)
  log : List (Encryption K)

/-- A step of the parties or of the adversary. The PQ setting may differ from call to call. -/
inductive AttackAction (K : Type) where
  | encrypt (side : Side) (enabled cleanup : Bool) (plaintext : List UInt8) (paddedMsgLen : ℕ)
  /-- An encryption by the adversary. -/
  | encryptOwn (key : K) (iv : Bytes 16) (aad plaintext : List UInt8)
  /-- Any bytes reach `side`. -/
  | deliver (side : Side) (enabled : Bool) (draws : ReceiveDraws) (m : ClientMessage)

/-- One step. A plaintext counts as given once its call is admitted. -/
def AttackedSession.step (P : Primitives K) (idx : ℕ) (s : AttackedSession K) :
    AttackAction K → AttackedSession K
  | .encrypt side enabled cleanup plaintext paddedMsgLen =>
    let st := s.state side
    { s with
      state := Function.update s.state side
        (ratchetEncrypt P idx enabled cleanup st plaintext paddedMsgLen).state
      given := Function.update s.given side
        (s.given side ++ if encryptAdmitted enabled st paddedMsgLen then [plaintext] else [])
      log := s.log ++ encryptionsOf P enabled st plaintext paddedMsgLen }
  | .encryptOwn key iv aad plaintext => { s with log := s.log ++ [encryption P key iv aad plaintext] }
  | .deliver side enabled draws m =>
    let out := ratchetDecryptMessage P idx enabled draws (s.recvPq side) (s.state side) m
    { s with
      state := Function.update s.state side out.state
      recvPq := Function.update s.recvPq side out.recvPq
      accepted := Function.update s.accepted side (s.accepted side ++ out.body.toList) }

/-- The parties after the handshake, with nothing encrypted yet. -/
def AttackedSession.start (a b : RatchetState K) : AttackedSession K where
  state
    | .alice => a
    | .bob => b
  recvPq _ := none
  given _ := []
  accepted _ := []
  log := []

/-- What is assumed of a step: payloads fit, the adversary does not encrypt under a secret of the
session, and AES-GCM is ideal for Alice. -/
def AttackAction.Granted (P : Primitives K) (idx : ℕ) (dhCombined : List UInt8)
    (s : AttackedSession K) : AttackAction K → Prop
  | .encrypt side enabled _ plaintext paddedMsgLen =>
    SendFits enabled (s.state side) plaintext paddedMsgLen
  | .encryptOwn key _ _ _ => ¬ SessionSecret P dhCombined key
  | .deliver .alice enabled draws m => IdealDelivery P idx enabled draws s.log (s.state .alice) m
  | .deliver .bob _ _ _ => True

/-- A header that reaches Alice while she has no receiving header key does not open under the
all-zero key that stands in its place. -/
def AttackAction.NotZeroKeyed (P : Primitives K) (s : AttackedSession K) : AttackAction K → Prop
  | .deliver .alice _ _ m => (s.state .alice).headerKeyRecv = P.zeroKey →
      openHeader P (s.state .alice).assocData m.clientMsg m.emHeader P.zeroKey = none
  | _ => True

/-! ## What a delivery can do -/

section Deliveries

variable {P : Primitives K} {idx : ℕ} {enabled : Bool} {draws : ReceiveDraws}
  {recvPq : Option ParsedMsgHeader} {st : RatchetState K} {m : ClientMessage}

/-- An opened body was decrypted, and its plaintext is what its padding says. -/
theorem openBody_ok {assocData : Bytes 112} {call : BodyCall} {aadAlloc : Bool} {chainKey : K}
    {plaintext : List UInt8} (h : openBody P assocData call aadAlloc chainKey = .ok plaintext) :
    ∃ padded, P.aesGcmDecrypt (bodyQuery P assocData call chainKey).key
        (bodyQuery P assocData call chainKey).iv (bodyQuery P assocData call chainKey).aad
        (bodyQuery P assocData call chainKey).ciphertext
        (bodyQuery P assocData call chainKey).tag = some padded ∧
      unPad call.junk padded = some plaintext := by
  cases aadAlloc with
  | false => cases h
  | true =>
    simp only [openBody, Bool.not_true, Bool.false_eq_true, if_false] at h
    cases hopen : P.aesGcmDecrypt (P.kdfChain chainKey).messageKey (P.kdfChain chainKey).msgIv
        (assocData.toList ++ call.emHeaderRaw) call.emBody call.emAuthTag with
    | none =>
      rw [hopen] at h
      cases h
    | some padded =>
      refine ⟨padded, hopen, ?_⟩
      simp only [hopen] at h
      cases hpad : unPad call.junk padded with
      | none =>
        rw [hpad] at h
        cases h
      | some unpadded =>
        simp only [hpad, Except.ok.injEq] at h
        rw [h]

/-- What a delivery does: nothing but to the PQ state; a SAME, under the current header key; or
an ADVANCE. Late requests of the crypto task change the PQ state in each. -/
theorem ratchetDecryptMessage_moves :
    let out := ratchetDecryptMessage P idx enabled draws recvPq st m
    (out.body = none ∧ ∃ pq, out.state = { st with pq }) ∨
    (∃ call opened plaintext,
      let chainKey := bodyChainKey P st.msgNumRecv call.msgNs st.chainKeyRecv
      out.body = some plaintext ∧
      openHeader P st.assocData m.clientMsg m.emHeader st.headerKeyRecv = some opened ∧
      deliveryBodyQuery P idx enabled draws st m = some (bodyQuery P st.assocData call chainKey) ∧
      openBody P st.assocData call draws.body.aadAlloc chainKey = .ok plaintext ∧
      ∃ pq, out.state = { st.applySame P call.msgNs with pq }) ∨
    (∃ call keys plaintext pq dhRecv kemRecv dhSend kemSend,
      let chainKey := bodyChainKey P 0 call.msgNs keys.recvChainKey
      let recv := P.kdfRoot st.rootKey dhRecv kemRecv
      let send := P.kdfRoot recv.newRootKey dhSend kemSend
      out.body = some plaintext ∧
      deliveryBodyQuery P idx enabled draws st m = some (bodyQuery P st.assocData call chainKey) ∧
      openBody P st.assocData call draws.body.aadAlloc chainKey = .ok plaintext ∧
      keys.recvChainKey = recv.chainKey ∧ keys.newNhkRecv = recv.nextHeaderKey ∧
      keys.newRootKey2 = send.newRootKey ∧ keys.sendChainKey = send.chainKey ∧
      keys.newNhkSend = send.nextHeaderKey ∧
      out.state = st.applyAdvance P keys call.peerNewPub call.msgNs pq) := by
  intro out
  rcases ratchetDecryptMessage_cases P idx enabled draws recvPq st m with
    ⟨hbody, hstate⟩ | ⟨mode, opened, peerDh, pn, ns, htry, hparse, hout⟩
  · exact .inl ⟨hbody, st.pq, hstate⟩
  · generalize hrecv : (pqHeaderDeserialize (memOf opened draws.headerJunk)
      (ehBodyLen m.clientMsg m.emHeader)).toOption = pending at hout
    generalize hcall : m.bodyCall mode peerDh pn ns draws.bodyJunk = call at hout
    have hmode : call.mode = mode := by rw [← hcall]; rfl
    have hquery : deliveryBodyQuery P idx enabled draws st m =
        (trialChainKey P idx enabled draws.body pending st call).map
          (bodyQuery P st.assocData call) := by
      simp only [deliveryBodyQuery, htry, hparse, hrecv, hcall]
    have hout' : out = _ := hout
    rcases ratchetDecryptBody_cases P idx enabled draws.body pending st call with
      ⟨-, e, hdec⟩ | ⟨hsame, hnum, plaintext, hopen, hdec⟩ | ⟨-, e, hdec⟩ |
        ⟨hadv, keys, plaintext, hkeys, hopen, hdec⟩
    · rw [hdec] at hout'
      exact .inl ⟨by rw [hout']; rfl, _, by rw [hout']; rfl⟩
    · rw [hdec] at hout'
      have htrial : trialChainKey P idx enabled draws.body pending st call =
          some (bodyChainKey P st.msgNumRecv call.msgNs st.chainKeyRecv) := by
        simp only [trialChainKey, hsame]
        rw [if_neg (UInt32.not_lt.mpr hnum)]
      rw [hmode] at hsame
      rcases (ratchetHeaderTryDecrypt_cases P st htry).2 with ⟨-, hheader⟩ | ⟨hother, -⟩
      · exact .inr (.inl ⟨call, opened, plaintext, by rw [hout']; rfl, hheader,
          by rw [hquery, htrial]; rfl, hopen, _, by rw [hout']; rfl⟩)
      · rw [hsame] at hother
        cases hother
    · rw [hdec] at hout'
      exact .inl ⟨by rw [hout']; rfl, _, by rw [hout']; rfl⟩
    · rw [hdec] at hout'
      have htrial : trialChainKey P idx enabled draws.body pending st call =
          some (bodyChainKey P 0 call.msgNs keys.recvChainKey) := by
        simp only [trialChainKey, hadv, hkeys]
      obtain ⟨dhRecv, dhSend, newDhSelf, -, -, -, heq, -⟩ :=
        advanceRatchet_ok P idx enabled draws.body pending st hkeys
      subst heq
      exact .inr (.inr ⟨call, _, plaintext, _, dhRecv, _, dhSend, _, by rw [hout']; rfl,
        by rw [hquery, htrial]; rfl, hopen, rfl, rfl, rfl, rfl, rfl, by rw [hout']; rfl⟩)

end Deliveries

end SimpleGo
