import SimpleGo.Agent.Receive
import SimpleGo.Crypto.Symbolic

/-!
# A new key agreement on a used slot

`ratchet_x3dh_sender` and `ratchet_init_sender` set the fields of a new session one by one and
leave the others as they are: the receiving chain with its header key and counter, and the whole PQ
state. `send_agent_confirmation` calls them on the slot of the contact without zeroing it.

Two earlier contents of a slot are told apart by later calls through these fields only, and of the
PQ state only through the parts that some later call can still read.
-/

namespace SimpleGo

open Lib

variable {K : Type}

/-- The keys a key agreement is given: those of `ratchet_x3dh_sender`, then those of
`ratchet_init_sender`. -/
structure AgreementKeys where
  peerKey1 : Bytes 56
  peerKey2 : Bytes 56
  ourKey1 : X448KeyPair
  ourKey2 : X448KeyPair
  peerDhPublic : Bytes 56
  ourDhKey : X448KeyPair

/-- `ratchet_x3dh_sender` followed by `ratchet_init_sender`, where both return true. -/
def keyAgreement (P : Primitives K) (keys : AgreementKeys) (st : RatchetState K) :
    Option (RatchetState K) :=
  (ratchetX3dhSender P keys.peerKey1 keys.peerKey2 keys.ourKey1 keys.ourKey2 st).bind fun st =>
    let result := ratchetInitSender P keys.peerDhPublic keys.ourDhKey st
    if result.1 then some result.2 else none

/-- A call on a session: a message is encrypted, or one is received. -/
inductive SessionCall where
  | encrypt (enabled cleanup : Bool) (plaintext : List UInt8) (paddedMsgLen : ℕ)
  | receive (enabled : Bool) (draws : ReceiveDraws) (m : ClientMessage)

/-- The active slot and the pending header. -/
structure ActiveRatchet (K : Type) where
  state : RatchetState K
  recvPq : Option ParsedMsgHeader

/-- What a call leaves, and the ciphertext or the plaintext it gives. -/
def ActiveRatchet.call (P : Primitives K) (idx : ℕ) (s : ActiveRatchet K) :
    SessionCall → ActiveRatchet K × Option (List UInt8)
  | .encrypt enabled cleanup plaintext paddedMsgLen =>
    let out := ratchetEncrypt P idx enabled cleanup s.state plaintext paddedMsgLen
    ({ s with state := out.state }, out.output)
  | .receive enabled draws m =>
    let out := ratchetDecryptMessage P idx enabled draws s.recvPq s.state m
    ({ state := out.state, recvPq := out.recvPq }, out.body)

/-- What a sequence of calls gives. -/
def ActiveRatchet.outputs (P : Primitives K) (idx : ℕ) :
    ActiveRatchet K → List SessionCall → List (Option (List UInt8))
  | _, [] => []
  | s, c :: calls => (s.call P idx c).2 :: outputs P idx (s.call P idx c).1 calls

/-- The same KEM field is sent: state, own key and, once accepted, ciphertext. -/
structure PqKemState.SameField (pq pq' : PqKemState) : Prop where
  proposed : pq.pqKemState = 1 ↔ pq'.pqKemState = 1
  accepted : pq.pqKemState = 2 ↔ pq'.pqKemState = 2
  ownKemPk : pq.pqKemState = 1 ∨ pq.pqKemState = 2 → pq.ownKemPk = pq'.ownKemPk
  pendingCt : pq.pqKemState = 2 → pq.pendingCt = pq'.pendingCt

/-- The same of what a later call can read. The KEM field is read while PQ is active; the user's
choice as long as it is not; the secret key while it is valid; the pending secret while PQ is
active, or as long as a proposal can make it so. -/
structure PqKemState.Alike (pq pq' : PqKemState) : Prop where
  inactive : pq.pqActive = 0 ↔ pq'.pqActive = 0
  allowed : pq.pqActive = 0 → (pq.pqUserDisabled = 0 ↔ pq'.pqUserDisabled = 0)
  idle : pq.pqKemState = 0 ↔ pq'.pqKemState = 0
  field : pq.pqActive ≠ 0 → pq.SameField pq'
  invalid : pq.ownKemValid = 0 ↔ pq'.ownKemValid = 0
  ownKemSk : pq.ownKemValid ≠ 0 → pq.ownKemSk = pq'.ownKemSk
  unused : pq.pqActive ≠ 0 ∨ pq.pqKemState = 0 ∧ pq.pqUserDisabled = 0 →
    (pq.pendingSsValid = 0 ↔ pq'.pendingSsValid = 0)
  pendingSs : pq.pqActive ≠ 0 ∨ pq.pqKemState = 0 ∧ pq.pqUserDisabled = 0 →
    pq.pendingSsValid ≠ 0 → pq.pendingSs = pq'.pendingSs

/-- Two earlier contents of a slot that a new session cannot tell apart. -/
structure SameLeftovers (left left' : RatchetState K) : Prop where
  headerKeyRecv : left.headerKeyRecv = left'.headerKeyRecv
  chainKeyRecv : left.chainKeyRecv = left'.chainKeyRecv
  msgNumRecv : left.msgNumRecv = left'.msgNumRecv
  pq : left.pq.Alike left'.pq

/-- Two states of a session that later calls cannot tell apart. -/
structure RatchetState.Alike (st st' : RatchetState K) : Prop where
  classical : st.toRatchetClassical = st'.toRatchetClassical
  pq : st.pq.Alike st'.pq

/-! ### The PQ state -/

/-- PQ fields are sent only while PQ is active. -/
theorem PqKemState.active_of_send {enabled : Bool} {pq : PqKemState}
    (hsend : pqSendActive enabled pq = true) : pq.pqActive ≠ 0 := by
  rw [pqSendActive, Bool.and_eq_true, bne_iff_ne] at hsend
  exact hsend.1

namespace PqKemState.Alike

variable {pq pq' : PqKemState} (h : pq.Alike pq')

include h

/-- PQ is active on the send side in both or in none. -/
theorem pqSendActive_eq (enabled : Bool) : pqSendActive enabled pq = pqSendActive enabled pq' := by
  have hne : (pq.pqActive != 0) = (pq'.pqActive != 0) := by
    rw [Bool.eq_iff_iff, bne_iff_ne, bne_iff_ne]
    exact not_congr h.inactive
  rw [pqSendActive, pqSendActive, hne]

/-- The same KEM field is sent while PQ is active. -/
theorem serializeKem_eq (hactive : pq.pqActive ≠ 0) :
    serializeKem true pq = serializeKem true pq' := by
  have hfield := h.field hactive
  by_cases hidle : pq.pqKemState = 0
  · simp only [serializeKem, hidle, h.idle.1 hidle]
    rfl
  · have hidle' : pq'.pqKemState ≠ 0 := fun h0 => hidle (h.idle.2 h0)
    by_cases hproposed : pq.pqKemState = 1
    · simp [serializeKem, hproposed, hfield.proposed.1 hproposed,
        hfield.ownKemPk (Or.inl hproposed)]
    · have hproposed' : pq'.pqKemState ≠ 1 := fun h1 => hproposed (hfield.proposed.2 h1)
      by_cases haccepted : pq.pqKemState = 2
      · simp [serializeKem, haccepted, hfield.accepted.1 haccepted,
          hfield.ownKemPk (Or.inr haccepted), hfield.pendingCt haccepted]
      · have haccepted' : pq'.pqKemState ≠ 2 := fun h2 => haccepted (hfield.accepted.2 h2)
        simp [serializeKem, hidle, hidle', hproposed, hproposed', haccepted, haccepted']

/-- The same header is sent. -/
theorem messageHeader_eq (enabled : Bool) (dhPublic : Bytes 56) (pn ns : UInt32) :
    messageHeader enabled dhPublic pq pn ns = messageHeader enabled dhPublic pq' pn ns := by
  rw [messageHeader, messageHeader, ← h.pqSendActive_eq]
  by_cases hsend : pqSendActive enabled pq = true
  · rw [if_pos hsend, if_pos hsend, pqHeaderSerialize, pqHeaderSerialize]
    simp only [← h.pqSendActive_eq, hsend, h.serializeKem_eq (active_of_send hsend)]
  · rw [if_neg hsend, if_neg hsend]

/-- The same secret is fed into the send side. -/
theorem sendKem_eq (enabled : Bool) : sendKem enabled pq = sendKem enabled pq' := by
  rw [sendKem, sendKem, ← h.pqSendActive_eq]
  cases hsend : pqSendActive enabled pq with
  | false => simp only [Bool.and_false, Bool.false_eq_true, if_false]
  | true =>
    have hactive := active_of_send hsend
    by_cases hvalid : pq.pendingSsValid = 0
    · rw [hvalid, (h.unused (Or.inl hactive)).1 hvalid]
      rfl
    · have hvalid' : pq'.pendingSsValid ≠ 0 := fun h0 => hvalid ((h.unused (Or.inl hactive)).2 h0)
      rw [h.pendingSs (Or.inl hactive) hvalid]
      simp only [ne_eq, hvalid, hvalid', not_false_eq_true]

/-- The secret is used up in both. -/
theorem consumePending (enabled : Bool) :
    (consumePending enabled pq).Alike (SimpleGo.consumePending enabled pq') := by
  rw [SimpleGo.consumePending, SimpleGo.consumePending, ← h.sendKem_eq]
  split
  · exact { h with
      field := fun ha => { h.field ha with }
      unused := fun _ => Iff.rfl
      pendingSs := fun _ _ => rfl }
  · exact h

/-- The peer's key is stored in both. -/
theorem withPeer (kemPk : Bytes 1158) : (pq.withPeer kemPk).Alike (pq'.withPeer kemPk) where
  __ := h
  field ha := { h.field ha with }

/-- A new own key pair is stored in both. -/
theorem withOwn (pair : KemKeyPair) : (pq.withOwn pair).Alike (pq'.withOwn pair) where
  __ := h
  field ha := { h.field ha with ownKemPk := fun _ => rfl }
  invalid := Iff.rfl
  ownKemSk _ := rfl

/-- PQ becomes active in both, unless the user has disabled it. -/
theorem activated :
    (if pq.pqUserDisabled = 0 then 1 else pq.pqActive) = 0 ↔
      (if pq'.pqUserDisabled = 0 then 1 else pq'.pqActive) = 0 := by
  by_cases hactive : pq.pqActive = 0
  · have hallowed := h.allowed hactive
    by_cases hdis : pq.pqUserDisabled = 0
    · rw [if_pos hdis, if_pos (hallowed.1 hdis)]
    · rw [if_neg hdis, if_neg fun h0 => hdis (hallowed.2 h0)]
      exact h.inactive
  · have hactive' : pq'.pqActive ≠ 0 := fun h0 => hactive (h.inactive.2 h0)
    have hset : ∀ d a : UInt8, a ≠ 0 → (if d = 0 then 1 else a) ≠ 0 := by
      intro d a ha
      split
      · decide
      · exact ha
    exact iff_of_false (hset _ _ hactive) (hset _ _ hactive')

omit h in
/-- PQ was inactive if it is so afterwards. -/
theorem inactive_of_activated (hset : (if pq.pqUserDisabled = 0 then 1 else pq.pqActive) = 0) :
    pq.pqActive = 0 := by
  split at hset
  · exact absurd hset (by decide)
  · exact hset

/-- A proposal is made in both. -/
theorem withProposal (hidle : pq.pqKemState = 0) (hown : pq.ownKemPk = pq'.ownKemPk) :
    pq.withProposal.Alike pq'.withProposal := by
  have hbefore : pq.withProposal.pqActive ≠ 0 ∨
      pq.withProposal.pqKemState = 0 ∧ pq.withProposal.pqUserDisabled = 0 →
      pq.pqActive ≠ 0 ∨ pq.pqKemState = 0 ∧ pq.pqUserDisabled = 0 := by
    rintro (hactive | ⟨hstate, -⟩)
    · by_cases hdis : pq.pqUserDisabled = 0
      · exact Or.inr ⟨hidle, hdis⟩
      · rw [PqKemState.withProposal, if_neg hdis] at hactive
        exact Or.inl hactive
    · exact absurd (show (1 : UInt8) = 0 from hstate) (by decide)
  exact {
    inactive := h.activated
    allowed := fun hset => h.allowed (inactive_of_activated hset)
    idle := Iff.rfl
    field := fun _ => ⟨Iff.rfl, Iff.rfl, fun _ => hown,
      fun h2 => absurd (show (1 : UInt8) = 2 from h2) (by decide)⟩
    invalid := h.invalid
    ownKemSk := h.ownKemSk
    unused := fun hcond => h.unused (hbefore hcond)
    pendingSs := fun hcond => h.pendingSs (hbefore hcond) }

/-- A proposal is accepted in both. -/
theorem withPending (hown : pq.ownKemPk = pq'.ownKemPk) (enc : Bytes 1039 × Bytes 32) :
    (pq.withPending enc).Alike (pq'.withPending enc) where
  inactive := h.activated
  allowed hset := h.allowed (inactive_of_activated hset)
  idle := Iff.rfl
  field _ := ⟨Iff.rfl, Iff.rfl, fun _ => hown, fun _ => rfl⟩
  invalid := h.invalid
  ownKemSk := h.ownKemSk
  unused _ := Iff.rfl
  pendingSs _ _ := rfl

/-- The own secret key is wiped in both. -/
theorem wipeSk : ({ pq with ownKemSk := zeroBytes _ } : PqKemState).Alike
    { pq' with ownKemSk := zeroBytes _ } where
  __ := h
  field ha := { h.field ha with }
  ownKemSk _ := rfl

/-- The own key pair is marked as lost in both. -/
theorem dropOwn : ({ pq with ownKemValid := 0 } : PqKemState).Alike
    { pq' with ownKemValid := 0 } where
  __ := h
  field ha := { h.field ha with }
  invalid := Iff.rfl
  ownKemSk hv := absurd rfl hv

omit h in
/-- What a late request writes is the same in both. -/
theorem carryOut (late : List LateRequest) (h : pq.Alike pq') :
    (pq.carryOut late).Alike (pq'.carryOut late) := by
  refine List.foldl_rel h fun r _ y y' hy => ?_
  cases r with
  | keygen slot pair =>
    exact { hy with
      field := fun ha => { hy.field ha with ownKemPk := fun _ => rfl }
      ownKemSk := fun _ => rfl }
  | enc slot ct ss =>
    exact { hy with
      field := fun ha => { hy.field ha with pendingCt := fun _ => rfl }
      pendingSs := fun _ _ => rfl }

omit h in
/-- A late key generation writes the same public key in both. -/
theorem carryOut_ownKemPk (late : List LateRequest) (h : pq.ownKemPk = pq'.ownKemPk) :
    (pq.carryOut late).ownKemPk = (pq'.carryOut late).ownKemPk := by
  refine List.foldl_rel (r := fun y y' : PqKemState => y.ownKemPk = y'.ownKemPk) h
    fun r _ y y' hy => ?_
  cases r with
  | keygen slot pair => rfl
  | enc slot ct ss => exact hy

/-- A received KEM field gives the same result and the same secret in both. -/
theorem pqRecvProcess (P : Primitives K) (enabled : Bool) (draws : KemDraws) (kem : MsgKem) :
    (SimpleGo.pqRecvProcess P enabled draws kem pq).ret =
        (SimpleGo.pqRecvProcess P enabled draws kem pq').ret ∧
      (SimpleGo.pqRecvProcess P enabled draws kem pq).kemSs =
        (SimpleGo.pqRecvProcess P enabled draws kem pq').kemSs ∧
      (SimpleGo.pqRecvProcess P enabled draws kem pq).pq.Alike
        (SimpleGo.pqRecvProcess P enabled draws kem pq').pq := by
  -- a new own key, what is carried out after it, and then the same public key in both
  have hcarried : ∀ {y y' : PqKemState} (pair : KemKeyPair), y.Alike y' →
      ((y.withOwn pair).carryOut draws.late).Alike ((y'.withOwn pair).carryOut draws.late) ∧
        ((y.withOwn pair).carryOut draws.late).ownKemPk =
          ((y'.withOwn pair).carryOut draws.late).ownKemPk := fun pair hy =>
    ⟨carryOut draws.late (hy.withOwn pair), carryOut_ownKemPk draws.late rfl⟩
  cases kem with
  | nothing =>
    simp only [SimpleGo.pqRecvProcess]
    have hidle : (pq.pqKemState == 0) = (pq'.pqKemState == 0) := by
      rw [Bool.eq_iff_iff, beq_iff_eq, beq_iff_eq]
      exact h.idle
    rw [← hidle]
    split
    · rename_i hpropose
      rw [Bool.and_eq_true, beq_iff_eq] at hpropose
      cases draws.keyPair with
      | none => exact ⟨rfl, rfl, h⟩
      | some pair =>
        obtain ⟨hpq, hpk⟩ := hcarried pair h
        refine ⟨rfl, rfl, hpq.withProposal ?_ hpk⟩
        rw [PqKemState.carryOut_pqKemState]
        exact hpropose.2
    · exact ⟨rfl, rfl, h⟩
  | proposed kemPk =>
    simp only [SimpleGo.pqRecvProcess]
    cases draws.keyPair with
    | none => exact ⟨rfl, rfl, h.withPeer kemPk⟩
    | some pair =>
      cases draws.encCoins with
      | none => exact ⟨rfl, rfl, (h.withPeer kemPk).withOwn pair⟩
      | some coins =>
        obtain ⟨hpq, hpk⟩ := hcarried pair (h.withPeer kemPk)
        exact ⟨rfl, rfl, hpq.withPending hpk _⟩
  | accepted kemCt kemPk =>
    simp only [SimpleGo.pqRecvProcess]
    by_cases hinvalid : pq.ownKemValid = 0
    · rw [if_pos hinvalid, if_pos (h.invalid.1 hinvalid)]
      exact ⟨rfl, rfl, h⟩
    · rw [if_neg hinvalid, if_neg fun h0 => hinvalid (h.invalid.2 h0), h.ownKemSk hinvalid]
      split
      · exact ⟨rfl, rfl, h⟩
      · have hwiped := h.wipeSk.withPeer kemPk
        cases draws.keyPair with
        | none => exact ⟨rfl, rfl, hwiped.dropOwn⟩
        | some pair =>
          cases draws.encCoins with
          | none => exact ⟨rfl, rfl, hwiped.withOwn pair⟩
          | some coins =>
            obtain ⟨hpq, hpk⟩ := hcarried pair hwiped
            exact ⟨rfl, rfl, hpq.withPending hpk _⟩

/-- The KEM step of an ADVANCE gives the same secret in both. -/
theorem kemStep (P : Primitives K) (enabled : Bool) (draws : KemDraws)
    (recvPq : Option ParsedMsgHeader) :
    (SimpleGo.kemStep P enabled draws recvPq pq).kemSs =
        (SimpleGo.kemStep P enabled draws recvPq pq').kemSs ∧
      (SimpleGo.kemStep P enabled draws recvPq pq).pq.Alike
        (SimpleGo.kemStep P enabled draws recvPq pq').pq := by
  cases recvPq with
  | none => exact ⟨rfl, h⟩
  | some hdr =>
    cases enabled with
    | false => exact ⟨rfl, h⟩
    | true =>
      obtain ⟨hret, hss, hpq⟩ := h.pqRecvProcess P true draws hdr.kem
      simp only [SimpleGo.kemStep, if_true]
      exact ⟨by rw [hret, hss], hpq⟩

end PqKemState.Alike

/-! ### The calls -/

/-- Two states with the same classical part. -/
theorem RatchetState.Alike.eq_with {st st' : RatchetState K} (h : st.Alike st') :
    st' = { st with pq := st'.pq } := by
  obtain ⟨classical, pq⟩ := st
  obtain ⟨classical', pq'⟩ := st'
  obtain ⟨hclassical, -⟩ := h
  simp only at hclassical
  rw [hclassical]

namespace RatchetState.Alike

variable {st st' : RatchetState K} (h : st.Alike st')

include h

/-- The same ciphertext is given, and the states stay alike. -/
theorem ratchetEncrypt (P : Primitives K) (idx : ℕ) (enabled cleanup : Bool)
    (plaintext : List UInt8) (paddedMsgLen : ℕ) :
    (SimpleGo.ratchetEncrypt P idx enabled cleanup st plaintext paddedMsgLen).output =
        (SimpleGo.ratchetEncrypt P idx enabled cleanup st' plaintext paddedMsgLen).output ∧
      (SimpleGo.ratchetEncrypt P idx enabled cleanup st plaintext paddedMsgLen).state.Alike
        (SimpleGo.ratchetEncrypt P idx enabled cleanup st' plaintext paddedMsgLen).state := by
  obtain ⟨classical, pq⟩ := st
  obtain ⟨classical', pq'⟩ := st'
  obtain ⟨rfl, hpq⟩ := h
  simp only at hpq
  simp only [SimpleGo.ratchetEncrypt, ← hpq.pqSendActive_eq, ← hpq.messageHeader_eq]
  split
  · exact ⟨rfl, rfl, hpq⟩
  · split
    · exact ⟨rfl, rfl, hpq⟩
    · split
      · exact ⟨rfl, rfl, hpq⟩
      · split
        · exact ⟨rfl, rfl, hpq⟩
        · exact ⟨rfl, rfl, hpq⟩

/-- The ADVANCE branch derives the same keys. -/
theorem advanceRatchet (P : Primitives K) (idx : ℕ) (enabled : Bool) (draws : DecryptDraws)
    (recvPq : Option ParsedMsgHeader) (peerNewPub : Bytes 56) :
    (SimpleGo.advanceRatchet P idx enabled draws recvPq peerNewPub st).result =
        (SimpleGo.advanceRatchet P idx enabled draws recvPq peerNewPub st').result ∧
      (SimpleGo.advanceRatchet P idx enabled draws recvPq peerNewPub st).recvPq =
        (SimpleGo.advanceRatchet P idx enabled draws recvPq peerNewPub st').recvPq ∧
      (SimpleGo.advanceRatchet P idx enabled draws recvPq peerNewPub st).pq.Alike
        (SimpleGo.advanceRatchet P idx enabled draws recvPq peerNewPub st').pq := by
  obtain ⟨classical, pq⟩ := st
  obtain ⟨classical', pq'⟩ := st'
  obtain ⟨rfl, hpq⟩ := h
  simp only at hpq
  simp only [SimpleGo.advanceRatchet]
  cases P.x448Dh peerNewPub classical.dhSelf.privateKey with
  | none => exact ⟨rfl, rfl, hpq⟩
  | some dhRecv =>
    obtain ⟨hss, hstep⟩ := (hpq.carryOut (draws.late .before)).kemStep P enabled draws.kem recvPq
    have hkem := hstep.carryOut (draws.late .after)
    simp only [advanceSend, hss, hkem.sendKem_eq]
    cases draws.dhSelf with
    | none => exact ⟨rfl, trivial, hkem⟩
    | some newDhSelf =>
      simp only
      cases P.x448Dh peerNewPub newDhSelf.privateKey with
      | none => exact ⟨rfl, trivial, hkem⟩
      | some dhSend => exact ⟨rfl, trivial, hkem.consumePending enabled⟩

/-- A body gives the same result. -/
theorem ratchetDecryptBody (P : Primitives K) (idx : ℕ) (enabled : Bool) (draws : DecryptDraws)
    (recvPq : Option ParsedMsgHeader) (call : BodyCall) :
    (SimpleGo.ratchetDecryptBody P idx enabled draws recvPq st call).result =
        (SimpleGo.ratchetDecryptBody P idx enabled draws recvPq st' call).result ∧
      (SimpleGo.ratchetDecryptBody P idx enabled draws recvPq st call).recvPq =
        (SimpleGo.ratchetDecryptBody P idx enabled draws recvPq st' call).recvPq ∧
      (SimpleGo.ratchetDecryptBody P idx enabled draws recvPq st call).state.Alike
        (SimpleGo.ratchetDecryptBody P idx enabled draws recvPq st' call).state := by
  obtain ⟨hresult, hrecv, hadv⟩ := h.advanceRatchet P idx enabled draws recvPq call.peerNewPub
  obtain ⟨classical, pq⟩ := st
  obtain ⟨classical', pq'⟩ := st'
  obtain ⟨rfl, hpq⟩ := h
  simp only at hpq
  simp only [SimpleGo.ratchetDecryptBody]
  cases call.mode with
  | advance =>
    simp only [← hresult, ← hrecv]
    split
    · exact ⟨rfl, rfl, rfl, hadv.carryOut _⟩
    · split
      · exact ⟨rfl, rfl, rfl, hadv.carryOut _⟩
      · exact ⟨rfl, rfl, rfl, hadv.carryOut _⟩
  | same =>
    simp only
    split
    · exact ⟨rfl, rfl, rfl, hpq.carryOut _⟩
    · split
      · exact ⟨rfl, rfl, rfl, hpq.carryOut _⟩
      · exact ⟨rfl, rfl, rfl, hpq.carryOut _⟩

/-- A message gives the same plaintext, or none in both, whatever header was pending. -/
theorem ratchetDecryptMessage (P : Primitives K) (idx : ℕ) (enabled : Bool)
    (draws : ReceiveDraws) (recvPq recvPq' : Option ParsedMsgHeader) (m : ClientMessage) :
    (SimpleGo.ratchetDecryptMessage P idx enabled draws recvPq st m).body =
        (SimpleGo.ratchetDecryptMessage P idx enabled draws recvPq' st' m).body ∧
      (SimpleGo.ratchetDecryptMessage P idx enabled draws recvPq st m).state.Alike
        (SimpleGo.ratchetDecryptMessage P idx enabled draws recvPq' st' m).state := by
  have htry : ratchetHeaderTryDecrypt P st m.clientMsg m.emHeader =
      ratchetHeaderTryDecrypt P st' m.clientMsg m.emHeader := by
    rw [h.eq_with]
    rfl
  simp only [SimpleGo.ratchetDecryptMessage, ← htry]
  split
  · exact ⟨rfl, h⟩
  · split
    · exact ⟨rfl, h⟩
    · split
      · exact ⟨rfl, h⟩
      · split
        · exact ⟨rfl, h⟩
        · obtain ⟨hresult, -, hstate⟩ := h.ratchetDecryptBody P idx enabled draws.body _ _
          exact ⟨congrArg Except.toOption hresult, hstate⟩

/-- Whatever is called, the same is given. -/
theorem outputs (P : Primitives K) (idx : ℕ) (recvPq recvPq' : Option ParsedMsgHeader)
    (calls : List SessionCall) :
    ActiveRatchet.outputs P idx ⟨st, recvPq⟩ calls =
      ActiveRatchet.outputs P idx ⟨st', recvPq'⟩ calls := by
  induction calls generalizing st st' recvPq recvPq' with
  | nil => rfl
  | cons c calls ih =>
    cases c with
    | encrypt enabled cleanup plaintext paddedMsgLen =>
      obtain ⟨houtput, hstate⟩ := h.ratchetEncrypt P idx enabled cleanup plaintext paddedMsgLen
      simp only [ActiveRatchet.outputs, ActiveRatchet.call]
      rw [houtput, ih hstate recvPq recvPq']
    | receive enabled draws m =>
      obtain ⟨hbody, hstate⟩ := h.ratchetDecryptMessage P idx enabled draws recvPq recvPq' m
      simp only [ActiveRatchet.outputs, ActiveRatchet.call]
      rw [hbody, ih hstate]

end RatchetState.Alike

/-! ### The agreement -/

/-- A new session on a slot: the receiving chain and the PQ state are those of the slot. -/
def RatchetState.onSlot (fresh left : RatchetState K) : RatchetState K :=
  { fresh with
    headerKeyRecv := left.headerKeyRecv
    chainKeyRecv := left.chainKeyRecv
    msgNumRecv := left.msgNumRecv
    pq := left.pq }

/-- On slots with the same leftovers the session is the same for later calls. -/
theorem SameLeftovers.onSlot {left left' : RatchetState K} (h : SameLeftovers left left')
    (fresh : RatchetState K) : (fresh.onSlot left).Alike (fresh.onSlot left') where
  classical := by
    simp only [RatchetState.onSlot, h.headerKeyRecv, h.chainKeyRecv, h.msgNumRecv]
  pq := h.pq

/-- What a key agreement makes of a slot: the fields it sets depend on the keys alone, and what was
received and the PQ state stay. -/
theorem keyAgreement_cases (P : Primitives K) (keys : AgreementKeys) :
    (∀ left : RatchetState K, keyAgreement P keys left = none) ∨
    ∃ fresh : RatchetState K, fresh.initialized = true ∧
      ∀ left : RatchetState K, keyAgreement P keys left = some (fresh.onSlot left) := by
  cases hx3dh : x3dhSecrets P keys.peerKey1 keys.peerKey2 keys.ourKey1 keys.ourKey2 with
  | none => exact Or.inl fun left => by simp [keyAgreement, ratchetX3dhSender, hx3dh]
  | some dhCombined =>
    cases hdh : P.x448Dh keys.peerDhPublic keys.ourDhKey.privateKey with
    | none =>
      exact Or.inl fun left => by
        simp [keyAgreement, ratchetX3dhSender, hx3dh, ratchetInitSender, hdh]
    | some dhOut =>
      let root := P.kdfRoot (P.kdf (.x3dh dhCombined) 2) dhOut none
      refine Or.inr ⟨{ RatchetState.zero P with
        headerKeySend := P.kdf (.x3dh dhCombined) 0
        nextHeaderKeyRecv := P.kdf (.x3dh dhCombined) 1
        assocData := keys.ourKey1.publicKey ++ keys.peerKey1
        dhSelf := keys.ourDhKey
        dhPeer := keys.peerDhPublic
        rootKey := root.newRootKey
        chainKeySend := root.chainKey
        nextHeaderKeySend := root.nextHeaderKey
        initialized := true }, rfl, fun left => ?_⟩
      simp only [keyAgreement, ratchetX3dhSender, hx3dh, Option.bind_eq_bind, Option.bind_some,
        Option.pure_def, ratchetInitSender, hdh, if_true]
      rfl

/-- A later session of a slot gives the same, whatever is called, where the slot held the same
receiving chain and the same of the PQ state. -/
theorem new_session_forgets_old (P : Primitives K) (idx : ℕ) (keys : AgreementKeys)
    {left left' : RatchetState K} (h : SameLeftovers left left')
    (recvPq recvPq' : Option ParsedMsgHeader) (calls : List SessionCall) :
    (keyAgreement P keys left).map
        (fun st => ActiveRatchet.outputs P idx ⟨st, recvPq⟩ calls) =
      (keyAgreement P keys left').map
        fun st => ActiveRatchet.outputs P idx ⟨st, recvPq'⟩ calls := by
  rcases keyAgreement_cases P keys with hnone | ⟨fresh, -, hfresh⟩
  · rw [hnone, hnone]
    rfl
  · rw [hfresh, hfresh, Option.map_some, Option.map_some]
    exact congrArg some ((h.onSlot fresh).outputs P idx recvPq recvPq' calls)

/-- Symbolic keys of a key agreement. -/
def sampleAgreement : AgreementKeys where
  peerKey1 := (symbolicPair 1).publicKey
  peerKey2 := (symbolicPair 2).publicKey
  ourKey1 := symbolicPair 3
  ourKey2 := symbolicPair 4
  peerDhPublic := (symbolicPair 2).publicKey
  ourDhKey := symbolicPair 4

/-- A slot on which a session was agreed on that has sent and received nothing. -/
def agreedSlot : RatchetState SymKey :=
  { RatchetState.zero symbolic with
    rootKey := .x3dh [7] 2, headerKeySend := .x3dh [7] 0, dhSelf := symbolicPair 9
    initialized := true }

/-- A slot whose session has accepted a KEM proposal. -/
def acceptedSlot : RatchetState SymKey :=
  { agreedSlot with
    pq := { PqKemState.zero with
      pqActive := 1, pqKemState := 2, pendingCt := Vector.replicate 1039 5 } }

/-- A session that has received nothing leaves nothing behind. -/
theorem new_session_forgets_old_unused :
    (keyAgreement symbolic sampleAgreement agreedSlot).map
        (fun st => ActiveRatchet.outputs symbolic 1 ⟨st, none⟩
          [.encrypt true false [104, 105] 15840]) =
      (keyAgreement symbolic sampleAgreement (.zero symbolic)).map
        fun st => ActiveRatchet.outputs symbolic 1 ⟨st, none⟩
          [.encrypt true false [104, 105] 15840] :=
  new_session_forgets_old symbolic 1 sampleAgreement
    ⟨rfl, rfl, rfl, Iff.rfl, fun _ => Iff.rfl, Iff.rfl, fun _ => ⟨Iff.rfl, Iff.rfl, fun _ => rfl,
      fun _ => rfl⟩, Iff.rfl, fun _ => rfl, fun _ => Iff.rfl, fun _ _ => rfl⟩ none none _

/-- The first two bytes of a ciphertext tell whether its header carries PQ fields. -/
theorem ratchetEncrypt_take_two (P : Primitives K) (idx : ℕ) (enabled : Bool)
    (st : RatchetState K) (plaintext : List UInt8) (paddedMsgLen : ℕ)
    (hadm : encryptAdmitted enabled st paddedMsgLen = true) (hstate : st.pq.pqKemState ≤ 2) :
    ∃ output, (ratchetEncrypt P idx enabled false st plaintext paddedMsgLen).output =
        some output ∧
      output.take 2 = be16 (36 + hdrPadded (pqSendActive enabled st.pq)) := by
  rcases ratchetEncrypt_cases P idx enabled false st plaintext paddedMsgLen with
    ⟨hno, _⟩ | ⟨_, hclean, _⟩ | ⟨_, _, paddedLen, header, _, hheader, heq⟩
  · exact absurd (hadm.symm.trans hno) (by decide)
  · cases hclean
  · refine ⟨_, by rw [heq], ?_⟩
    rw [messageHeader_eq_emittedHeader enabled hstate, Option.some.injEq] at hheader
    rw [encRatchetMessage, emHeader_length, ← hheader, emittedHeader_length]
    rfl

/-- The first header of the new session announces the KEM ciphertext of the old one, and the
message differs from that on an empty slot. -/
theorem old_ciphertext_announced :
    (keyAgreement symbolic sampleAgreement acceptedSlot).map
        (fun st => ActiveRatchet.outputs symbolic 1 ⟨st, none⟩
          [.encrypt true false [104, 105] 15840]) ≠
      (keyAgreement symbolic sampleAgreement (.zero symbolic)).map
        (fun st => ActiveRatchet.outputs symbolic 1 ⟨st, none⟩
          [.encrypt true false [104, 105] 15840]) ∧
    ∃ st, keyAgreement symbolic sampleAgreement acceptedSlot = some st ∧
      emittedKem true st.pq =
        .accepted acceptedSlot.pq.pendingCt acceptedSlot.pq.ownKemPk := by
  have hsome : keyAgreement symbolic sampleAgreement (.zero symbolic) ≠ none := nofun
  rcases keyAgreement_cases symbolic sampleAgreement with hnone | ⟨fresh, hinit, hfresh⟩
  · exact absurd (hnone _) hsome
  · refine ⟨?_, _, hfresh acceptedSlot, rfl⟩
    rw [hfresh, hfresh, Option.map_some, Option.map_some]
    intro heq
    have hadm : ∀ left : RatchetState SymKey,
        encryptAdmitted true (fresh.onSlot left) 15840 = true := by
      intro left
      rw [encryptAdmitted, RatchetState.onSlot, hinit, Bool.true_and]
      cases pqSendActive true left.pq <;> decide
    obtain ⟨used, hused, htake⟩ := ratchetEncrypt_take_two symbolic 1 true
      (fresh.onSlot acceptedSlot) [104, 105] 15840 (hadm _)
      (show acceptedSlot.pq.pqKemState ≤ 2 by decide)
    obtain ⟨unused, hunused, htake'⟩ := ratchetEncrypt_take_two symbolic 1 true
      (fresh.onSlot (.zero symbolic)) [104, 105] 15840 (hadm _)
      (show PqKemState.zero.pqKemState ≤ 2 by decide)
    have hfirst := (List.cons.inj (Option.some.inj heq)).1
    simp only [ActiveRatchet.call, hused, hunused, Option.some.injEq] at hfirst
    have hlengths : be16 (36 + hdrPadded (pqSendActive true PqKemState.zero)) =
        be16 (36 + hdrPadded (pqSendActive true acceptedSlot.pq)) := by
      rw [← hfirst] at htake'
      exact htake'.symm.trans htake
    exact absurd hlengths (by decide)

end SimpleGo
