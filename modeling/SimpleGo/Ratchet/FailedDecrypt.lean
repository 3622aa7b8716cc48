import SimpleGo.Crypto.Symbolic
import SimpleGo.Ratchet.Decrypt

/-!
# What a failed `ratchet_decrypt_body` leaves behind

The classical state survives every failure. The PQ state does not: an ADVANCE runs the KEM
step and uses up the pending secret before the body is tried, and a KEM request that a call
has given up waiting for is carried out all the same. `KemTouches` says on the inputs when
that happens.
-/

namespace SimpleGo

open Lib

variable {K : Type}

/-- What a late request writes is not what is stored. -/
def LateRequest.Fresh (pq : PqKemState) : LateRequest → Prop
  | .keygen _ pair => pair.publicKey ≠ pq.ownKemPk ∧ pair.secretKey ≠ pq.ownKemSk
  | .enc _ ct _ => ct ≠ pq.pendingCt

/-- The drawn key pair, if any, is not the one already stored, and neither is what is carried
out meanwhile. -/
def KemDraws.Fresh (draws : KemDraws) (pq : PqKemState) : Prop :=
  (∀ pair, draws.keyPair = some pair →
    pair.publicKey ≠ pq.ownKemPk ∧ pair.secretKey ≠ pq.ownKemSk) ∧
  ∀ r ∈ draws.late, r.Fresh pq

/-- Neither the drawn key pair nor what a late request writes is already stored. -/
def DecryptDraws.Fresh (draws : DecryptDraws) (pq : PqKemState) : Prop :=
  draws.kem.Fresh pq ∧ ∀ point, ∀ r ∈ draws.late point, r.Fresh pq

/-- When the KEM step acts on a header: it proposes on Nothing in state 0 if it gets a key
pair; on Proposed it stores the peer's key; on Accepted it decapsulates if it has a key pair. -/
def KemStepTouches (enabled : Bool) (draws : KemDraws) (recvPq : Option ParsedMsgHeader)
    (pq : PqKemState) : Prop :=
  enabled = true ∧
    match recvPq with
    | none => False
    | some hdr =>
      match hdr.kem with
      | .nothing => pq.pqKemState = 0 ∧ draws.keyPair.isSome
      | .proposed kemPk => draws.keyPair.isSome ∨ pq.peerKemPk ≠ kemPk ∨ pq.peerKemValid ≠ 1
      | .accepted _ _ => pq.ownKemValid ≠ 0 ∧ draws.decOk = true

/-- When an ADVANCE reaches the use of a pending secret. -/
def PendingReached (P : Primitives K) (enabled : Bool) (draws : DecryptDraws)
    (peerNewPub : Bytes 56) (pq : PqKemState) : Prop :=
  (sendKem enabled pq).isSome ∧
    (draws.dhSelf.bind fun pair => P.x448Dh peerNewPub pair.privateKey).isSome

/-- The late requests that are carried out during a call, but for those of a KEM step, which acts
then. The call passes the first two points only as an ADVANCE whose receive-side DH succeeds. -/
def DecryptDraws.carriedOut (P : Primitives K) (draws : DecryptDraws) (st : RatchetState K)
    (call : BodyCall) : List LateRequest :=
  (if call.mode = .advance ∧ (P.x448Dh call.peerNewPub st.dhSelf.privateKey).isSome
    then draws.late .before ++ draws.late .after else []) ++ draws.late .finish

/-- When a call changes the PQ state: a late request is carried out, or it is an ADVANCE, its
receive-side DH succeeds, and the KEM step acts or a pending secret is used. -/
def KemTouches (P : Primitives K) (enabled : Bool) (draws : DecryptDraws)
    (recvPq : Option ParsedMsgHeader) (st : RatchetState K) (call : BodyCall) : Prop :=
  draws.carriedOut P st call ≠ [] ∨
    call.mode = .advance ∧ (P.x448Dh call.peerNewPub st.dhSelf.privateKey).isSome ∧
      (KemStepTouches enabled draws.kem recvPq st.pq ∨
        PendingReached P enabled draws call.peerNewPub st.pq)

/-- A KEM step that does not act leaves the PQ state and saves nothing. -/
theorem kemStep_of_not_touches (P : Primitives K) {enabled : Bool} {draws : KemDraws}
    {recvPq : Option ParsedMsgHeader} {pq : PqKemState}
    (h : ¬ KemStepTouches enabled draws recvPq pq) :
    (kemStep P enabled draws recvPq pq).pq = pq ∧
      (kemStep P enabled draws recvPq pq).saved = false ∧
      (kemStep P enabled draws recvPq pq).kemSs = none := by
  cases recvPq with
  | none => exact ⟨rfl, rfl, rfl⟩
  | some hdr =>
    cases enabled with
    | false => exact ⟨rfl, rfl, rfl⟩
    | true =>
      simp only [KemStepTouches, true_and] at h
      cases hkem : hdr.kem with
      | nothing =>
        rw [hkem] at h
        by_cases hst : pq.pqKemState = 0
        · cases hpair : draws.keyPair with
          | none => simp [kemStep, pqRecvProcess, hkem, hst, hpair]
          | some pair => exact absurd ⟨hst, by rw [hpair]; rfl⟩ h
        · simp [kemStep, pqRecvProcess, hkem, hst]
      | proposed kemPk =>
        simp only [hkem, not_or, Decidable.not_not, Option.not_isSome_iff_eq_none] at h
        obtain ⟨hpair, hpk, hvalid⟩ := h
        have hsame : pq.withPeer kemPk = pq := by
          rw [PqKemState.withPeer, ← hpk, ← hvalid]
        simp [kemStep, pqRecvProcess, hkem, hpair, hsame]
      | accepted kemCt kemPk =>
        rw [hkem] at h
        by_cases hown : pq.ownKemValid = 0
        · simp [kemStep, pqRecvProcess, hkem, hown]
        · have hdec : draws.decOk = false := by
            cases hd : draws.decOk with
            | false => rfl
            | true => exact absurd ⟨hown, hd⟩ h
          simp [kemStep, pqRecvProcess, hkem, hown, hdec]

/-- A difference that neither the use of a pending secret nor a fresh late request hides. -/
def KeysDiffer (pq' pq : PqKemState) : Prop :=
  pq'.ownKemPk ≠ pq.ownKemPk ∨ pq'.ownKemValid ≠ pq.ownKemValid ∨
    pq'.peerKemPk ≠ pq.peerKemPk ∨ pq'.peerKemValid ≠ pq.peerKemValid ∨
      pq'.pendingCt ≠ pq.pendingCt

/-- States whose keys differ are different. -/
theorem KeysDiffer.ne {pq' pq : PqKemState} (h : KeysDiffer pq' pq) : pq' ≠ pq := by
  rintro rfl
  simp [KeysDiffer] at h

/-- Using the pending secret leaves the keys and the ciphertext alone. -/
theorem keysDiffer_consumePending {enabled : Bool} {pq' pq : PqKemState} :
    KeysDiffer (consumePending enabled pq') pq ↔ KeysDiffer pq' pq := by
  rw [consumePending]
  by_cases h : (sendKem enabled pq').isSome = true
  · rw [if_pos h]
    rfl
  · rw [if_neg h]

/-- A fresh late request leaves other keys or another ciphertext. -/
theorem keysDiffer_carryOutOne {pq : PqKemState} {r : LateRequest} (hr : r.Fresh pq)
    (pq' : PqKemState) : KeysDiffer (pq'.carryOutOne r) pq := by
  cases r with
  | keygen slot pair => exact .inl hr.1
  | enc slot ct ss => exact .inr (.inr (.inr (.inr hr)))

/-- Fresh late requests keep a difference. -/
theorem KeysDiffer.carryOut {pq' pq : PqKemState} {late : List LateRequest}
    (hlate : ∀ r ∈ late, r.Fresh pq) (h : KeysDiffer pq' pq) :
    KeysDiffer (pq'.carryOut late) pq :=
  PqKemState.carryOut_induction (motive := fun y => KeysDiffer y pq) h
    fun y _ r hr => keysDiffer_carryOutOne (hlate r hr) y

/-- Fresh late requests make a difference. -/
theorem keysDiffer_carryOut {pq : PqKemState} {late : List LateRequest} (hne : late ≠ [])
    (hlate : ∀ r ∈ late, r.Fresh pq) (pq' : PqKemState) :
    KeysDiffer (pq'.carryOut late) pq := by
  cases late with
  | nil => exact absurd rfl hne
  | cons r late =>
    rw [List.forall_mem_cons] at hlate
    change KeysDiffer ((pq'.carryOutOne r).carryOut late) pq
    exact (keysDiffer_carryOutOne hlate.1 pq').carryOut hlate.2

/-- Fresh late requests leave no public key that is stored. -/
theorem carryOut_ownKemPk_ne {pq' pq : PqKemState} {late : List LateRequest}
    (hlate : ∀ r ∈ late, r.Fresh pq) (h : pq'.ownKemPk ≠ pq.ownKemPk) :
    (pq'.carryOut late).ownKemPk ≠ pq.ownKemPk := by
  refine PqKemState.carryOut_induction (motive := fun y => y.ownKemPk ≠ pq.ownKemPk) h
    fun y hy r hr => ?_
  cases r with
  | keygen slot pair => exact (hlate _ hr).1
  | enc slot ct ss => exact hy

/-- A KEM step stores a fresh pair, or leaves the own key and the ciphertext. -/
theorem kemStep_own (P : Primitives K) (enabled : Bool) {draws : KemDraws}
    (recvPq : Option ParsedMsgHeader) (pq : PqKemState) {old : PqKemState}
    (hfresh : draws.Fresh old) :
    (kemStep P enabled draws recvPq pq).pq.ownKemPk ≠ old.ownKemPk ∨
    ((kemStep P enabled draws recvPq pq).pq.ownKemPk = pq.ownKemPk ∧
      (kemStep P enabled draws recvPq pq).pq.pendingCt = pq.pendingCt) := by
  have hstored : ∀ (y : PqKemState) (pair : KemKeyPair), draws.keyPair = some pair →
      (y.withOwn pair).ownKemPk ≠ old.ownKemPk ∧
        ((y.withOwn pair).carryOut draws.late).ownKemPk ≠ old.ownKemPk := fun y pair hpair =>
    ⟨(hfresh.1 pair hpair).1, carryOut_ownKemPk_ne hfresh.2 (hfresh.1 pair hpair).1⟩
  cases recvPq with
  | none => exact .inr ⟨rfl, rfl⟩
  | some hdr =>
    cases enabled with
    | false => exact .inr ⟨rfl, rfl⟩
    | true =>
      simp only [kemStep, if_true]
      cases hkem : hdr.kem with
      | nothing =>
        by_cases hst : pq.pqKemState = 0
        · cases hpair : draws.keyPair with
          | none => exact .inr (by simp [pqRecvProcess, hst, hpair])
          | some pair =>
            exact .inl (by simpa [pqRecvProcess, hst, hpair] using (hstored _ _ hpair).2)
        · exact .inr (by simp [pqRecvProcess, hst])
      | proposed kemPk =>
        cases hpair : draws.keyPair with
        | none => exact .inr (by simp [pqRecvProcess, hpair, PqKemState.withPeer])
        | some pair =>
          left
          cases hcoins : draws.encCoins with
          | none => simpa [pqRecvProcess, hpair, hcoins] using (hstored pq pair hpair).1
          | some coins =>
            simpa [pqRecvProcess, hpair, hcoins] using (hstored (pq.withPeer kemPk) pair hpair).2
      | accepted kemCt kemPk =>
        by_cases hown : pq.ownKemValid = 0
        · exact .inr (by simp [pqRecvProcess, hown])
        · cases hdec : draws.decOk with
          | false => exact .inr (by simp [pqRecvProcess, hown, hdec])
          | true =>
            cases hpair : draws.keyPair with
            | none => exact .inr (by simp [pqRecvProcess, hown, hdec, hpair, PqKemState.withPeer])
            | some pair =>
              left
              cases hcoins : draws.encCoins with
              | none =>
                simpa [pqRecvProcess, hown, hdec, hpair, hcoins] using (hstored pq pair hpair).1
              | some coins =>
                simpa [pqRecvProcess, hown, hdec, hpair, hcoins] using
                  (hstored ({ pq with ownKemSk := zeroBytes _ }.withPeer kemPk) pair hpair).2

/-- A KEM step that acts leaves other keys. -/
theorem kemStep_of_touches (P : Primitives K) {enabled : Bool} {draws : KemDraws}
    {recvPq : Option ParsedMsgHeader} {pq : PqKemState} (hfresh : draws.Fresh pq)
    (h : KemStepTouches enabled draws recvPq pq) :
    KeysDiffer (kemStep P enabled draws recvPq pq).pq pq := by
  obtain ⟨rfl, h⟩ := h
  cases recvPq with
  | none => exact h.elim
  | some hdr =>
    dsimp only at h
    cases hpair : draws.keyPair with
    | some pair =>
      -- every branch that has a key pair stores it, or what is carried out over it
      left
      have hpk := (hfresh.1 pair hpair).1
      have hlate : ∀ y : PqKemState, ((y.withOwn pair).carryOut draws.late).ownKemPk ≠
          pq.ownKemPk := fun y => carryOut_ownKemPk_ne hfresh.2 hpk
      cases hkem : hdr.kem with
      | nothing =>
        rw [hkem] at h
        simpa [kemStep, pqRecvProcess, hkem, h.1, hpair] using hlate pq
      | proposed kemPk =>
        cases hcoins : draws.encCoins with
        | none => simpa [kemStep, pqRecvProcess, hkem, hpair, hcoins] using hpk
        | some coins =>
          simpa [kemStep, pqRecvProcess, hkem, hpair, hcoins] using hlate (pq.withPeer kemPk)
      | accepted kemCt kemPk =>
        rw [hkem] at h
        cases hcoins : draws.encCoins with
        | none => simpa [kemStep, pqRecvProcess, hkem, h.1, h.2, hpair, hcoins] using hpk
        | some coins =>
          simpa [kemStep, pqRecvProcess, hkem, h.1, h.2, hpair, hcoins] using
            hlate ({ pq with ownKemSk := zeroBytes _ }.withPeer kemPk)
    | none =>
      cases hkem : hdr.kem with
      | nothing =>
        rw [hkem, hpair] at h
        exact absurd h.2 (by decide)
      | proposed kemPk =>
        simp only [hkem, hpair, Option.isSome_none, Bool.false_eq_true, false_or] at h
        right; right
        rcases h with hpk | hvalid
        · left
          simpa [kemStep, pqRecvProcess, hkem, hpair] using Ne.symm hpk
        · right; left
          simpa [kemStep, pqRecvProcess, hkem, hpair] using Ne.symm hvalid
      | accepted kemCt kemPk =>
        rw [hkem] at h
        right; left
        simpa [kemStep, pqRecvProcess, hkem, h.1, h.2, hpair] using Ne.symm h.1

/-- A KEM step that finds fresh late requests carried out, or acts, leaves another state. -/
theorem kemStep_keysDiffer (P : Primitives K) {enabled : Bool} {draws : DecryptDraws}
    {recvPq : Option ParsedMsgHeader} {pq : PqKemState} (hfresh : draws.Fresh pq)
    (h : draws.late .before ≠ [] ∨ KemStepTouches enabled draws.kem recvPq pq) :
    KeysDiffer (kemStep P enabled draws.kem recvPq (pq.carryOut (draws.late .before))).pq pq := by
  by_cases hnil : draws.late .before = []
  · rw [hnil]
    exact kemStep_of_touches P hfresh.1 (h.resolve_left fun hne => hne hnil)
  · -- the drawn pair is fresh too, and without it the step leaves what was carried out
    have hlate := hfresh.2 .before
    rcases kemStep_own P enabled recvPq (pq.carryOut (draws.late .before)) hfresh.1 with
      hpk | ⟨hpk, hct⟩
    · exact .inl hpk
    · rcases keysDiffer_carryOut hnil hlate pq with hdiff | hdiff | hdiff | hdiff | hdiff
      · exact .inl (hpk ▸ hdiff)
      · exact absurd (by simp) hdiff
      · exact absurd (by rw [PqKemState.carryOut_frame]) hdiff
      · exact absurd (by rw [PqKemState.carryOut_frame]) hdiff
      · exact .inr (.inr (.inr (.inr (hct ▸ hdiff))))

/-- Without `KemTouches` an ADVANCE leaves the PQ state and saves nothing of it. -/
theorem advanceRatchet_of_not_touches {P : Primitives K} (idx : ℕ) {enabled : Bool}
    {draws : DecryptDraws} {recvPq : Option ParsedMsgHeader} {st : RatchetState K}
    {call : BodyCall} (hmode : call.mode = .advance)
    (h : ¬ KemTouches P enabled draws recvPq st call) :
    (advanceRatchet P idx enabled draws recvPq call.peerNewPub st).pq = st.pq ∧
      (advanceRatchet P idx enabled draws recvPq call.peerNewPub st).writes = [] := by
  rw [advanceRatchet]
  cases hrecv : P.x448Dh call.peerNewPub st.dhSelf.privateKey with
  | none => exact ⟨rfl, rfl⟩
  | some dhRecv =>
    simp only [KemTouches, DecryptDraws.carriedOut, hmode, hrecv, Option.isSome_some, true_and,
      and_self, if_true, ne_eq, List.append_eq_nil_iff, not_or, Decidable.not_not] at h
    obtain ⟨⟨⟨hbefore, hafter⟩, -⟩, hstep, hreached⟩ := h
    obtain ⟨hpq, hsaved, -⟩ := kemStep_of_not_touches P hstep
    simp only [hbefore, hafter, PqKemState.carryOut_nil, hsaved, Bool.false_eq_true, if_false,
      and_true, hpq, advanceSend_pq]
    split
    · rename_i hsend
      rw [consumePending, if_neg fun hpending => hreached ⟨hpending, hsend⟩]
    · rfl

/-- An ADVANCE that carries out a fresh late request, whose KEM step acts or which uses a
pending secret leaves another PQ state, whatever is carried out after it. -/
theorem advanceRatchet_of_touches {P : Primitives K} (idx : ℕ) {enabled : Bool}
    {draws : DecryptDraws} {recvPq : Option ParsedMsgHeader} {st : RatchetState K}
    {peerNewPub : Bytes 56} (hfresh : draws.Fresh st.pq)
    (hrecv : (P.x448Dh peerNewPub st.dhSelf.privateKey).isSome)
    (h : draws.late .before ≠ [] ∨ draws.late .after ≠ [] ∨
      KemStepTouches enabled draws.kem recvPq st.pq ∨
        PendingReached P enabled draws peerNewPub st.pq) :
    KeysDiffer (advanceRatchet P idx enabled draws recvPq peerNewPub st).pq st.pq ∨
      (advanceRatchet P idx enabled draws recvPq peerNewPub st).pq.pendingSsValid ≠
        st.pq.pendingSsValid := by
  obtain ⟨dhRecv, hrecv⟩ := Option.isSome_iff_exists.mp hrecv
  have hsent : ∀ pq : PqKemState, KeysDiffer pq st.pq →
      KeysDiffer (advanceSend P enabled draws.dhSelf peerNewPub
        (P.kdfRoot st.rootKey dhRecv
          (kemStep P enabled draws.kem recvPq (st.pq.carryOut (draws.late .before))).kemSs)
        pq).2 st.pq := by
    intro pq hdiff
    rw [advanceSend_pq]
    split
    · exact keysDiffer_consumePending.mpr hdiff
    · exact hdiff
  rw [advanceRatchet, hrecv]
  by_cases hkem : draws.late .before ≠ [] ∨ KemStepTouches enabled draws.kem recvPq st.pq
  · exact .inl (hsent _ ((kemStep_keysDiffer P hfresh hkem).carryOut (hfresh.2 .after)))
  · by_cases hafter : draws.late .after = []
    · -- only the pending secret is left
      rw [not_or, Decidable.not_not] at hkem
      obtain ⟨hbefore, hstep⟩ := hkem
      obtain ⟨hpq, -, -⟩ := kemStep_of_not_touches P hstep
      obtain ⟨hpending, hsend⟩ : PendingReached P enabled draws peerNewPub st.pq := by
        simpa [hbefore, hafter, hstep] using h
      right
      simp only [hbefore, hafter, PqKemState.carryOut_nil, advanceSend_pq, hpq, if_pos hsend,
        consumePending, if_pos hpending]
      intro hvalid
      rw [sendKem, ← hvalid] at hpending
      simp at hpending
    · exact .inl (hsent _ (keysDiffer_carryOut hafter (hfresh.2 .after) _))

/-- A call that does not touch the KEM state leaves the PQ state. -/
theorem ratchetDecryptBody_pq_of_not_touches {P : Primitives K} (idx : ℕ) {enabled : Bool}
    {draws : DecryptDraws} {recvPq : Option ParsedMsgHeader} {st : RatchetState K}
    {call : BodyCall} (h : ¬ KemTouches P enabled draws recvPq st call) :
    (ratchetDecryptBody P idx enabled draws recvPq st call).state.pq = st.pq := by
  have hfinish : draws.late .finish = [] := by
    by_contra hne
    exact h (.inl fun hnil => hne (List.append_eq_nil_iff.mp hnil).2)
  rcases ratchetDecryptBody_cases P idx enabled draws recvPq st call with
    ⟨-, e, hd⟩ | ⟨-, -, plaintext, -, hd⟩ | ⟨hmode, e, hd⟩ | ⟨hmode, keys, plaintext, -, -, hd⟩
  · simp only [hd, hfinish, RatchetState.carryOut_nil]
  · simp only [hd, hfinish, RatchetState.carryOut_nil, RatchetState.applySame_pq]
  · simp only [hd, hfinish, PqKemState.carryOut_nil, (advanceRatchet_of_not_touches idx hmode h).1]
  · simp only [hd, hfinish, PqKemState.carryOut_nil, RatchetState.applyAdvance_pq,
      (advanceRatchet_of_not_touches idx hmode h).1]

/-- A call that touches the KEM state leaves another PQ state. -/
theorem ratchetDecryptBody_pq_of_touches {P : Primitives K} (idx : ℕ) {enabled : Bool}
    {draws : DecryptDraws} {recvPq : Option ParsedMsgHeader} {st : RatchetState K}
    {call : BodyCall} (hfresh : draws.Fresh st.pq)
    (h : KemTouches P enabled draws recvPq st call) :
    (ratchetDecryptBody P idx enabled draws recvPq st call).state.pq ≠ st.pq := by
  have hfinish : ∀ pq : PqKemState,
      KeysDiffer pq st.pq ∨ pq.pendingSsValid ≠ st.pq.pendingSsValid →
        pq.carryOut (draws.late .finish) ≠ st.pq := by
    rintro pq (hdiff | hvalid) heq
    · exact (hdiff.carryOut (hfresh.2 .finish)).ne heq
    · exact hvalid (by rw [← heq, PqKemState.carryOut_pendingSsValid])
  by_cases hne : draws.late .finish = []
  · have hin : call.mode = .advance ∧ (P.x448Dh call.peerNewPub st.dhSelf.privateKey).isSome ∧
        (draws.late .before ≠ [] ∨ draws.late .after ≠ [] ∨
          KemStepTouches enabled draws.kem recvPq st.pq ∨
            PendingReached P enabled draws call.peerNewPub st.pq) := by
      rcases h with hlate | ⟨hmode, hrecv, htouch⟩
      · rw [DecryptDraws.carriedOut, hne, List.append_nil] at hlate
        split_ifs at hlate with hadv
        · simp only [ne_eq, List.append_eq_nil_iff, not_and_or] at hlate
          exact ⟨hadv.1, hadv.2, hlate.elim .inl fun hafter => .inr (.inl hafter)⟩
        · exact absurd rfl hlate
      · exact ⟨hmode, hrecv, .inr (.inr htouch)⟩
    obtain ⟨hmode, hrecv, htouch⟩ := hin
    have hadv := advanceRatchet_of_touches idx hfresh hrecv htouch
    rcases ratchetDecryptBody_cases P idx enabled draws recvPq st call with
      ⟨hsame, -⟩ | ⟨hsame, -⟩ | ⟨-, e, hd⟩ | ⟨-, keys, plaintext, -, -, hd⟩
    · exact absurd (hmode.symm.trans hsame) (by decide)
    · exact absurd (hmode.symm.trans hsame) (by decide)
    · rw [hd]
      exact hfinish _ hadv
    · rw [hd]
      exact hfinish _ hadv
  · -- what is carried out last is fresh, whatever was there before it
    have hlast : ∀ pq : PqKemState, pq.carryOut (draws.late .finish) ≠ st.pq :=
      fun pq => (keysDiffer_carryOut hne (hfresh.2 .finish) pq).ne
    rcases ratchetDecryptBody_cases P idx enabled draws recvPq st call with
      ⟨-, e, hd⟩ | ⟨-, -, plaintext, -, hd⟩ | ⟨-, e, hd⟩ | ⟨-, keys, plaintext, -, -, hd⟩ <;>
    · rw [hd]
      exact hlast _

/-- A failed call leaves RAM and NVS as they were exactly when it does not touch the KEM
state, whichever of its writes land. -/
theorem ratchetDecryptBody_failed_unchanged_iff (P : Primitives K) (idx : ℕ) (enabled : Bool)
    (draws : DecryptDraws) (recvPq : Option ParsedMsgHeader) (st : RatchetState K)
    (call : BodyCall) (nvs : Nvs K) (lands : ℕ → Bool) (hfresh : draws.Fresh st.pq)
    (hfail : ∀ plaintext,
      (ratchetDecryptBody P idx enabled draws recvPq st call).result ≠ .ok plaintext) :
    ((ratchetDecryptBody P idx enabled draws recvPq st call).state = st ∧
      nvs.putAll (Store.landed lands
        (ratchetDecryptBody P idx enabled draws recvPq st call).writes) = nvs) ↔
      ¬ KemTouches P enabled draws recvPq st call := by
  constructor
  · rintro ⟨hst, -⟩ htouch
    exact ratchetDecryptBody_pq_of_touches idx hfresh htouch (congrArg RatchetState.pq hst)
  · intro htouch
    have hpq := ratchetDecryptBody_pq_of_not_touches idx htouch
    rcases ratchetDecryptBody_cases P idx enabled draws recvPq st call with
      ⟨_, e, h⟩ | ⟨_, _, plaintext, _, h⟩ | ⟨hmode, e, h⟩ | ⟨_, _, plaintext, _, _, h⟩
    · rw [h] at hpq ⊢
      rw [Store.landed_nil, Store.putAll_nil]
      exact ⟨congrArg (fun pq => { st with pq }) hpq, rfl⟩
    · exact absurd (by rw [h]) (hfail plaintext)
    · rw [h] at hpq ⊢
      simp only [(advanceRatchet_of_not_touches idx hmode htouch).2, Store.landed_nil,
        Store.putAll_nil, and_true]
      exact congrArg (fun pq => { st with pq }) hpq
    · exact absurd (by rw [h]) (hfail plaintext)

/-- A session set up by the handshake on the symbolic instance. -/
def sampleSession : RatchetState SymKey :=
  (ratchetSetup symbolic (symbolicPair 1).publicKey (symbolicPair 2).publicKey (symbolicPair 3)
    (symbolicPair 4)).getD (.zero symbolic)

/-- The sample session comes from the key agreement. -/
theorem sampleSession_setup : ratchetSetup symbolic (symbolicPair 1).publicKey
    (symbolicPair 2).publicKey (symbolicPair 3) (symbolicPair 4) = some sampleSession := rfl

/-- Draws in which everything succeeds. -/
def sampleDraws : DecryptDraws where
  kem := { precomputed := none, keygen := some (symbolicKemPair 5)
           encCoins := some (Vector.replicate 32 6), decOk := true }
  dhSelf := some (symbolicPair 7)
  aadAlloc := true

/-- The drawn KEM pair is not the zero pair. -/
theorem sampleDraws_kem_ne_zero {pair : KemKeyPair} (h : sampleDraws.kem.keyPair = some pair) :
    pair.publicKey ≠ zeroBytes _ ∧ pair.secretKey ≠ zeroBytes _ := by
  obtain rfl : symbolicKemPair 5 = pair := Option.some.inj h
  refine ⟨fun h => ?_, fun h => ?_⟩
  · have hb := congrArg (fun v : Bytes 1158 => v[0]) h
    exact absurd hb (by decide)
  · have hb := congrArg (fun v : Bytes 1763 => v[0]) h
    exact absurd hb (by decide)

/-- A header as the peer's first message carries it. -/
def sampleHeader (kem : MsgKem) : ParsedMsgHeader where
  version := 3
  dhPublic := (symbolicPair 8).publicKey
  kem := kem
  pn := 0
  ns := 0

/-- An ADVANCE whose two-byte body carries the given tag. -/
def sampleCall (emAuthTag : Bytes 16) : BodyCall where
  mode := .advance
  peerNewPub := (symbolicPair 8).publicKey
  msgPn := 0
  msgNs := 0
  emHeaderRaw := []
  emAuthTag := emAuthTag
  emBody := [0, 0]
  junk := fun _ => 0

/-- The tag under which that body opens when the header brings no KEM secret. -/
def sampleTag : Bytes 16 :=
  let dhRecv := ((symbolic.x448Dh (symbolicPair 8).publicKey
    sampleSession.dhSelf.privateKey).getD (zeroBytes _))
  let recv := symbolic.kdfRoot sampleSession.rootKey dhRecv none
  (symbolic.kdfChain recv.chainKey).messageKey.tag

/-- A body with a wrong tag under a header that offers no KEM fails, and moves a fresh session
from KEM state 0 to 1. -/
theorem ratchetDecryptBody_failed_proposes :
    (ratchetDecryptBody symbolic 0 true sampleDraws (some (sampleHeader .nothing)) sampleSession
      (sampleCall (zeroBytes 16))).result = .error (-5) ∧
    sampleSession.pq.pqKemState = 0 ∧
    (ratchetDecryptBody symbolic 0 true sampleDraws (some (sampleHeader .nothing)) sampleSession
      (sampleCall (zeroBytes 16))).state.pq.pqKemState = 1 := by
  refine ⟨?_, ?_, ?_⟩
  · rfl
  · rfl
  · rfl

/-- The same call with PQ disabled fails and changes nothing. -/
theorem ratchetDecryptBody_failed_unchanged_iff_disabled :
    (ratchetDecryptBody symbolic 0 false sampleDraws (some (sampleHeader .nothing)) sampleSession
      (sampleCall (zeroBytes 16))).state = sampleSession := by
  refine ((ratchetDecryptBody_failed_unchanged_iff symbolic 0 false sampleDraws
    (some (sampleHeader .nothing)) sampleSession (sampleCall (zeroBytes 16)) (fun _ => none)
    (fun _ => true) ?_ ?_).mpr ?_).1
  · exact ⟨⟨fun pair hpair => sampleDraws_kem_ne_zero hpair, fun r hr => by cases hr⟩,
      fun _ r hr => by cases hr⟩
  · intro plaintext h
    have hr : (ratchetDecryptBody symbolic 0 false sampleDraws (some (sampleHeader .nothing))
      sampleSession (sampleCall (zeroBytes 16))).result = .error (-5) := rfl
    rw [hr] at h
    cases h
  · rintro (h | ⟨-, -, ⟨h, -⟩ | ⟨h, -⟩⟩)
    · exact h rfl
    · cases h
    · cases h

end SimpleGo
