import SimpleGo.Lib.Runs
import SimpleGo.Ratchet.Encrypt
import SimpleGo.Ratchet.FailedDecrypt

/-!
# The KEM field of a header and the secret in its chain

A receiver mixes a KEM secret into its root KDF when the header says Accepted, so the sender
must say Accepted exactly when it mixed the encapsulated secret into the chain it sends on.
The code keeps no record of what went into the chain; `KemSession` adds it to the state.

The two fall out of step when the PQ setting changes between the derivation of a chain and a
message on it, when an accepting ADVANCE fails, when an ADVANCE without a usable KEM field
replaces an accepted chain, and when an encapsulation that timed out is carried out on a
session whose chain holds another one.
-/

namespace SimpleGo

open Lib

variable {K : Type}

/-- One contact's session with the PQ setting, and what the current sending chain was derived
from: the KEM secret and the setting at that time. -/
structure KemSession (K : Type) where
  state : RatchetState K
  recvPq : Option ParsedMsgHeader
  enabled : Bool
  chainKem : Option (Bytes 32)
  chainEnabled : Bool

/-- A freshly set up session: its first chain comes from DH only. -/
def KemSession.start (st : RatchetState K) (enabled : Bool) : KemSession K where
  state := st
  recvPq := none
  enabled := enabled
  chainKem := none
  chainEnabled := enabled

/-- The operations of a run: `ratchet_encrypt`, `ratchet_set_recv_pq`, `ratchet_decrypt_body`,
`smp_settings_set_pq_enabled`, and late requests that the crypto task carries out. -/
inductive KemAction where
  | encrypt (cleanup : Bool) (plaintext : List UInt8) (paddedMsgLen : ℕ)
  | setRecvPq (hdr : Option ParsedMsgHeader)
  | decrypt (draws : DecryptDraws) (call : BodyCall)
  | setPqEnabled (val : UInt8)
  | cryptoTask (late : List LateRequest)

/-- One operation. A successful ADVANCE derives a new sending chain. -/
def KemSession.step (P : Primitives K) (idx : ℕ) (s : KemSession K) : KemAction → KemSession K
  | .encrypt cleanup plaintext paddedMsgLen =>
    { s with
      state := (ratchetEncrypt P idx s.enabled cleanup s.state plaintext paddedMsgLen).state }
  | .setRecvPq hdr => { s with recvPq := hdr }
  | .decrypt draws call =>
    let out := ratchetDecryptBody P idx s.enabled draws s.recvPq s.state call
    let s' := { s with state := out.state, recvPq := out.recvPq }
    match call.mode, out.result with
    | .advance, .ok _ =>
      { s' with
        chainKem := sendKem s.enabled
          ((kemStep P s.enabled draws.kem s.recvPq (s.state.pq.carryOut (draws.late .before))).pq
            |>.carryOut (draws.late .after))
        chainEnabled := s.enabled }
    | _, _ => s'
  | .setPqEnabled val => { s with enabled := val != 0 }
  | .cryptoTask late => { s with state := s.state.carryOut late }

/-- The ciphertext carries the secret. -/
def Encapsulates (P : Primitives K) (ct : Bytes 1039) (ss : Bytes 32) : Prop :=
  ∃ pk coins, P.kemEnc pk coins = (ct, ss)

/-- The agreement of a KEM field with a chain: Accepted exactly with the encapsulated secret. -/
def KemAgrees (P : Primitives K) (kem : MsgKem) (chainKem : Option (Bytes 32)) : Prop :=
  match kem with
  | .accepted ct _ => ∃ ss, chainKem = some ss ∧ Encapsulates P ct ss
  | _ => chainKem = none

/-- Every emitted header parses, and its KEM field agrees with the sending chain. -/
def EmissionAgrees (P : Primitives K) (idx : ℕ) (s : KemSession K) : KemAction → Prop
  | .encrypt cleanup plaintext paddedMsgLen => ∀ output,
    (ratchetEncrypt P idx s.enabled cleanup s.state plaintext paddedMsgLen).output = some output →
    ∃ header paddedLen hdr,
      messageHeader s.enabled s.state.dhSelf.publicKey s.state.pq s.state.prevChainLen
        s.state.msgNumSend = some header ∧
      output = encRatchetMessage P s.state header plaintext paddedLen ∧
      (∀ junk, pqHeaderDeserialize (memOf header junk) header.length = .ok hdr) ∧
      KemAgrees P hdr.kem s.chainKem
  | _ => True

/-- A KEM field the KEM step accepts: a proposal, or an acceptance it has the key for, with
key generation and encapsulation succeeding. -/
def KemAccepts (enabled : Bool) (draws : KemDraws) (recvPq : Option ParsedMsgHeader)
    (pq : PqKemState) : Prop :=
  enabled = true ∧ draws.keyPair.isSome ∧ draws.encCoins.isSome ∧
    match recvPq with
    | none => False
    | some hdr =>
      match hdr.kem with
      | .nothing => False
      | .proposed _ => True
      | .accepted _ _ => pq.ownKemValid ≠ 0 ∧ draws.decOk = true

/-- An ADVANCE that goes through: its DH steps succeed and the body opens under the chain they
give. -/
def AdvanceOpens (P : Primitives K) (idx : ℕ) (enabled : Bool) (draws : DecryptDraws)
    (recvPq : Option ParsedMsgHeader) (st : RatchetState K) (call : BodyCall) : Prop :=
  ∃ keys plaintext,
    (advanceRatchet P idx enabled draws recvPq call.peerNewPub st).result = .ok keys ∧
    openBody P st.assocData call draws.aadAlloc (bodyChainKey P 0 call.msgNs keys.recvChainKey) =
      .ok plaintext

/-- No encapsulation is carried out late. -/
def NoLateEnc (late : List LateRequest) : Prop := ∀ r ∈ late, r.isEnc = false

/-- Where a call may not find an encapsulation carried out late: in KEM state 2, and after it
has accepted a KEM field. -/
def DecryptDraws.LateSteady (draws : DecryptDraws) (s : KemSession K) (call : BodyCall) : Prop :=
  (call.mode = .advance → ¬ KemAccepts s.enabled draws.kem s.recvPq s.state.pq →
    s.state.pq.pqKemState = 2 → NoLateEnc (draws.late .before)) ∧
  (call.mode = .advance → KemAccepts s.enabled draws.kem s.recvPq s.state.pq ∨
    s.state.pq.pqKemState = 2 → NoLateEnc (draws.late .after)) ∧
  (call.mode = .advance ∧ KemAccepts s.enabled draws.kem s.recvPq s.state.pq ∨
    s.state.pq.pqKemState = 2 → NoLateEnc (draws.late .finish))

/-- A call during which nothing is carried out late finds no such encapsulation. -/
theorem lateSteady_of_inTime {draws : DecryptDraws} (h : ∀ point, draws.late point = [])
    (s : KemSession K) (call : BodyCall) : draws.LateSteady s call := by
  simp [DecryptDraws.LateSteady, NoLateEnc, h]

/-- The condition on a step. A message in KEM state 2 is sent under the setting its chain was
derived under; an ADVANCE whose KEM field is accepted goes through; one whose field is not does
not replace a chain in state 2 while PQ is on; and no encapsulation is carried out late in
state 2. -/
def KemAction.Steady (P : Primitives K) (idx : ℕ) (s : KemSession K) : KemAction → Prop
  | .encrypt _ _ _ =>
    s.state.pq.pqKemState = 2 → s.state.pq.pqActive ≠ 0 → s.enabled = s.chainEnabled
  | .decrypt draws call => draws.LateSteady s call ∧ (call.mode = .advance →
    (KemAccepts s.enabled draws.kem s.recvPq s.state.pq →
      AdvanceOpens P idx s.enabled draws s.recvPq s.state call) ∧
    (¬ KemAccepts s.enabled draws.kem s.recvPq s.state.pq → s.state.pq.pqKemState = 2 →
      pqSendActive s.enabled s.state.pq = true →
      ¬ AdvanceOpens P idx s.enabled draws s.recvPq s.state call))
  | .cryptoTask late => s.state.pq.pqKemState = 2 → NoLateEnc late
  | _ => True

/-- What holds between the PQ state and the sending chain. -/
structure KemInv (P : Primitives K) (pq : PqKemState) (chainKem : Option (Bytes 32))
    (chainEnabled : Bool) : Prop where
  user : pq.pqUserDisabled = 0
  state_le : pq.pqKemState ≤ 2
  active : pq.pqActive ≠ 0 ↔ pq.pqKemState ≠ 0
  pending : pq.pendingSsValid = 0
  off : pq.pqKemState ≠ 2 → chainKem = none
  disabled : chainEnabled = false → chainKem = none
  accepted : pq.pqKemState = 2 → chainEnabled = true →
    ∃ ss, chainKem = some ss ∧ Encapsulates P pq.pendingCt ss

/-- A fresh session has no KEM state. -/
theorem KemInv.zero (P : Primitives K) (enabled : Bool) : KemInv P .zero none enabled where
  user := rfl
  state_le := by decide
  active := by decide
  pending := rfl
  off _ := rfl
  disabled _ := rfl
  accepted h := absurd h (by decide)

/-- The invariant reads what is sent and mixed next. -/
theorem KemInv.of_samePending {P : Primitives K} {pq pq' : PqKemState}
    {chainKem : Option (Bytes 32)} {chainEnabled : Bool} (h : KemInv P pq chainKem chainEnabled)
    (hsame : SamePending pq' pq) : KemInv P pq' chainKem chainEnabled where
  user := hsame.pqUserDisabled.trans h.user
  state_le := hsame.pqKemState ▸ h.state_le
  active := by rw [hsame.pqActive, hsame.pqKemState]; exact h.active
  pending := hsame.pendingSsValid.trans h.pending
  off := by rw [hsame.pqKemState]; exact h.off
  disabled := h.disabled
  accepted := by rw [hsame.pqKemState, hsame.pendingCt]; exact h.accepted

/-- Late requests keep the invariant, where no encapsulation replaces the one of the chain. -/
theorem KemInv.carryOut {P : Primitives K} {pq : PqKemState} {chainKem : Option (Bytes 32)}
    {chainEnabled : Bool} (h : KemInv P pq chainKem chainEnabled) {late : List LateRequest}
    (hlate : pq.pqKemState = 2 → NoLateEnc late) :
    KemInv P (pq.carryOut late) chainKem chainEnabled where
  user := by rw [PqKemState.carryOut_pqUserDisabled]; exact h.user
  state_le := by rw [PqKemState.carryOut_pqKemState]; exact h.state_le
  active := by
    rw [PqKemState.carryOut_pqActive, PqKemState.carryOut_pqKemState]
    exact h.active
  pending := by rw [PqKemState.carryOut_pendingSsValid]; exact h.pending
  off := by rw [PqKemState.carryOut_pqKemState]; exact h.off
  disabled := h.disabled
  accepted h2 hen := by
    rw [PqKemState.carryOut_pqKemState] at h2
    rw [(PqKemState.carryOut_pending (hlate h2) pq).1]
    exact h.accepted h2 hen

/-- A proposal on a chain without a KEM secret. -/
theorem KemInv.propose {P : Primitives K} {pq : PqKemState} {chainKem : Option (Bytes 32)}
    {chainEnabled : Bool} (h : KemInv P pq chainKem chainEnabled) (pair : KemKeyPair)
    (late : List LateRequest) (chainEnabled' : Bool) :
    KemInv P ((pq.withOwn pair).carryOut late).withProposal none chainEnabled' where
  user := ((pq.withOwn pair).carryOut_pqUserDisabled late).trans h.user
  state_le := (by decide : (1 : UInt8) ≤ 2)
  active := by simp [PqKemState.withProposal, PqKemState.withOwn, h.user]
  pending := ((pq.withOwn pair).carryOut_pendingSsValid late).trans h.pending
  off _ := rfl
  disabled _ := rfl
  accepted h := absurd h (by simp [PqKemState.withProposal])

/-- An accepted KEM field: the new chain takes the secret, which is then wiped. -/
theorem KemInv.accept {P : Primitives K} {pq : PqKemState} (huser : pq.pqUserDisabled = 0)
    (pk : Bytes 1158) (coins : Bytes 32) {late : List LateRequest} (hlate : NoLateEnc late) :
    KemInv P (consumePending true ((pq.withPending (P.kemEnc pk coins)).carryOut late))
      (sendKem true ((pq.withPending (P.kemEnc pk coins)).carryOut late)) true := by
  obtain ⟨hct, hss⟩ :=
    PqKemState.carryOut_pending hlate (pq.withPending (P.kemEnc pk coins))
  have hactive : ((pq.withPending (P.kemEnc pk coins)).carryOut late).pqActive = 1 := by
    rw [PqKemState.carryOut_pqActive, PqKemState.withPending, if_pos huser]
  have hstate : ((pq.withPending (P.kemEnc pk coins)).carryOut late).pqKemState = 2 := by
    rw [PqKemState.carryOut_pqKemState]
    rfl
  have hsend : sendKem true ((pq.withPending (P.kemEnc pk coins)).carryOut late) =
      some (P.kemEnc pk coins).2 := by
    rw [sendKem, pqSendActive, hactive, PqKemState.carryOut_pendingSsValid, hss]
    rfl
  rw [consumePending, hsend, Option.isSome_some, if_pos rfl]
  exact
    { user := by
        simp only [PqKemState.carryOut_pqUserDisabled]
        exact huser
      state_le := by
        simp only [hstate]
        decide
      active := by
        simp only [hactive, hstate]
        decide
      pending := rfl
      off := fun h => absurd hstate h
      disabled := fun h => by cases h
      accepted := fun _ _ => ⟨_, rfl, pk, coins, Prod.ext hct.symm rfl⟩ }

/-- The KEM field of an emitted header is the one the PQ state gives, and it parses back. -/
theorem emissionAgrees_iff {P : Primitives K} {idx : ℕ} {s : KemSession K} {cleanup : Bool}
    {plaintext : List UInt8} {paddedMsgLen : ℕ} (hst : s.state.pq.pqKemState ≤ 2) :
    EmissionAgrees P idx s (.encrypt cleanup plaintext paddedMsgLen) ↔
      (encryptAdmitted s.enabled s.state paddedMsgLen = true → cleanup = false →
        KemAgrees P (emittedKem (pqSendActive s.enabled s.state.pq) s.state.pq) s.chainKem) := by
  have hheader := messageHeader_eq_emittedHeader s.enabled hst
  constructor
  · intro h hadm hclean
    obtain ⟨output, hout⟩ := Option.isSome_iff_exists.mp
      ((ratchetEncrypt_output_isSome P idx s.enabled cleanup s.state plaintext paddedMsgLen).mpr
        ⟨hadm, hclean⟩)
    obtain ⟨header, paddedLen, hdr, hmh, -, hdes, hagrees⟩ := h output hout
    obtain rfl := Option.some.inj (hheader.symm.trans hmh)
    have hhdr := Except.ok.inj
      ((pqHeaderDeserialize_emittedHeader s.enabled s.state fun _ => 0).symm.trans
        (hdes fun _ => 0))
    rw [← hhdr] at hagrees
    exact hagrees
  · intro h output hout
    rcases ratchetEncrypt_cases P idx s.enabled cleanup s.state plaintext paddedMsgLen with
      ⟨-, he⟩ | ⟨-, -, he⟩ | ⟨hadm, hclean, paddedLen, header, -, hmh, he⟩
    · rw [he] at hout
      cases hout
    · rw [he] at hout
      cases hout
    · rw [he] at hout
      obtain rfl := Option.some.inj (hheader.symm.trans hmh)
      exact ⟨_, paddedLen, _, hmh, (Option.some.inj hout).symm,
        pqHeaderDeserialize_emittedHeader s.enabled s.state, h hadm hclean⟩

/-- The emitted field agrees with the chain when state 2 is sent under the setting the chain
was derived under. -/
theorem KemInv.emission {P : Primitives K} {s : KemSession K}
    (h : KemInv P s.state.pq s.chainKem s.chainEnabled)
    (hflag : s.state.pq.pqKemState = 2 → s.state.pq.pqActive ≠ 0 → s.enabled = s.chainEnabled) :
    KemAgrees P (emittedKem (pqSendActive s.enabled s.state.pq) s.state.pq) s.chainKem := by
  by_cases h2 : s.state.pq.pqKemState = 2
  · have hact : s.state.pq.pqActive ≠ 0 := h.active.mpr (by rw [h2]; decide)
    cases hen : s.chainEnabled with
    | false =>
      have hoff : pqSendActive s.enabled s.state.pq = false := by
        rw [pqSendActive, hflag h2 hact, hen, Bool.and_false]
      rw [hoff]
      exact h.disabled hen
    | true =>
      have hon : pqSendActive s.enabled s.state.pq = true := by
        rw [pqSendActive, hflag h2 hact, hen, Bool.and_true]
        simpa using hact
      rw [hon]
      simp only [emittedKem, h2]
      exact h.accepted h2 hen
  · have hnone := h.off h2
    rcases pqKemState_cases h.state_le with h0 | h1 | h2'
    · simpa [KemAgrees, emittedKem, h0] using hnone
    · cases hpq : pqSendActive s.enabled s.state.pq <;>
        simpa [KemAgrees, emittedKem, h1] using hnone
    · exact absurd h2' h2

/-- Accepted fields are what the last two cases of a KEM step are about. -/
theorem kemAccepts_iff_saved (P : Primitives K) {enabled : Bool} {draws : KemDraws}
    {recvPq : Option ParsedMsgHeader} {pq : PqKemState} :
    KemAccepts enabled draws recvPq pq ↔
      (kemStep P enabled draws recvPq pq).saved = true ∧
        ∃ hdr, recvPq = some hdr ∧ hdr.kem ≠ .nothing := by
  constructor
  · rintro ⟨rfl, hpair, hcoins, h⟩
    obtain ⟨pair, hpair⟩ := Option.isSome_iff_exists.mp hpair
    obtain ⟨coins, hcoins⟩ := Option.isSome_iff_exists.mp hcoins
    cases recvPq with
    | none => exact h.elim
    | some hdr =>
      cases hkem : hdr.kem with
      | nothing => simp [hkem] at h
      | proposed kemPk =>
        exact ⟨by simp [kemStep, pqRecvProcess, hkem, hpair, hcoins], hdr, rfl, by simp [hkem]⟩
      | accepted kemCt kemPk =>
        simp only [hkem] at h
        exact ⟨by simp [kemStep, pqRecvProcess, hkem, hpair, hcoins, h.1, h.2], hdr, rfl,
          by simp [hkem]⟩
  · rintro ⟨hsaved, hdr', hrecv', hkem'⟩
    rcases kemStep_cases P enabled draws recvPq pq with
      ⟨-, hno, -⟩ | ⟨hdr, _, hrecv, -, hkem, -⟩ |
        ⟨hdr, _, _, _, rfl, hen, hkem, hpair, hcoins, -⟩ |
        ⟨hdr, _, _, _, _, rfl, hen, hkem, hown, hdec, hpair, hcoins, -⟩
    · rw [hno] at hsaved
      cases hsaved
    · rw [hrecv] at hrecv'
      obtain rfl := Option.some.inj hrecv'
      exact absurd hkem hkem'
    · exact ⟨hen, by simp [hpair], by simp [hcoins], by simp [hkem]⟩
    · exact ⟨hen, by simp [hpair], by simp [hcoins], by simp [hkem, hown, hdec]⟩

/-- Late requests do not decide what is accepted. -/
theorem kemAccepts_carryOut {enabled : Bool} {draws : KemDraws} {recvPq : Option ParsedMsgHeader}
    {pq : PqKemState} (late : List LateRequest) :
    KemAccepts enabled draws recvPq (pq.carryOut late) ↔ KemAccepts enabled draws recvPq pq := by
  simp only [KemAccepts, PqKemState.carryOut_ownKemValid]

/-- With no pending secret nothing is mixed into the send side. -/
theorem sendKem_of_not_pending {enabled : Bool} {pq : PqKemState} (h : pq.pendingSsValid = 0) :
    sendKem enabled pq = none := by simp [sendKem, h]

/-- With no pending secret nothing is used up. -/
theorem consumePending_of_not_pending {enabled : Bool} {pq : PqKemState}
    (h : pq.pendingSsValid = 0) : consumePending enabled pq = pq := by
  simp [consumePending, sendKem_of_not_pending h]

/-- An ADVANCE that goes through is a call that returns a plaintext. -/
theorem advanceOpens_iff {P : Primitives K} {idx : ℕ} {enabled : Bool} {draws : DecryptDraws}
    {recvPq : Option ParsedMsgHeader} {st : RatchetState K} {call : BodyCall}
    (hmode : call.mode = .advance) :
    AdvanceOpens P idx enabled draws recvPq st call ↔
      ∃ plaintext, (ratchetDecryptBody P idx enabled draws recvPq st call).result =
        .ok plaintext := by
  simp only [AdvanceOpens, ratchetDecryptBody, hmode]
  cases hkeys : (advanceRatchet P idx enabled draws recvPq call.peerNewPub st).result with
  | error e => simp
  | ok keys =>
    cases hbody : openBody P st.assocData call draws.aadAlloc
        (bodyChainKey P 0 call.msgNs keys.recvChainKey) <;> simp [hbody]

/-- The PQ part of an ADVANCE, before the body is tried. -/
theorem advanceRatchet_pq (P : Primitives K) (idx : ℕ) (enabled : Bool) (draws : DecryptDraws)
    (recvPq : Option ParsedMsgHeader) (peerNewPub : Bytes 56) (st : RatchetState K) :
    let pq := (kemStep P enabled draws.kem recvPq (st.pq.carryOut (draws.late .before))).pq
      |>.carryOut (draws.late .after)
    (advanceRatchet P idx enabled draws recvPq peerNewPub st).pq = st.pq ∨
      (advanceRatchet P idx enabled draws recvPq peerNewPub st).pq = pq ∨
      (advanceRatchet P idx enabled draws recvPq peerNewPub st).pq =
        consumePending enabled pq := by
  rw [advanceRatchet]
  cases P.x448Dh peerNewPub st.dhSelf.privateKey with
  | none => exact .inl rfl
  | some dhRecv =>
    simp only [advanceSend_pq]
    split_ifs
    · exact .inr (.inr rfl)
    · exact .inr (.inl rfl)

/-- A KEM step that does not accept keeps the invariant on the old chain, and KEM state 2 is
not entered. -/
private theorem KemInv.kemStep_not_accepted {P : Primitives K} {enabled : Bool}
    {draws : KemDraws} {recvPq : Option ParsedMsgHeader} {pq : PqKemState}
    {chainKem : Option (Bytes 32)} {chainEnabled : Bool}
    (h : KemInv P pq chainKem chainEnabled) (hacc : ¬ KemAccepts enabled draws recvPq pq) :
    KemInv P (kemStep P enabled draws recvPq pq).pq chainKem chainEnabled ∧
      ((kemStep P enabled draws recvPq pq).pq.pqKemState = 2 → pq.pqKemState = 2) := by
  rcases kemStep_cases P enabled draws recvPq pq with
    ⟨-, -, hsame⟩ | ⟨_, pair, -, -, -, h0, -, heq⟩ | ⟨hdr, _, _, _, hrecv, -, hkem, -, -, heq⟩ |
      ⟨hdr, _, _, _, _, hrecv, -, hkem, -, -, -, -, heq⟩
  · exact ⟨h.of_samePending hsame, fun h2 => hsame.pqKemState ▸ h2⟩
  · rw [heq, h.off (by rw [h0]; decide)]
    exact ⟨h.propose pair draws.late chainEnabled,
      fun h2 => absurd (show (1 : UInt8) = 2 from h2) (by decide)⟩
  · exact absurd ((kemAccepts_iff_saved P).mpr ⟨by rw [heq], hdr, hrecv, by simp [hkem]⟩) hacc
  · exact absurd ((kemAccepts_iff_saved P).mpr ⟨by rw [heq], hdr, hrecv, by simp [hkem]⟩) hacc

/-- A failed ADVANCE whose KEM field is not accepted keeps the invariant on the old chain. -/
private theorem KemInv.advance_failed {P : Primitives K} {idx : ℕ} {enabled : Bool}
    {draws : DecryptDraws} {recvPq : Option ParsedMsgHeader} {peerNewPub : Bytes 56}
    {st : RatchetState K} {chainKem : Option (Bytes 32)} {chainEnabled : Bool}
    (h : KemInv P st.pq chainKem chainEnabled)
    (hacc : ¬ KemAccepts enabled draws.kem recvPq st.pq)
    (hlate : ∀ point, st.pq.pqKemState = 2 → NoLateEnc (draws.late point)) :
    KemInv P ((advanceRatchet P idx enabled draws recvPq peerNewPub st).pq.carryOut
      (draws.late .finish)) chainKem chainEnabled := by
  -- the KEM step alone keeps it, and leaves no pending secret to use
  obtain ⟨hstep, hstate⟩ := (h.carryOut (hlate .before)).kemStep_not_accepted
    (P := P) (mt (kemAccepts_carryOut _).mp hacc)
  rw [PqKemState.carryOut_pqKemState] at hstate
  have hafter := hstep.carryOut fun h2 => hlate .after (hstate h2)
  rcases advanceRatchet_pq P idx enabled draws recvPq peerNewPub st with hpq | hpq | hpq
  · rw [hpq]
    exact h.carryOut (hlate .finish)
  · rw [hpq]
    exact hafter.carryOut fun h2 => hlate .finish (hstate (by simpa using h2))
  · rw [hpq, consumePending_of_not_pending hafter.pending]
    exact hafter.carryOut fun h2 => hlate .finish (hstate (by simpa using h2))

/-- A successful ADVANCE gives the new chain its KEM secret. Late requests may come before its
KEM step, and between that and the KDF of the new chain. -/
private theorem KemInv.advance_ok {P : Primitives K} {enabled : Bool} {draws : KemDraws}
    {recvPq : Option ParsedMsgHeader} {pq : PqKemState} {chainKem : Option (Bytes 32)}
    {chainEnabled : Bool} (h : KemInv P pq chainKem chainEnabled)
    (before : List LateRequest) {after : List LateRequest}
    (hdrop : ¬ KemAccepts enabled draws recvPq pq → pq.pqKemState = 2 →
      pqSendActive enabled pq = false)
    (hafter : KemAccepts enabled draws recvPq pq → NoLateEnc after) :
    let pq' := (kemStep P enabled draws recvPq (pq.carryOut before)).pq.carryOut after
    KemInv P (consumePending enabled pq') (sendKem enabled pq') enabled ∧
      (pq'.pqKemState = 2 → KemAccepts enabled draws recvPq pq ∨ pq.pqKemState = 2) := by
  have hacc : (kemStep P enabled draws recvPq (pq.carryOut before)).saved = true →
      (∃ hdr, recvPq = some hdr ∧ hdr.kem ≠ .nothing) → KemAccepts enabled draws recvPq pq :=
    fun hsaved hkem => (kemAccepts_carryOut before).mp ((kemAccepts_iff_saved P).mpr ⟨hsaved, hkem⟩)
  -- a chain that takes no secret, whatever is pending
  have hnone : ∀ pq' : PqKemState, KemInv P pq' none enabled →
      KemInv P (consumePending enabled pq') (sendKem enabled pq') enabled := by
    intro pq' h'
    rw [sendKem_of_not_pending h'.pending, consumePending_of_not_pending h'.pending]
    exact h'
  rcases kemStep_cases P enabled draws recvPq (pq.carryOut before) with
    ⟨-, hsaved, hsame⟩ | ⟨_, pair, -, -, -, h0, -, heq⟩ |
      ⟨hdr, kemPk, pair, coins, hrecv, rfl, hkem, -, -, heq⟩ |
      ⟨hdr, _, kemPk, pair, coins, hrecv, rfl, hkem, -, -, -, -, heq⟩
  · have hnot : ¬ KemAccepts enabled draws recvPq pq := by
      rw [← kemAccepts_carryOut before, kemAccepts_iff_saved P, hsaved]
      simp
    have hstate := hsame.pqKemState.trans (pq.carryOut_pqKemState before)
    refine ⟨hnone _ ?_, fun h2 => .inr (hstate ▸ by simpa using h2)⟩
    have hoff : pq.pqKemState = 2 → enabled = false := by
      intro h2
      have hact : pq.pqActive ≠ 0 := h.active.mpr (by rw [h2]; decide)
      simpa [pqSendActive, hact] using hdrop hnot h2
    exact
      { user := by simpa [hsame.pqUserDisabled] using h.user
        state_le := by simpa [hstate] using h.state_le
        active := by simpa [hsame.pqActive, hstate] using h.active
        pending := by simpa [hsame.pendingSsValid] using h.pending
        off := fun _ => rfl
        disabled := fun _ => rfl
        accepted := fun h2 hen => by
          rw [PqKemState.carryOut_pqKemState, hstate] at h2
          rw [hoff h2] at hen
          cases hen }
  · have hne : pq.pqKemState ≠ 2 := by
      rw [← pq.carryOut_pqKemState before, h0]
      decide
    have hinv : KemInv P (pq.carryOut before) chainKem chainEnabled :=
      h.carryOut fun h2 => absurd h2 hne
    have hstate : (((pq.carryOut before).withOwn pair).carryOut
        draws.late).withProposal.pqKemState = 1 := rfl
    simp only [heq]
    refine ⟨hnone _ ((hinv.propose pair draws.late enabled).carryOut fun h2 => ?_), fun h2 => ?_⟩
    · rw [hstate] at h2
      cases h2
    · rw [PqKemState.carryOut_pqKemState, hstate] at h2
      cases h2
  · have haccepted := hacc (by rw [heq]) ⟨hdr, hrecv, by simp [hkem]⟩
    simp only [heq]
    refine ⟨KemInv.accept ?_ kemPk coins (hafter haccepted), fun _ => .inl haccepted⟩
    simpa [PqKemState.withOwn, PqKemState.withPeer] using h.user
  · have haccepted := hacc (by rw [heq]) ⟨hdr, hrecv, by simp [hkem]⟩
    simp only [heq]
    refine ⟨KemInv.accept ?_ kemPk coins (hafter haccepted), fun _ => .inl haccepted⟩
    simpa [PqKemState.withOwn, PqKemState.withPeer] using h.user

/-- Every step that meets the condition keeps the invariant. -/
theorem KemInv.step {P : Primitives K} {idx : ℕ} (s : KemSession K) (a : KemAction)
    (h : KemInv P s.state.pq s.chainKem s.chainEnabled) (ha : a.Steady P idx s) :
    KemInv P (s.step P idx a).state.pq (s.step P idx a).chainKem
      (s.step P idx a).chainEnabled := by
  cases a with
  | encrypt cleanup plaintext paddedMsgLen =>
    rcases ratchetEncrypt_cases P idx s.enabled cleanup s.state plaintext paddedMsgLen with
      ⟨-, he⟩ | ⟨-, -, he⟩ | ⟨-, -, _, _, -, -, he⟩ <;>
    · simp only [KemSession.step, he]
      exact h
  | setRecvPq hdr => exact h
  | setPqEnabled val => exact h
  | cryptoTask late => exact h.carryOut ha
  | decrypt draws call =>
    obtain ⟨⟨hbefore, hafter, hfinish⟩, hadv⟩ := ha
    rcases ratchetDecryptBody_cases P idx s.enabled draws s.recvPq s.state call with
      ⟨hmode, e, hd⟩ | ⟨hmode, -, plaintext, -, hd⟩ | ⟨hmode, e, hd⟩ |
        ⟨hmode, keys, plaintext, hkeys, -, hd⟩
    · simp only [KemSession.step, hd, hmode]
      exact h.carryOut fun h2 => hfinish (.inr h2)
    · simp only [KemSession.step, hd, hmode]
      exact h.carryOut fun h2 => hfinish (.inr h2)
    · simp only [KemSession.step, hd, hmode]
      have hacc : ¬ KemAccepts s.enabled draws.kem s.recvPq s.state.pq := by
        intro hacc
        obtain ⟨plaintext, hok⟩ := (advanceOpens_iff hmode).mp ((hadv hmode).1 hacc)
        rw [hd] at hok
        cases hok
      refine h.advance_failed hacc fun point h2 => ?_
      cases point with
      | before => exact hbefore hmode hacc h2
      | after => exact hafter hmode (.inr h2)
      | finish => exact hfinish (.inr h2)
    · obtain ⟨-, -, -, -, -, -, -, hpq⟩ := advanceRatchet_ok P idx s.enabled draws s.recvPq
        s.state hkeys
      simp only [KemSession.step, hd, hmode, RatchetState.applyAdvance_pq, hpq]
      obtain ⟨hinv, hstate⟩ := h.advance_ok (draws.late .before) (fun hacc h2 => by
        by_contra hon
        exact (hadv hmode).2 hacc h2 (by simpa using hon) ((advanceOpens_iff hmode).mpr
          ⟨plaintext, by rw [hd]⟩)) fun hacc => hafter hmode (.inl hacc)
      refine hinv.carryOut fun h2 => hfinish ?_
      have h2' := hstate (by
        rw [consumePending] at h2
        split at h2 <;> exact h2)
      exact h2'.imp_left fun hacc => ⟨hmode, hacc⟩

/-- In every run whose steps are steady, from a freshly set up session, every emitted header
agrees with the chain it is sent on. -/
theorem emissions_agree (P : Primitives K) (idx : ℕ) (peerKey1 peerKey2 : Bytes 56)
    (ourKey1 ourKey2 : X448KeyPair) (st : RatchetState K) (enabled : Bool)
    (actions : List KemAction)
    (hsetup : ratchetSetup P peerKey1 peerKey2 ourKey1 ourKey2 = some st)
    (hsteady : StepsMeet (KemSession.step P idx) (fun s a => a.Steady P idx s)
      (.start st enabled) actions) :
    StepsMeet (KemSession.step P idx) (EmissionAgrees P idx) (.start st enabled) actions := by
  refine hsteady.invariant_step KemInv.step ?_ ?_
  · intro s a h ha
    cases a with
    | encrypt cleanup plaintext paddedMsgLen =>
      exact (emissionAgrees_iff h.state_le).mpr fun _ _ => h.emission ha
    | setRecvPq hdr => trivial
    | decrypt draws call => trivial
    | setPqEnabled val => trivial
    | cryptoTask late => trivial
  · rw [KemSession.start, ratchetSetup_pq hsetup]
    exact KemInv.zero P enabled

/-- The peer proposes, the session accepts with its next chain, and PQ is switched off before
the first message on that chain. -/
def toggledRun : List KemAction :=
  [.setRecvPq (some (sampleHeader (.proposed (symbolicKemPair 9).publicKey))),
    .decrypt sampleDraws (sampleCall sampleTag), .setPqEnabled 0, .encrypt false [] 300]

/-- The message then says Nothing on a chain that has a KEM secret. -/
theorem emissions_disagree_toggled :
    ¬ StepsMeet (KemSession.step symbolic 0) (EmissionAgrees symbolic 0)
      (.start sampleSession true) toggledRun := by
  rintro ⟨-, -, -, h, -⟩
  rw [emissionAgrees_iff (by decide)] at h
  have hagrees := h rfl rfl
  exact absurd hagrees (by
    change ¬ (_ = none)
    exact Option.some_ne_none (Vector.replicate 32 6))

/-- Without the switch the same run agrees. -/
theorem emissions_agree_accepted :
    StepsMeet (KemSession.step symbolic 0) (EmissionAgrees symbolic 0) (.start sampleSession true)
      [.setRecvPq (some (sampleHeader (.proposed (symbolicKemPair 9).publicKey))),
        .decrypt sampleDraws (sampleCall sampleTag), .encrypt false [] 3000] := by
  refine emissions_agree symbolic 0 _ _ _ _ sampleSession true _ sampleSession_setup
    ⟨trivial, ⟨lateSteady_of_inTime (fun _ => rfl) _ _,
      fun _ => ⟨fun _ => ?_, fun hnot => absurd ⟨rfl, rfl, rfl, trivial⟩ hnot⟩⟩,
      fun _ _ => rfl, trivial⟩
  exact (advanceOpens_iff rfl).mpr ⟨_, rfl⟩

end SimpleGo
